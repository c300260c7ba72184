import Perimeter.FileTree.Basic
import Perimeter.Json.Parser
import Perimeter.Settings.Decode
import Perimeter.Yaml.Reader

/-!
# Settings files

Settings are read from a named file, or from the first settings file in a list of folders, and put
between the environment and the defaults. A file with all defaults can be written.
-/

namespace Perimeter.Settings

/-- The home folder, if there is one. -/
def home? (env : Environment) : Option String :=
  match env.lookup "HOME" with
  | some h => if h.isEmpty then none else some h
  | none => none

/-- The folders that are searched for a settings file, in order. -/
def searchPaths (env : Environment) : List String :=
  let own := match env.lookup "XDG_CONFIG_HOME", home? env with
    | some folder, _ => [Path.join [folder, programName]]
    | none, some h => [Path.join [h, ".config", programName]]
    | none, none => []
  ["."] ++ (home? env).toList ++ [Path.join ["/etc", programName]] ++ own

/-- The endings of settings files, in the order in which they are looked for. -/
def fileTypes : List String :=
  ["json", "toml", "yaml", "yml", "properties", "props", "prop", "hcl", "tfvars", "dotenv", "env",
    "ini"]

/-- A path from the root. -/
def absolutePath (t : FileTree) (p : String) : String :=
  if Path.isRooted p then Path.clean p else Path.join [FileTree.absolute t.cwd, p]

/-- The path leads to a file. -/
def isFile (t : FileTree) (p : String) : Bool := t.contains p && !t.isFolder p

/-- The names of settings files, in the order in which they are looked for. -/
def fileNames : List String :=
  fileTypes.map (fun ending => s!"{programName}.{ending}") ++ [programName]

/-- The paths where settings files are looked for, in order. -/
def filePaths (t : FileTree) (env : Environment) : List String :=
  let folders := ((searchPaths env).filter (!·.isEmpty)).map (absolutePath t)
  folders.flatMap fun f => fileNames.map fun n => Path.join [f, n]

/-- The first settings file in the folders that are searched. -/
def searchFile? (t : FileTree) (env : Environment) : Option String :=
  (filePaths t env).find? (isFile t)

/-- The failure of a settings file that cannot be understood. -/
def unparsable (format : String) : Failure :=
  .during "While parsing config" (.plain s!"{format}: malformed document")

/-- The mapping at the top of a settings file. Nothing counts as an empty one. -/
def topMapping (format : String) : Option Tree → Except Failure Tree
  | some .null => .ok (.map [])
  | some (.map fields) => .ok (Tree.map fields).lowerKeys
  | _ => .error (unparsable format)

/-- Understands the text of a settings file. -/
def parseFile (kind text : String) : Except Failure Tree :=
  match kind with
  | "json" => topMapping "json" ((Json.parse? text).bind Tree.ofJson?)
  | "yaml" | "yml" => topMapping "yaml" (Yaml.read? text)
  | other => .error (unparsable other)

/-- The type of a settings file by the ending of its name. -/
def fileType (path : String) : String := String.ofList ((Path.extension path).toList.drop 1)

/-- The failure of a settings file of an unknown type. -/
def unsupportedType (kind : String) : Failure := .plain s!"Unsupported Config Type {Text.quoted kind}"

/-- Reads a settings file of a type. -/
def readFile (t : FileTree) (path kind : String) : Except Failure Tree :=
  if !fileTypes.contains kind then .error (unsupportedType kind)
  else
    match t.find path with
    | .ok (.text s) => parseFile kind s
    | .ok (.image _) => .error (unparsable kind)
    | .ok .folder => .error (.plain s!"read {path}: {FileTree.Trouble.isFolder.message}")
    | .error e => .error (.plain s!"open {path}: {e.message}")

/-- The settings file that was read, if any, and what it holds. -/
def locateFile (t : FileTree) (env : Environment) (path : String) : Except Failure (String × Tree) :=
  if !path.isEmpty then
    match t.find path with
    | .error .missing => .error (.plain s!"config file does not exist: {path}")
    | _ => do
      let tree ← Failure.within s!"error reading config file {path}" (readFile t path (fileType path))
      pure (path, tree)
  else
    match searchFile? t env with
    | none => .ok ("", .map [])
    | some found => do
      let tree ← Failure.within "error reading config file" (readFile t found "yaml")
      pure (found, tree)

/-- What to load. -/
structure Request where
  /-- The settings file; empty to search for one. -/
  file : String := ""
  /-- Refuse settings out of range. -/
  checked : Bool := true
  overrides : Tree := .map []
  flags : List (String × Tree) := []

/-- Loaded settings. -/
structure Loaded where
  settings : Settings
  layers : Layers
  /-- The settings file that was read; empty when there was none. -/
  file : String

/-- Loads settings from files, environment, flags and overrides. -/
def load (t : FileTree) (env : Environment) (r : Request) : Except Failure Loaded := do
  let (file, tree) ← locateFile t env r.file
  let layers : Layers := { overrides := r.overrides, flags := r.flags, environment := env, file := tree }
  let settings ← Failure.within "error unmarshaling config" layers.settings
  if r.checked then
    Failure.within "configuration validation failed" settings.check
  pure ⟨settings, layers, file⟩

/-- A description of where settings come from. -/
def describeSources (env : Environment) (file : String) : String :=
  let used := if file.isEmpty then "(none)" else file
  let paths := " ".intercalate (searchPaths env)
  s!"Configuration file used: {used}\nConfiguration search paths: [{paths}]\n" ++
    s!"Environment prefix: {variablePrefix}\n"

/-- The fields of a record by name, at all levels. -/
def sortedDefaults : Data :=
  match data {} with
  | .record fields =>
    .record ((fields.map fun (k, v) => (k, sortFields v)).mergeSort fun a b => decide (a.1 ≤ b.1))
  | d => d
where
  /-- The fields of one record by name. -/
  sortFields : Data → Data
    | .record fields => .record (fields.mergeSort fun a b => decide (a.1 ≤ b.1))
    | d => d

/-- The text of a scalar in a table of settings. -/
def tableScalar : Data → String
  | .int n => toString n
  | .real x =>
    let text := Decimal.plain.text x
    if text.toList.contains '.' then text else text ++ ".0"
  | .flag b => if b then "true" else "false"
  | .text s => s!"'{s}'"
  | _ => ""

/-- Lines with a name and a scalar each. -/
def tableLines (fields : List (String × Data)) : String :=
  String.join (fields.filterMap fun (k, v) =>
    match v with
    | .record _ => none
    | v => some s!"{k} = {tableScalar v}\n")

/-- Settings as tables: first what is in no section, then the sections under their names. -/
def tables : Data → String
  | .record fields =>
    let sections := fields.filterMap fun (k, v) =>
      match v with
      | .record inner => some s!"\n[{k}]\n{tableLines inner}"
      | _ => none
    tableLines fields ++ String.join sections
  | _ => ""

/-- The text of a scalar in an assignment to a variable. -/
def variableScalar : Data → String
  | .real x => Decimal.general.text x
  | .text s => s
  | d => tableScalar d

/-- Settings as assignments to variables in the order of their names. -/
def assignments : Data → String
  | .record fields =>
    let flat := fields.flatMap fun (k, v) =>
      match v with
      | .record inner => inner.map fun (inside, v) => (s!"{k}_{inside}", v)
      | v => [(k, v)]
    String.join ((flat.mergeSort fun a b => decide (a.1 ≤ b.1)).map fun (k, v) =>
      s!"{String.ofList (k.toList.map Char.toUpper)}={variableScalar v}\n")
  | _ => ""

/-- The text of a settings file with all defaults. -/
def defaultsText (kind : String) : Except Failure String :=
  match kind with
  | "json" => do
    let v ← sortedDefaults.json
    pure v.pretty
  | "yaml" | "yml" => pure (sortedDefaults.yaml.render 4)
  | "toml" => pure (tables sortedDefaults)
  | "env" | "dotenv" => pure (assignments sortedDefaults)
  | _ => .error (.during "While marshaling config" (.plain "encoder not found for this format"))

/-- Writes a settings file with all defaults. The file is there, and empty, even if nothing can be
written to it. -/
def writeDefaults (t : FileTree) (path : String) : FileTree × Except Failure Unit :=
  let path := if path.isEmpty then s!"{programName}.yaml" else path
  let kind := fileType path
  if kind.isEmpty then
    (t, .error (.plain s!"config type could not be determined for {path}"))
  else if !fileTypes.contains kind then (t, .error (unsupportedType kind))
  else
    let (text, outcome) := match defaultsText kind with
      | .ok text => (text, .ok ())
      | .error e => ("", .error e)
    match t.write path (.text text) with
    | .ok t => (t, outcome)
    | .error e => (t, .error (.plain s!"open {path}: {e.message}"))

end Perimeter.Settings
