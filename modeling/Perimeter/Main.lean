import Perimeter.Command.Run
import Perimeter.Image.Png

/-!
# The program

The outer layer of the command line. It gathers the variables of the environment and the files that the
words of the command line speak of, lets `Command.run` work on them, prints what came of it, and stores
the files that are new or changed.
-/

namespace Perimeter.Program

-- Gathering -----------------------------------------------------------------------------------

/-- The names of the variables that a command can ask for. -/
def variableNames : List String :=
  ["HOME", "XDG_CONFIG_HOME"] ++ Settings.places.map Settings.variableName

/-- The environment. -/
def environment : IO Environment :=
  variableNames.filterMapM fun name => do
    return (← IO.getEnv name).map fun value => (name, value)

/-- What the bytes of a file stand for. Bytes that are neither an image nor text are an empty text. -/
def entryOf (bytes : ByteArray) : FileTree.Entry :=
  match Png.decode? bytes.toList with
  | some i => .image i
  | none => .text ((String.fromUTF8? bytes).getD "")

/-- The paths that the words of a command line may speak of. -/
def namedPaths (words : List String) : List String :=
  words.flatMap fun w =>
    match (w.splitOn "=").tail with
    | [] => [w]
    | rest => [w, "=".intercalate rest]

/-- Adds a file with what it holds, or a folder alone. -/
def addEntry (t : FileTree) (place : List String) : IO FileTree := do
  let file := (← IO.currentDir) / FileTree.absolute place
  if (t.entry? place).isSome then return t
  else if ← file.isDir then return t.put place .folder
  else if ← file.pathExists then return t.put place (entryOf (← IO.FS.readBinFile file))
  else return t

/-- Adds what lies in a folder, down to a depth. Of the files only images are read. -/
def addFolder : Nat → FileTree → List String → IO FileTree
  | 0, t, _ => return t
  | depth + 1, t, place => do
    let folder := (← IO.currentDir) / FileTree.absolute place
    (← folder.readDir).foldlM (fun t inside => do
      let place := place ++ [inside.fileName]
      if ← inside.path.isDir then addFolder depth (← addEntry t place) place
      else if Image.isSupported inside.fileName then addEntry t place
      else return t.put place (.text "")) t

/-- How far folders are searched. -/
def searchDepth : Nat := 32

/-- The names on a path from the root. -/
def placeOf (path : String) : List String := (Path.names path).filter (!·.isEmpty)

/-- Adds what a path leads to, and the folders on the way. -/
def addPath (t : FileTree) (path : String) : IO FileTree :=
  (FileTree.fronts (placeOf (Settings.absolutePath t path))).foldlM addEntry t

/-- Adds what a path leads to, with all that lies in a folder. -/
def addAll (t : FileTree) (path : String) : IO FileTree := do
  let t ← addPath t path
  let place := placeOf (Settings.absolutePath t path)
  match t.entry? place with
  | some .folder => addFolder searchDepth t place
  | _ => return t

/-- The files that a command line may speak of. -/
def files (env : Environment) (words : List String) : IO FileTree := do
  let t := FileTree.empty (placeOf (toString (← IO.currentDir)))
  let t ← (Settings.filePaths t env).foldlM addPath t
  (namedPaths words).foldlM addAll t

-- Telling -------------------------------------------------------------------------------------

/-- Stores an entry. -/
def store (place : List String) : FileTree.Entry → IO Unit
  | .folder => IO.FS.createDirAll (FileTree.absolute place)
  | .text s => IO.FS.writeFile (FileTree.absolute place) s
  | .image i => IO.FS.writeBinFile (FileTree.absolute place) ⟨(Png.encode i).toArray⟩

/-- Stores the entries that are new or changed. -/
def storeChanges (before after : FileTree) : IO Unit :=
  after.entries.forM fun (place, e) =>
    if before.entry? place == some e then pure () else store place e

/-- Prints what a command said. -/
def tell (c : Command.Console) : IO Unit := do
  IO.print c.output
  c.messages.forM fun m =>
    match m with
    | .text s => IO.eprint s
    | .record r => IO.eprintln r.line
  if let some node := c.subject then
    IO.print node.usage
  if let some service := c.service then
    IO.eprintln s!"No requests are taken at {service.address}: this program has no listener."

/-- Runs a command line and gives back its exit code. -/
def run (words : List String) : IO UInt32 := do
  let env ← environment
  let before ← files env words
  let outcome := Command.run before env words
  tell outcome.console
  storeChanges before outcome.console.tree
  return if outcome.failure.isSome then 1 else 0

end Perimeter.Program

/-- Runs the words of the command line. -/
def main (args : List String) : IO UInt32 := Perimeter.Program.run args
