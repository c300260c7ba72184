import Perimeter.Settings.Basic
import Perimeter.Text.Lowercase
import Perimeter.Tree

/-!
# Layers of settings

A setting can be given in several places. From the strongest to the weakest these are: an override, a
flag of the command line, a variable of the environment, the settings file, and the defaults. A value
that stands where a section belongs hides the section in all weaker layers.
-/

namespace Perimeter

mutual

/-- A tree with all keys in lower case. -/
def Tree.lowerKeys : Tree → Tree
  | .list items => .list (Tree.lowerItems items)
  | .map fields => .map (Tree.lowerFields fields)
  | t => t

/-- The items of a list with all keys in lower case. -/
def Tree.lowerItems : List Tree → List Tree
  | [] => []
  | t :: rest => t.lowerKeys :: Tree.lowerItems rest

/-- Fields with all keys in lower case. -/
def Tree.lowerFields : List (String × Tree) → List (String × Tree)
  | [] => []
  | (k, t) :: rest => (Text.lower k, t.lowerKeys) :: Tree.lowerFields rest

end

mutual

/-- The tree of a record. -/
def Data.tree : Data → Tree
  | .int n => .int n
  | .real x => .real x
  | .flag b => .bool b
  | .text s => .text s
  | .duration n => .int n
  | .absent => .null
  | .list items => .list (Data.treeItems items)
  | .record fields => .map (Data.treeFields fields)

/-- The trees of the items of a list. -/
def Data.treeItems : List Data → List Tree
  | [] => []
  | d :: rest => d.tree :: Data.treeItems rest

/-- The trees of the fields of a record. -/
def Data.treeFields : List (String × Data) → List (String × Tree)
  | [] => []
  | (k, d) :: rest => (k, d.tree) :: Data.treeFields rest

end

namespace Tree

/-- The value at the end of a path of keys, if it is there and not null. -/
def search : List String → Tree → Option Tree
  | [], t => if t.isNull then none else some t
  | k :: rest, t =>
    match t.get? k with
    | some u => search rest u
    | none => none

/-- The value at the end of a path whose keys may also be written as one key with dots; the longest
such key is tried first. -/
def searchDotted (path : List String) (t : Tree) : Option Tree :=
  match path with
  | [a, b] =>
    match (t.get? s!"{a}.{b}").bind (search []) with
    | some v => some v
    | none => search [a, b] t
  | path => search path t

/-- A value that is no mapping stands on the way to the end of the path. -/
def hides (path : List String) (t : Tree) : Bool :=
  match path with
  | a :: _ :: _ =>
    match search [a] t with
    | some v => !v.isMap
    | none => false
  | _ => false

/-- Puts a value at the end of a path of keys. -/
def insert (t : Tree) (path : List String) (v : Tree) : Tree :=
  let fields := match t with
    | map fields => fields
    | _ => []
  match path with
  | [] => v
  | [k] => map (fields.filter (·.1 != k) ++ [(k, v)])
  | k :: rest =>
    map (fields.filter (·.1 != k) ++ [(k, insert ((fields.lookup k).getD (map [])) rest v)])

end Tree

/-- The variables of an environment. -/
abbrev Environment := List (String × String)

namespace Settings

/-- The name that the program goes by in file names. -/
def programName : String := "seedtrace"

/-- What the names of variables start with. -/
def variablePrefix : String := "SEEDTRACE"

/-- The name of the variable for a setting. -/
def variableName (path : List String) : String :=
  String.ofList (("_".intercalate (variablePrefix :: path)).toList.map Char.toUpper)

/-- The places of all sections and settings. -/
def places : List (List String) :=
  match (data {}).tree with
  | .map fields => fields.flatMap fun (k, v) =>
    match v with
    | .map inside => [k] :: inside.map fun (name, _) => [k, name]
    | _ => [[k]]
  | _ => []

/-- The text of the variable for a setting, if it has one. -/
def variableText? (env : Environment) (path : List String) : Option String :=
  match env.lookup (variableName path) with
  | some v => if v.isEmpty then none else some v
  | none => none

/-- All places where settings are given. -/
structure Layers where
  overrides : Tree := .map []
  /-- The settings that were given by flags, by their dotted names. -/
  flags : List (String × Tree) := []
  environment : Environment := []
  file : Tree := .map []
  defaults : Tree := (data {}).tree

namespace Layers

/-- The first of several layers that has a value or hides the weaker ones. -/
def firstOf : List (Option Tree × Bool) → Option Tree
  | [] => none
  | (some v, _) :: _ => some v
  | (none, hidden) :: rest => if hidden then none else firstOf rest

/-- The file names the section of a setting and leaves it empty, so that variables of the environment do
not count for it. -/
def isBlankSection (l : Layers) (path : List String) : Bool :=
  match path with
  | a :: _ :: _ => ((l.file.get? a).map Tree.isNull).getD false
  | _ => false

/-- The value of a setting. -/
def find (l : Layers) (path : List String) : Option Tree :=
  let given := if l.isBlankSection path then none else variableText? l.environment path
  firstOf
    [(Tree.search path l.overrides, Tree.hides path l.overrides),
      (l.flags.lookup (".".intercalate path), false),
      (given.map .text,
        match path with
        | a :: _ :: _ => (variableText? l.environment [a]).isSome
        | _ => false),
      (Tree.searchDotted path l.file, Tree.hides path l.file),
      (Tree.search path l.defaults, false)]

/-- The value that stands where a section belongs. -/
def misplaced? (l : Layers) (section_ : String) : Option Tree :=
  let stands (t : Tree) : Bool :=
    match Tree.search [section_] t with
    | some v => !v.isMap
    | none => false
  if stands l.overrides || stands l.file then l.find [section_] else none

end Layers

end Settings

end Perimeter
