import Perimeter.FileTree.Path
import Perimeter.Image.Basic

/-!
# File trees

The files that a command can see: folders, texts and images under names, and the folder that relative
paths start from. Files are found by following the names of a path one after the other.
-/

namespace Perimeter

/-- What a name stands for. -/
inductive FileTree.Entry where
  | folder
  | text (content : String)
  | image (i : Image)
deriving DecidableEq, Repr

/-- A tree of files. Every folder on the way to a file is an entry of its own; the root is not. -/
structure FileTree where
  /-- The names that lead from the root to the folder where relative paths start. -/
  cwd : List String
  entries : List (List String × FileTree.Entry)
deriving Repr

namespace FileTree

/-- Why a path leads nowhere, or not to what was wanted. -/
inductive Trouble where
  | missing
  | notFolder
  | isFolder
deriving DecidableEq, Repr

/-- The wording of a trouble. -/
def Trouble.message : Trouble → String
  | missing => "no such file or directory"
  | notFolder => "not a directory"
  | isFolder => "is a directory"

/-- The entry at a place. -/
def entry? (t : FileTree) (place : List String) : Option Entry :=
  if place.isEmpty then some .folder else t.entries.lookup place

/-- Puts an entry at a place, in the stead of what was there. -/
def put (t : FileTree) (place : List String) (e : Entry) : FileTree :=
  if (t.entries.lookup place).isSome then
    { t with entries := t.entries.map fun (p, old) => if p == place then (p, e) else (p, old) }
  else { t with entries := t.entries ++ [(place, e)] }

/-- Follows names from a place. -/
def follow (t : FileTree) : List String → List String → Except Trouble (List String)
  | place, [] => .ok place
  | place, name :: rest =>
    match t.entry? place with
    | none => .error .missing
    | some .folder =>
      if name.isEmpty || name == "." then follow t place rest
      else if name == ".." then follow t place.dropLast rest
      else
        match t.entry? (place ++ [name]) with
        | none => .error .missing
        | some _ => follow t (place ++ [name]) rest
    | some _ => .error .notFolder

/-- Where a path starts. -/
def origin (t : FileTree) (path : String) : List String := if Path.isRooted path then [] else t.cwd

/-- The place that a path leads to. -/
def locate (t : FileTree) (path : String) : Except Trouble (List String) :=
  if path.isEmpty then .error .missing else t.follow (t.origin path) (Path.names path)

/-- The entry that a path leads to. -/
def find (t : FileTree) (path : String) : Except Trouble Entry := do
  match t.entry? (← t.locate path) with
  | some e => pure e
  | none => throw .missing

/-- The path leads to something. -/
def contains (t : FileTree) (path : String) : Bool :=
  match t.find path with
  | .ok _ => true
  | .error _ => false

/-- The path leads to a folder. -/
def isFolder (t : FileTree) (path : String) : Bool :=
  match t.find path with
  | .ok .folder => true
  | _ => false

/-- The place for a new file: the folder has to be there already, the name need not. -/
def placeFor (t : FileTree) (path : String) : Except Trouble (List String) := do
  if path.isEmpty then
    throw .missing
  let folder := (Path.names path).dropLast
  let place ← t.follow (t.origin path) folder
  match t.entry? place with
  | some .folder => pure (place ++ [Path.afterSlash path])
  | some _ => throw .notFolder
  | none => throw .missing

/-- Writes a file in place of an older one; a folder is not replaced, and a path with a slash at its end
stands for a folder, whether there is one or not. -/
def write (t : FileTree) (path : String) (e : Entry) : Except Trouble FileTree :=
  match t.find path with
  | .ok .folder => .error .isFolder
  | .ok _ => do
    pure (t.put (← t.locate path) e)
  | .error _ => do
    let place ← t.placeFor (Path.dropSlashes path)
    if Path.afterSlash path == "" then throw .isFolder else pure (t.put place e)

/-- The names inside a folder, in ascending order. -/
def children (t : FileTree) (place : List String) : List String :=
  let inside := t.entries.filterMap fun (p, _) =>
    if p.dropLast == place then p.getLast? else none
  inside.mergeSort fun a b => decide (a ≤ b)

/-- The front parts of a list of names, shortest first. -/
def fronts (l : List String) : List (List String) :=
  (List.range l.length).map fun k => l.take (k + 1)

/-- A path with the paths of the folders on the way to it, outermost first. -/
def wayTo (path : String) : List String :=
  let rooted := Path.isRooted path
  (fronts ((Path.names path).filter (!·.isEmpty))).map fun l =>
    (if rooted then "/" else "") ++ "/".intercalate l

/-- Creates a folder and the folders around it. The error names the path at fault. -/
def makeFolders (t : FileTree) (path : String) : Except (String × Trouble) FileTree :=
  (wayTo path).foldlM (fun t p =>
    match t.find p with
    | .ok .folder => .ok t
    | .ok _ => .error (p, .notFolder)
    | .error .missing =>
      match t.placeFor p with
      | .ok place => .ok (t.put place .folder)
      | .error e => .error (p, e)
    | .error e => .error (p, e)) t

/-- A tree with nothing but the folder that relative paths start from. -/
def empty (cwd : List String) : FileTree :=
  (fronts cwd).foldl (fun t p => t.put p .folder) ⟨cwd, []⟩

/-- The absolute path of a place. -/
def absolute (place : List String) : String := "/" ++ "/".intercalate place

end FileTree

end Perimeter
