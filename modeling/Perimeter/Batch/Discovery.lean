import Perimeter.FileTree.Pattern
import Perimeter.Image.File

/-!
# Finding image files

Paths to files and folders become a list of image files: files in the order in which they are given,
the files of a folder by name, each path once.
-/

namespace Perimeter.Batch

/-- Which files to take. -/
structure Filter where
  /-- Look into the folders inside folders too. -/
  recursive : Bool := false
  /-- Patterns of file names to take; all names of images when there are none. -/
  included : List String := []
  /-- Patterns of file names to leave out. -/
  excluded : List String := []

namespace Filter

/-- The name of the file fits one of the patterns. -/
def fitsAny (patterns : List String) (path : String) : Bool :=
  patterns.any fun p => Pattern.covers p (Path.base path)

/-- The file is taken. -/
def takes (f : Filter) (path : String) : Bool :=
  !fitsAny f.excluded path &&
    if f.included.isEmpty then Image.isSupported path else fitsAny f.included path

/-- The paths of the files under a place that are taken, at most `depth` folders down. -/
def walk (f : Filter) (t : FileTree) : Nat → List String → String → List String
  | 0, _, _ => []
  | depth + 1, place, path =>
    (t.children place).flatMap fun name =>
      let inner := place ++ [name]
      let innerPath := Path.join [path, name]
      match t.entry? inner with
      | some .folder => if f.recursive then walk f t depth inner innerPath else []
      | _ => if f.takes innerPath then [innerPath] else []

/-- The files that a path stands for. -/
def expand (f : Filter) (t : FileTree) (path : String) : Except Failure (List String) :=
  match t.locate path with
  | .error e => .error (.during s!"cannot access {path}" (.plain s!"stat {path}: {e.message}"))
  | .ok place =>
    match t.entry? place with
    | some .folder => .ok (f.walk t (t.entries.length + 1) place path)
    | _ => .ok (if f.takes path then [path] else [])

end Filter

/-- The image files that some paths stand for. -/
def discover (t : FileTree) (paths : List String) (f : Filter) : Except Failure (List String) := do
  let found ← paths.mapM (f.expand t)
  pure found.flatten.eraseDups

end Perimeter.Batch
