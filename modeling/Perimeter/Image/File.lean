import Perimeter.FileTree.Basic
import Perimeter.Image.Binarize
import Perimeter.Text.Lowercase

/-!
# Image files

Which file names are taken for images, and loading and saving them. What a file holds is told by its
content when it is loaded, and by its name when it is saved.
-/

namespace Perimeter.Image

/-- The endings of file names that are taken for images. -/
def extensions : List String := [".jpg", ".jpeg", ".png", ".bmp", ".gif", ".tif", ".tiff", ".webp"]

/-- The file name has the ending of an image. -/
def isSupported (path : String) : Bool := extensions.contains (Text.lower (Path.extension path))

/-- The format under which a file with this name is saved. -/
def formatOf? (path : String) : Option String :=
  match Text.lower (Path.extension path) with
  | ".jpg" | ".jpeg" => some "jpeg"
  | ".png" => some "png"
  | ".gif" => some "gif"
  | ".tif" | ".tiff" => some "tiff"
  | ".bmp" => some "bmp"
  | _ => none

/-- The name of the format of an image file: that of saving, or the bare ending. -/
def formatName (path : String) : String :=
  match formatOf? path with
  | some f => f
  | none => String.ofList ((Text.lower (Path.extension path)).toList.dropWhile (· == '.'))

/-- The failure to see an image in something. -/
def unknownContent : String := "image: unknown format"

/-- Loads an image file. -/
def load (t : FileTree) (path : String) : Except Failure Image :=
  if path.isEmpty then .error (.image "load" "empty path")
  else if !isSupported path then
    .error (.image "load" s!"unsupported format: {Path.extension path}")
  else
    match t.find path with
    | .error e => .error (.image "load" s!"stat {path}: {e.message}")
    | .ok (.image i) => .ok i.reloaded
    | .ok _ => .error (.image "decode" unknownContent)

/-- Loads an image file and turns it into a picture of ink. -/
def loadInk (t : FileTree) (path : String) (opts : BinarizeOptions) :
    Except Failure (Image × Raster) := do
  let i ← load t path
  let r ← binarize (some i) opts
  pure (i, r)

/-- Saves an image, and creates the folders on the way. -/
def save (t : FileTree) (i : Image) (path : String) : Except Failure FileTree :=
  match t.makeFolders (Path.parent path) with
  | .error (p, e) => .error (.image "save" s!"mkdir {p}: {e.message}")
  | .ok t =>
    if (formatOf? path).isNone then .error (.image "save" "imaging: unsupported image format")
    else
      match t.write path (.image i) with
      | .ok t => .ok t
      | .error e => .error (.image "save" s!"open {path}: {e.message}")

end Perimeter.Image
