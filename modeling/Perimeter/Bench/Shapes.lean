import Perimeter.Bench.Suite
import Perimeter.Blob.Find
import Perimeter.Shape

/-!
# Benchmarks on shapes

For every shape there are four tasks: a walk around its first component, the same walk with its points
compressed, and the extraction of all blobs from the picture and from a copy with one bit a pixel.
-/

namespace Perimeter.Bench

/-- Which shapes to measure. -/
structure Options where
  shapes : List String := Shape.names
  width : Int := 256
  height : Int := 256
  seed : Int := 1

/-- The edges of one walk. -/
def walkWork (p : Picture) (q : Point) (chain : Bool) : Int × Option Failure :=
  match Blob.traceSeed p ⟨q.x, q.y, .auto⟩ {} chain with
  | .ok t => (t.result.length, none)
  | .error f => (0, some (.fault f))

/-- The edges of all contours. -/
def blobWork (p : Picture) : Int × Option Failure :=
  match Blob.find p {} with
  | .ok r => ((r.contourList.map (·.length)).foldl (fun a b => wrap64 (a + b)) 0, none)
  | .error e => (0, some e)

/-- A task whose outcome is the same at every call. It is found at the first call and kept. -/
def steadyTask (name : String) (outcome : Thunk (Int × Option Failure)) : Task :=
  { name, work := fun _ => outcome.get }

/-- The tasks for a shape whose first pixel is known. -/
def shapeTasks (name : String) (r : Raster) (first : Point) : List Task :=
  let p := r.picture
  [steadyTask s!"trace/{name}" (.mk fun _ => walkWork p first false),
    steadyTask s!"chain/{name}" (.mk fun _ => walkWork p first true),
    steadyTask s!"blobs/{name}" (.mk fun _ => blobWork p),
    steadyTask s!"blobs-packed/{name}" (.mk fun _ => blobWork (Raster.packBits p).picture)]

/-- The tasks for several shapes. -/
def tasksFor (o : Options) : List String → Dice → Except Misuse (Except Failure (List Task))
  | [], _ => .ok (.ok [])
  | name :: rest, dice =>
    match Shape.lookup name with
    | .error e => .ok (.error e)
    | .ok shape =>
      match shape.draw o.width o.height dice with
      | .error m => .error m
      | .ok (r, dice) =>
        match r.picture.firstInk? with
        | none => .ok (.error (.plain s!"shape {name} has no foreground pixels"))
        | some first =>
          match tasksFor o rest dice with
          | .ok (.ok tasks) => .ok (.ok (shapeTasks name r first ++ tasks))
          | other => other

/-- The suite for some shapes. -/
def shapeSuite (o : Options) : Except Misuse (Except Failure Suite) :=
  if o.width ≤ 0 ∨ o.height ≤ 0 then .ok (.error (.plain s!"invalid size {o.width}x{o.height}"))
  else
    match tasksFor o o.shapes (.ofSeed o.seed) with
    | .error m => .error m
    | .ok (.error e) => .ok (.error e)
    | .ok (.ok tasks) => .ok (.ok { tasks })

end Perimeter.Bench
