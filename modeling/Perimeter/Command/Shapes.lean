import Perimeter.Command.Job
import Perimeter.Image.File

/-!
# Commands on shapes

Images of shapes for tests, and benchmarks on shapes.
-/

namespace Perimeter.Command

/-- A number with at least three digits. -/
def threeDigits (n : Nat) : String :=
  let ds := toString n
  String.ofList (List.replicate (3 - ds.length) '0') ++ ds

/-- The name of the file for a shape, numbered when there are several. -/
def shapeFile (name : String) (count : Int) (i : Nat) : String :=
  if 1 < count then s!"{name}_{threeDigits i}.png" else s!"{name}.png"

/-- An outcome whose failure is a misuse, which shapes of positive size never meet. -/
def orMisuse {α : Type} : Except Misuse α → Action α
  | .ok a => pure a
  | .error _ => throw (.plain "impossible size")

/-- Writes images of one shape from number `i` on. -/
def Job.writeShape (j : Job) (shape : Shape.Named) : Nat → Nat → Dice → Action Dice
  | 0, _, dice => pure dice
  | n + 1, i, dice => do
    let path := Path.join [j.argument, shapeFile shape.name (j.int "count") i]
    let (raster, dice) ← orMisuse (shape.draw (j.int "width") (j.int "height") dice)
    Action.setTree (← Action.ofExcept (Image.save (← Action.tree) (.ofPicture raster.picture) path))
    let ink ← orMisuse raster.count
    Action.record ⟨.debug, "generated image", [("file", .text path), ("foreground", .int ink)]⟩
    Action.print (path ++ "\n")
    j.writeShape shape n (i + 1) dice

/-- Writes images of several shapes. -/
def Job.writeShapes (j : Job) : List String → Dice → Action Unit
  | [], _ => pure ()
  | name :: rest, dice => do
    let shape ← Action.ofExcept (Shape.lookup name)
    let dice ← j.writeShape shape (j.int "count").toNat 0 dice
    j.writeShapes rest dice

/-- Writes images of shapes. -/
def Job.runGenerate (j : Job) : Action Unit := do
  let width := j.int "width"
  let height := j.int "height"
  let count := j.int "count"
  if width ≤ 0 ∨ height ≤ 0 then
    throw (.plain s!"invalid size {width}x{height}")
  if count ≤ 0 then
    throw (.plain s!"invalid count: {count} (must be positive)")
  let shapes := j.words "shapes"
  j.writeShapes shapes (.ofSeed (j.int "seed"))
  Action.record ⟨.info, "generated test images",
    [("dir", .text j.argument), ("count", .int (shapes.length * count))]⟩

/-- A text holds another one. -/
def holds (text part : String) : Bool := part.isEmpty || 1 < (text.splitOn part).length

/-- Runs benchmarks by their names and tells how many failed. -/
def runNamed (iterations : Int) : Bench.Suite → List String → Action Nat
  | _, [] => pure 0
  | suite, name :: rest => do
    let (r, suite) := suite.run name iterations
    Action.print (r.text ++ "\n")
    let failed ← runNamed iterations suite rest
    pure (if r.failure.isSome then failed + 1 else failed)

/-- Runs benchmarks. -/
def Job.runBench (j : Job) : Action Unit := do
  let iterations := j.int "iterations"
  if iterations ≤ 0 then
    throw (.plain s!"invalid iterations: {iterations} (must be positive)")
  let opts : Bench.Options :=
    { shapes := j.words "shapes", width := j.int "width", height := j.int "height",
      seed := j.int "seed" }
  let suite ← Action.ofExcept (← orMisuse (Bench.shapeSuite opts))
  let filter := j.text "filter"
  let names := suite.names.filter (holds · filter)
  if names.isEmpty then
    throw (.plain
      s!"no benchmark matches {Text.quoted filter} (shapes: {Shape.bracketed Shape.names})")
  if j.switch "list" then
    Action.print (String.join (names.map (· ++ "\n")))
  else
    Action.record ⟨.info, "running benchmarks",
      [("count", .int names.length), ("iterations", .int iterations), ("width", .int opts.width),
        ("height", .int opts.height)]⟩
    let failed ← runNamed iterations suite names
    if failed != 0 then
      throw (.plain s!"{failed} benchmarks failed")

end Perimeter.Command
