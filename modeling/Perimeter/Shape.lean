import Perimeter.Dice
import Perimeter.Failure
import Perimeter.Raster.Basic

/-!
# Shapes

Synthetic images for tests and measurements: a ring with an island, a serpentine, a checkerboard, a
disk and random blobs.
-/

namespace Perimeter.Shape

/-- A square ring with a single ink pixel in the middle of its hole, if the hole leaves room for a
background gap around it. -/
def ring (size thickness : Int) : Raster :=
  let island := 3 ≤ wrap64 (size - wrap64 (2 * thickness))
  Raster.ofInk size size fun x y =>
    decide (min (min x y) (min (size - 1 - x) (size - 1 - y)) < thickness)
      || (decide island && x == size / 2 && y == size / 2)

/-- A serpentine of rows one pixel wide that are joined at alternating ends. -/
def snake (width height : Int) : Raster :=
  Raster.ofInk width height fun x y =>
    if y % 2 == 0 then true
    else if (y / 2) % 2 == 0 then x == width - 1
    else x == 0

/-- Every pixel whose column and row add up to an even number. -/
def checkerboard (width height : Int) : Raster :=
  Raster.ofInk width height fun x y => (x + y) % 2 == 0

/-- A filled circle around the middle of the image. -/
def disk (width height radius : Int) : Raster :=
  Raster.ofInk width height fun x y =>
    let dx := x - width / 2
    let dy := y - height / 2
    decide (dx * dx + dy * dy ≤ wrap64 (radius * radius))

/-- How random blobs come about. -/
structure Noise where
  /-- The chance of a pixel to start as background. -/
  background : Float
  /-- The share of pixels that a majority vote of their surroundings decides again. -/
  join : Float

/-- Irregular blobs with holes and thin bridges. -/
def Noise.standard : Noise := ⟨0.65, 0.1⟩

/-- Draws `n` pixels, each ink or background. -/
def scatter (noise : Noise) : Nat → Dice → Array UInt8 → Array UInt8 × Dice
  | 0, d, acc => (acc, d)
  | n + 1, d, acc =>
    let (x, d) := d.fraction
    scatter noise n d (acc.push (if noise.background ≤ x then 1 else 0))

/-- The pixels around and at a pixel that lie inside the image: how many are ink, and how many there
are. -/
def surroundings (p : Picture) (x y : Int) : Nat × Nat :=
  let offsets : List Int := [-1, 0, 1]
  let around := (offsets.flatMap fun dy => offsets.map fun dx => (⟨x + dx, y + dy⟩ : Point)).filter
    fun q => decide (p.Contains q.x q.y)
  ((around.filter p.inkAt).length, around.length)

/-- Decides `n` randomly drawn pixels by a majority vote of their surroundings. -/
def vote (width height : Int) : Nat → Dice → Raster → Except Misuse (Raster × Dice)
  | 0, d, r => .ok (r, d)
  | n + 1, d, r => do
    let (x, d) ← d.below width
    let (y, d) ← d.below height
    let (ink, all) := surroundings r.picture x y
    let r ← r.set x y (all < 2 * ink)
    vote width height n d r

/-- The integral part of a float, if it is a count that fits a word. -/
def wholeCount (x : Float) : Nat :=
  if 0 < x && x < 9223372036854775808.0 then x.toUInt64.toNat else 0

/-- Random blobs. -/
def random (width height : Int) (noise : Noise) (d : Dice) : Except Misuse (Raster × Dice) :=
  let (buffer, d) := scatter noise (width.toNat * height.toNat) d #[]
  let r : Raster := ⟨.bytes, buffer, width.toNat, width.toNat, height.toNat⟩
  vote width height (wholeCount (Float.ofInt (wrap64 (width * height)) * noise.join)) d r

/-- The shapes that can be asked for by name. -/
inductive Named where
  | checkerboard
  | disk
  | random
  | ring
  | snake
deriving DecidableEq, Repr

namespace Named

/-- The name of a shape. -/
def name : Named → String
  | checkerboard => "checkerboard"
  | disk => "disk"
  | random => "random"
  | ring => "ring"
  | snake => "snake"

/-- All shapes, in the order of their names. -/
def all : List Named := [checkerboard, disk, random, ring, snake]

/-- Draws a shape of roughly the requested size. -/
def draw (s : Named) (width height : Int) (d : Dice) : Except Misuse (Raster × Dice) :=
  let side := min width height
  match s with
  | checkerboard => .ok (Shape.checkerboard width height, d)
  | disk => .ok (Shape.disk width height (side.tdiv 3), d)
  | random => Shape.random width height .standard d
  | ring => .ok (Shape.ring side (max 1 (side.tdiv 8)), d)
  | snake => .ok (Shape.snake width height, d)

end Named

/-- The names of all shapes. -/
def names : List String := Named.all.map Named.name

/-- A list of words as messages show it. -/
def bracketed (l : List String) : String := "[" ++ " ".intercalate l ++ "]"

/-- The shape of a name. -/
def lookup (name : String) : Except Failure Named :=
  match Named.all.find? (·.name == name) with
  | some s => .ok s
  | none =>
    .error (.plain s!"unknown shape {Text.quoted name} (available: {bracketed names})")

end Perimeter.Shape
