import Perimeter.Blob.Basic
import Perimeter.Buffer.Pool
import Perimeter.Chain
import Perimeter.Decimal.Layout
import Perimeter.Failure
import Perimeter.Geometry.MinRect
import Perimeter.Geometry.Polyline
import Perimeter.Region
import Perimeter.Trace

/-!
# Finding blobs

`Blob.find` labels the regions of a picture and walks one boundary for each. The outer boundary of a
component is walked from its first pixel, above which there is background. The boundary of a hole is
walked from the pixel above the hole's first pixel, which is ink.
-/

namespace Perimeter.Blob

/-- A traced contour, as the walk and its points. -/
structure Traced where
  result : Walk.Result
  points : List Point
  /-- The first point lies inside a straight run. -/
  startRedundant : Bool
deriving DecidableEq, Repr

/-- Traces one boundary from a seed. With `chain` the points are compressed. -/
def traceSeed (p : Picture) (s : Seed) (opts : Trace.Options) (chain : Bool) :
    Except Fault Traced := do
  let out ← Trace.run p s opts
  let pts := out.points.toList
  if chain then
    let (kept, redundant) := Chain.simplify pts false
    pure ⟨out.result, kept, redundant⟩
  else
    pure ⟨out.result, pts, false⟩

/-- A list, absent when it is empty. -/
def nonempty? {α : Type} (l : List α) : Option (List α) := if l.isEmpty then none else some l

/-- The options of the walks. -/
def Config.traceOptions (cfg : Config) : Trace.Options where
  orientation := cfg.orientation
  suppressBorder := cfg.suppressBorder
  maxLength := cfg.maxLength

/-- Walks the boundary at a pixel and describes it as a contour of a region. -/
def contourAt (p : Picture) (cfg : Config) (x y : Int) (h : Heading) (label : Int)
    (polarity : Polarity) (r : Region) : Except Fault Contour := do
  let t ← traceSeed p ⟨x, y, .toward h⟩ cfg.traceOptions cfg.chain
  let hull := if cfg.hull then convexHull t.points else []
  pure
    { label
      polarity
      start := .ofEdge t.result.start
      points := nonempty? (if 0 < cfg.tolerance then Polyline.simplify t.points cfg.tolerance
        else t.points)
      startRedundant := t.startRedundant
      length := t.result.length
      turns := t.result.turns
      closed := t.result.complete
      pixels := r.count
      bounds := ⟨r.minX, r.minY, r.maxX, r.maxY⟩
      area := polygonArea t.points
      hull
      minRect := minAreaRect hull }

/-- The heading from the first pixel of a component that has the background above it on the bordering
side. -/
def outerHeading : Orientation → Heading
  | .clockwise => .right
  | .counterclockwise => .left

/-- The heading from the pixel above a hole that has the hole on the bordering side. -/
def holeHeading (o : Orientation) : Heading := (outerHeading o).reverse

/-- The component is large enough to be reported. -/
def Config.keeps (cfg : Config) (r : Region) : Bool := decide (cfg.minPixels ≤ r.count)

/-- The outer contours, in the order of the components. -/
def outerContours (p : Picture) (cfg : Config) (l : Labeling) : Except Failure (List Contour) :=
  (l.components.toList.zipIdx.filter fun (r, _) => cfg.keeps r).mapM fun (r, i) =>
    Failure.within s!"component {i + 1}" <| liftFault <|
      contourAt p cfg r.first.x r.first.y (outerHeading cfg.orientation) (i + 1 : Nat) .outer r

/-- The component that a background region is a hole of: the one above its first pixel. Regions at
the border of the image are no holes. -/
def owner? (cfg : Config) (l : Labeling) (r : Region) : Option Int :=
  if r.touchesBorder || r.first.y == 0 then none
  else
    let label := l.labelAt r.first.x (r.first.y - 1)
    match if 0 < label then l.components[label.toNat - 1]? else none with
    | some c => if cfg.keeps c then some label else none
    | none => none

/-- The hole contours, by component and then in the order of the regions. -/
def holeContours (p : Picture) (cfg : Config) (l : Labeling) : Except Failure (List Contour) := do
  let owned := l.backgrounds.toList.zipIdx.filterMap fun (r, i) =>
    (owner? cfg l r).map fun label => (r, i, label)
  let found ← owned.mapM fun (r, i, label) =>
    Failure.within s!"hole {i + 1}" <| liftFault <|
      contourAt p cfg r.first.x (r.first.y - 1) (holeHeading cfg.orientation) label .hole r
  pure (found.mergeSort fun a b => decide (a.label ≤ b.label))

/-- Refuses a picture without pixels, a negative cap and a negative tolerance. -/
def check (p : Picture) (cfg : Config) : Except Fault Unit :=
  if p.width ≤ 0 ∨ p.height ≤ 0 then .error (.emptyImage .extraction p.width p.height)
  else if cfg.maxLength < 0 then .error (.negativeMaxLength .extraction cfg.maxLength)
  else if cfg.tolerance < 0 then .error (.negativeTolerance (Decimal.general.text cfg.tolerance))
  else .ok ()

/-- Traces every blob of a picture from its labels. -/
def findLabelled (p : Picture) (cfg : Config) (l : Labeling) : Except Failure Result := do
  let outer ← outerContours p cfg l
  let holes ← if cfg.holes then holeContours p cfg l else pure []
  pure
    { width := p.width
      height := p.height
      components := outer.length
      contours := nonempty? (outer ++ holes)
      duration := 0 }

/-- Traces every blob of a picture, with room for all labels and labels of any size. `findInWords` gives the
same as long as the pixels can be counted in a word and there are fewer than `2 ^ 31` regions. -/
def find (p : Picture) (cfg : Config) : Except Failure Result := do
  liftFault (check p cfg)
  findLabelled p cfg (.of p cfg.holes)

/-- Traces every blob of a picture, with labels in a buffer from a pool, which gets it back with the
labels in it. Labels are kept as `keep` tells. A picture of more pixels than a word counts has labels
outside the buffer. -/
def findKeeping (keep : Int → Int) (pool : Pool Int) (choice : Option Nat) (p : Picture)
    (cfg : Config) : Except Misuse (Except Failure Result × Pool Int) :=
  match check p cfg with
  | .error f => .ok (.error (.fault f), pool)
  | .ok () => do
    let (buffer, pool) ← pool.request 0 (wrap64 (p.width * p.height)) choice
    if (buffer.length : Int) < p.width * p.height then .error (.outsideBuffer buffer.length)
    else
      let l := Labeling.into keep p cfg.holes buffer.content
      .ok (findLabelled p cfg l, pool.give (some (buffer.write l.labels)))

/-- Traces every blob of a picture with a buffer from a pool and with labels of any size. -/
def findPooled (pool : Pool Int) (choice : Option Nat) (p : Picture) (cfg : Config) :
    Except Misuse (Except Failure Result × Pool Int) :=
  findKeeping id pool choice p cfg

/-- Traces every blob of a picture with a buffer from a pool and with labels in words of 32 bits. The label
of region number `2 ^ 32` is zero there, and marking with it, which need not end, ends here after as many
pixels as the picture has. -/
def findInWords (pool : Pool Int) (choice : Option Nat) (p : Picture) (cfg : Config) :
    Except Misuse (Except Failure Result × Pool Int) :=
  findKeeping wrap32 pool choice p cfg

end Perimeter.Blob
