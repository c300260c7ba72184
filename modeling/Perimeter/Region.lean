import Perimeter.Picture

/-!
# Regions

The ink of a picture falls into components, whose pixels touch by side or corner, and its background
into regions, whose pixels touch by side only. `Labeling.of` numbers both in the order of their first
pixels: components from 1 up and background regions from -1 down. The marking has a parameter `keep`
for how a label is kept where it is written; `Labeling.of` keeps it as it is.
-/

namespace Perimeter

/-- What is recorded of a component or a background region. -/
structure Region where
  /-- The number of pixels. -/
  count : Nat
  minX : Int
  minY : Int
  maxX : Int
  maxY : Int
  /-- The first pixel in raster order. -/
  first : Point
  /-- Some pixel lies in an outermost row or column of the image. -/
  touchesBorder : Bool
deriving DecidableEq, Repr

namespace Region

/-- A region of which only the first pixel is known, and not counted yet. -/
def startingAt (q : Point) : Region := ⟨0, q.x, q.y, q.x, q.y, q, false⟩

/-- Counts one more pixel of an image of the given size. -/
def add (r : Region) (width height : Int) (q : Point) : Region where
  count := r.count + 1
  minX := min r.minX q.x
  minY := min r.minY q.y
  maxX := max r.maxX q.x
  maxY := max r.maxY q.y
  first := r.first
  touchesBorder :=
    r.touchesBorder || q.x == 0 || q.y == 0 || q.x == width - 1 || q.y == height - 1

end Region

/-- The offsets of the four pixels that share a side with a pixel. -/
def sideOffsets : List (Int × Int) := [(1, 0), (-1, 0), (0, 1), (0, -1)]

/-- The offsets of the eight pixels that share a side or a corner with a pixel. -/
def allOffsets : List (Int × Int) := sideOffsets ++ [(1, 1), (-1, 1), (1, -1), (-1, -1)]

/-- The labels of all pixels, row by row, and the regions in the order of their numbers. -/
structure Labeling where
  width : Nat
  height : Nat
  /-- The label of each pixel, row by row, and `0` where there is none. -/
  labels : Array Int
  components : Array Region
  backgrounds : Array Region
deriving DecidableEq, Repr

namespace Labeling

/-- The label of a pixel. -/
def labelAt (l : Labeling) (x y : Int) : Int := l.labels.getD (y * l.width + x).toNat 0

/-- Marks the unmarked neighbours of a pixel that are of the same colour, and puts them on the list
of pixels still to visit. -/
def spread (p : Picture) (w : Nat) (ink : Bool) (label : Int) (q : Point) :
    List (Int × Int) → Array Int → List Nat → Array Int × List Nat
  | [], labels, work => (labels, work)
  | (dx, dy) :: rest, labels, work =>
    let x := q.x + dx
    let y := q.y + dy
    let k := (y * w + x).toNat
    if p.Contains x y ∧ labels.getD k 0 = 0 ∧ p.isInk x y = ink then
      spread p w ink label q rest (labels.setIfInBounds k label) (k :: work)
    else spread p w ink label q rest labels work

/-- Visits the pixels of a list, and all those that they lead to, at most `n`. -/
def flood (p : Picture) (w : Nat) (ink : Bool) (offsets : List (Int × Int)) (label : Int) :
    Nat → List Nat → Array Int → Region → Array Int × Region
  | 0, _, labels, r => (labels, r)
  | _ + 1, [], labels, r => (labels, r)
  | n + 1, k :: work, labels, r =>
    let q : Point := ⟨(k % w : Nat), (k / w : Nat)⟩
    let (labels, work) := spread p w ink label q offsets labels work
    flood p w ink offsets label n work labels (r.add p.width p.height q)

/-- Marks the region of the unmarked pixel number `k`. -/
def fillFrom (p : Picture) (w h : Nat) (ink : Bool) (offsets : List (Int × Int)) (label : Int)
    (k : Nat) (labels : Array Int) : Array Int × Region :=
  flood p w ink offsets label (w * h) [k] (labels.setIfInBounds k label)
    (.startingAt ⟨(k % w : Nat), (k / w : Nat)⟩)

/-- Marks the region of pixel number `k`, if it has none yet. -/
def visit (keep : Int → Int) (p : Picture) (withBackground : Bool) (l : Labeling) (k : Nat) :
    Labeling :=
  if l.labels.getD k 0 ≠ 0 then l
  else if p.isInk (k % l.width : Nat) (k / l.width : Nat) then
    let ⟨w, h, labels, components, backgrounds⟩ := l
    let (labels, r) := fillFrom p w h true allOffsets (keep (components.size + 1)) k labels
    ⟨w, h, labels, components.push r, backgrounds⟩
  else if withBackground then
    let ⟨w, h, labels, components, backgrounds⟩ := l
    let (labels, r) := fillFrom p w h false sideOffsets (keep (-backgrounds.size - 1)) k labels
    ⟨w, h, labels, components, backgrounds.push r⟩
  else l

/-- Visits `n` pixels from number `k` on. -/
def visitFrom (keep : Int → Int) (p : Picture) (withBackground : Bool) :
    Nat → Nat → Labeling → Labeling
  | 0, _, l => l
  | n + 1, k, l => visitFrom keep p withBackground n (k + 1) (l.visit keep p withBackground k)

/-- The labels of a picture, written into a buffer of zeros of the picture's size. -/
def into (keep : Int → Int) (p : Picture) (withBackground : Bool) (buffer : Array Int) : Labeling :=
  let w := p.width.toNat
  let h := p.height.toNat
  visitFrom keep p withBackground (w * h) 0 ⟨w, h, buffer, #[], #[]⟩

/-- The labels of a picture, with a cell for each pixel, however many there are. Background regions are
labelled only when asked for. -/
def of (p : Picture) (withBackground : Bool) : Labeling :=
  into id p withBackground (Array.replicate (p.width.toNat * p.height.toNat) 0)

end Labeling

end Perimeter
