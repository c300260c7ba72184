import Perimeter.Edge

/-!
# Pictures

A `Picture` is what a walk sees of an image: its size and which pixels inside are ink. Everything
outside the image is background. Rasters of every storage layout are viewed as pictures.
-/

namespace Perimeter

/-- A binary image as a size and a set of ink pixels. -/
structure Picture where
  width : Int
  height : Int
  /-- Tells ink from background; asked only for pixels inside the image. -/
  ink : Int → Int → Bool

namespace Picture

/-- The pixel lies inside the image. -/
def Contains (p : Picture) (x y : Int) : Prop :=
  0 ≤ x ∧ 0 ≤ y ∧ x < p.width ∧ y < p.height

instance (p : Picture) (x y : Int) : Decidable (p.Contains x y) :=
  inferInstanceAs (Decidable (_ ∧ _))

/-- The pixel lies inside the image and is ink. -/
def isInk (p : Picture) (x y : Int) : Bool :=
  decide (p.Contains x y) && p.ink x y

/-- The pixel is ink, by point. -/
def inkAt (p : Picture) (q : Point) : Bool := p.isInk q.x q.y

theorem isInk_eq_false_of_not_contains {p : Picture} {x y : Int} (h : ¬p.Contains x y) :
    p.isInk x y = false := by
  simp [isInk, h]

/-- The picture without pixels. -/
def empty : Picture := ⟨0, 0, fun _ _ => false⟩

/-- The pixels inside the image, row by row. -/
def pixels (p : Picture) : List Point :=
  (List.range p.height.toNat).flatMap fun (y : Nat) =>
    (List.range p.width.toNat).map fun (x : Nat) => ⟨x, y⟩

/-- The first ink pixel in raster order. -/
def firstInk? (p : Picture) : Option Point := p.pixels.find? p.inkAt

/-- The length that no closed walk in a picture of this size exceeds. -/
def upperLimit (width height : Int) : Int := wrap64 (width * height + width + height)

end Picture

/-- One step from the pixel along `h` leaves an image of this size, whatever its content. -/
def isAheadBorder (x y : Int) (h : Heading) (width height : Int) : Bool :=
  match h with
  | .up => y == 0
  | .right => x == wrap64 (width - 1)
  | .down => y == wrap64 (height - 1)
  | .left => x == 0

/-- The bordering side of the edge lies on the border of an image of this size. -/
def isLeftBorder (x y : Int) (h : Heading) (o : Orientation) (width height : Int) : Bool :=
  isAheadBorder x y (h.turnLeft o) width height

end Perimeter
