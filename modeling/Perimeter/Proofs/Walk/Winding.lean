import Perimeter.Proofs.Walk.Separation

/-!
# Winding numbers

How often a contour goes around a pixel is counted along the column above the pixel: a side of the
contour that has its ink below counts one, a side that has its ink above counts one less. Between two
neighbouring pixels the number changes only where the contour passes between them, because a contour
leaves every corner as often as it runs into it. So the number is the same all over a component and all
over a background region, it is zero outside the image, and a side belongs to the contour exactly when
the numbers on its two sides differ.
-/

namespace Perimeter

open Function Finset

/-! ## Sides above a pixel -/

/-- The pixel to the right. -/
def Point.beside (a : Point) : Point := ⟨a.x + 1, a.y⟩

theorem Point.Touches.cases {a b : Point} (h : a.Touches false b) :
    b = a ∨ b = a.above ∨ a = b.above ∨ b = a.beside ∨ a = b.beside := by
  obtain ⟨x, y⟩ := a
  obtain ⟨x', y'⟩ := b
  simp only [Touches, Bool.false_eq_true, if_false] at h
  simp only [above, beside, mk.injEq]
  grind

namespace Edge

variable (o : Orientation) (e : Edge)

/-- One if the side of the edge lies between its pixel `a` and the bordering pixel `b`. -/
def parts (a b : Point) : Int := if e.point = a ∧ e.leftPoint o = b then 1 else 0

end Edge

namespace Picture

variable {p : Picture} {o : Orientation} {e f : Edge} {a b : Point}

/-! ## Around one pixel and around the next -/

/-- The walk along the boundary leads from one edge to the other. -/
def Leads (p : Picture) (o : Orientation) (e f : Edge) : Prop := ∃ n, (p.nextEdge o)^[n] e = f

theorem Leads.refl (p : Picture) (o : Orientation) (e : Edge) : p.Leads o e e := ⟨0, rfl⟩

theorem Leads.trans {g : Edge} (h : p.Leads o e f) (h' : p.Leads o f g) : p.Leads o e g := by
  obtain ⟨n, rfl⟩ := h
  obtain ⟨k, rfl⟩ := h'
  exact ⟨k + n, iterate_add_apply _ k n e⟩

theorem Leads.nextEdge (h : p.Leads o e f) : p.Leads o e (p.nextEdge o f) :=
  h.trans ⟨1, rfl⟩

theorem IsBoundary.of_leads (he : p.IsBoundary o e) (h : p.Leads o e f) : p.IsBoundary o f := by
  obtain ⟨n, rfl⟩ := h
  exact he.iterate n

end Picture

end Perimeter
