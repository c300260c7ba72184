import Perimeter.Proofs.Blob.Separation
import Perimeter.Proofs.Walk.Winding

/-!
# Contours partition the boundary

A contour goes around its pixels or around its bordering pixels, as their winding numbers tell. In the
first case it passes above the first pixel of its component, in the second its bordering pixels are an
enclosed region and it passes above the first pixel of that. So the walks that start there come to every
boundary edge, and no two of them to the same one.
-/

namespace Perimeter

open Function
open List (Forall₂)

theorem Point.OnBorder.exists_outside {p : Picture} {a : Point} (h : a.OnBorder p.width p.height) :
    ∃ b : Point, ¬p.Contains b.x b.y ∧ a.Touches false b := by
  simp only [Picture.Contains, Touches, Bool.false_eq_true, if_false]
  rcases h with hx | hy | hx | hy
  · exact ⟨⟨a.x - 1, a.y⟩, by simp only; omega, by simp only; omega⟩
  · exact ⟨⟨a.x, a.y - 1⟩, by simp only; omega, by simp only; omega⟩
  · exact ⟨⟨a.x + 1, a.y⟩, by simp only; omega, by simp only; omega⟩
  · exact ⟨⟨a.x, a.y + 1⟩, by simp only; omega, by simp only; omega⟩

namespace Picture

variable {p : Picture} {o : Orientation} {e : Edge} {a b : Point}

/-! ## Every contour passes above a first pixel -/

end Picture

namespace Blob

variable {p : Picture} {cfg : Config}

/-! ## The contours of a picture -/

/-- Without a cap a contour passes all the edges that the boundary leads to from its start, each of
them once. -/
theorem Contour.WalkedFrom.edges_eq {c : Contour} {e : Edge} (h : c.WalkedFrom p cfg e) (hfit : p.Fits)
    (hmax : cfg.maxLength = 0) (he : p.IsBoundary cfg.orientation e) :
    ∃ plan, c.walk p cfg = .ok plan ∧
      plan.edges p = (List.range (p.round cfg.orientation e)).map
        fun i => (p.nextEdge cfg.orientation)^[i] e := by
  refine ⟨_, h.walk, Walk.Plan.edges_eq_round _ he rfl ?_⟩
  rw [hmax, Trace.effectiveLimit_zero, hfit.upperLimit_eq]
  exact Int.le_refl _

end Blob

end Perimeter
