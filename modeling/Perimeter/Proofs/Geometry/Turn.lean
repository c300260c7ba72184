import Mathlib.Algebra.Order.Ring.Abs
import Mathlib.Order.Defs.Unbundled
import Mathlib.Tactic.Linarith
import Mathlib.Tactic.LinearCombination
import Mathlib.Tactic.Ring
import Perimeter.Geometry.Hull

/-!
# Turns

The order of the points in a pass over them, the turn at a point between two others, and how turns
compose. All vectors of a pass go to the right, so their directions are ordered: who turns left twice
has turned left altogether. Words are exact as long as the coordinates are small.
-/

namespace Perimeter

namespace Point

/-- The vector from one point to another. -/
def toward (a b : Point) : Point := ⟨b.x - a.x, b.y - a.y⟩

/-- A vector to the right, or straight up in the order of rows. -/
def Rightward (u : Point) : Prop := 0 < u.x ∨ u.x = 0 ∧ 0 < u.y

/-- The first point comes before the second one, by column and then by row. -/
def Precedes (a b : Point) : Prop := (a.toward b).Rightward

theorem precedes_iff {a b : Point} : a.Precedes b ↔ a.x < b.x ∨ a.x = b.x ∧ a.y < b.y := by
  simp only [Precedes, Rightward, toward]
  omega

theorem Precedes.trans {a b c : Point} (hab : a.Precedes b) (hbc : b.Precedes c) : a.Precedes c := by
  rw [precedes_iff] at *
  omega

theorem Precedes.not_precedes {a b : Point} (h : a.Precedes b) : ¬b.Precedes a := by
  rw [precedes_iff] at *
  omega

theorem Precedes.ne {a b : Point} (h : a.Precedes b) : a ≠ b := by
  rintro rfl
  exact h.not_precedes h

theorem precedes_or_eq_or_precedes (a b : Point) : a.Precedes b ∨ a = b ∨ b.Precedes a := by
  obtain ⟨ax, ay⟩ := a
  obtain ⟨bx, by'⟩ := b
  simp only [precedes_iff, Point.mk.injEq]
  omega

theorem precedes_or_precedes_of_ne {a b : Point} (h : a ≠ b) : a.Precedes b ∨ b.Precedes a := by
  have htotal := precedes_or_eq_or_precedes a b
  tauto

instance : Std.Irrefl Precedes := ⟨fun _ h => h.not_precedes h⟩

instance : Std.Antisymm Precedes := ⟨fun _ _ h h' => absurd h' h.not_precedes⟩

end Point

/-- The area that two vectors span, with its sign. -/
def det (u v : Point) : Int := u.x * v.y - u.y * v.x

theorem det_nonneg_trans {u v w : Point} (hu : u.Rightward) (hv : v.Rightward) (hw : w.Rightward)
    (huv : 0 ≤ det u v) (hvw : 0 ≤ det v w) : 0 ≤ det u w := by
  have hsum : det u w * v.x = det u v * w.x + det v w * u.x := by simp only [det]; ring
  have hux : 0 ≤ u.x := hu.elim le_of_lt fun h => h.1.ge
  have hwx : 0 ≤ w.x := hw.elim le_of_lt fun h => h.1.ge
  obtain hvx | ⟨hvx, hvy⟩ := hv
  · have hprod : 0 ≤ det u w * v.x := by
      rw [hsum]
      exact add_nonneg (mul_nonneg huv hwx) (mul_nonneg hvw hux)
    exact nonneg_of_mul_nonneg_left hprod hvx
  · -- The middle vector is upright, and then so is the last one.
    obtain hwx' | ⟨hwx', hwy⟩ := hw
    · simp only [det, hvx] at hvw
      nlinarith
    · simp only [det, hwx']
      nlinarith

theorem det_pos_trans {u v w : Point} (hu : u.Rightward) (hv : v.Rightward) (hw : w.Rightward)
    (huv : 0 ≤ det u v) (hvw : 0 < det v w) : 0 < det u w := by
  have hsum : det u w * v.x = det u v * w.x + det v w * u.x := by simp only [det]; ring
  have hwx : 0 ≤ w.x := hw.elim le_of_lt fun h => h.1.ge
  obtain hvx | ⟨hvx, hvy⟩ := hv
  · obtain hux | ⟨hux, huy⟩ := hu
    · have hprod : 0 < det u w * v.x := by
        rw [hsum]
        exact add_pos_of_nonneg_of_pos (mul_nonneg huv hwx) (mul_pos hvw hux)
      exact pos_of_mul_pos_left hprod hvx.le
    · simp only [det, hux] at huv
      nlinarith
  · simp only [det, hvx] at hvw
    nlinarith

/-- Twice the signed area of the triangle `o a b`. It is positive for a turn to the left at `a`. -/
def turn (o a b : Point) : Int := det (o.toward a) (o.toward b)

theorem cross_eq_wrap64 (o a b : Point) : cross o a b = wrap64 (turn o a b) := rfl

theorem turn_eq_det (a b c : Point) : turn a b c = det (a.toward b) (b.toward c) := by
  simp only [turn, det, Point.toward]
  ring

theorem turn_rotate (a b c : Point) : turn b c a = turn a b c := by
  simp only [turn, det, Point.toward]
  ring

theorem turn_swap (a b c : Point) : turn b a c = -turn a b c := by
  simp only [turn, det, Point.toward]
  ring

@[simp] theorem turn_self_self (a b : Point) : turn a a b = 0 := by
  simp [turn, det, Point.toward]

@[simp] theorem turn_self_left (a b : Point) : turn a b a = 0 := by
  rw [turn_rotate a a b, turn_self_self]

@[simp] theorem turn_self_right (a b : Point) : turn a b b = 0 := by
  rw [← turn_rotate a b b, turn_self_self]

section

variable {a b c d p : Point}

/-- Where the outline turns left at `b` after `a`, it does so after every point on the left of the line
from `a` to `b`. -/
theorem turn_pos_of_nonneg (hab : a.Precedes b) (hcb : c.Precedes b) (hbp : b.Precedes p)
    (hc : 0 ≤ turn a b c) (hp : 0 < turn a b p) : 0 < turn c b p := by
  rw [turn_eq_det] at hp ⊢
  refine det_pos_trans hcb hab hbp ?_ hp
  convert hc using 1
  simp only [turn, det, Point.toward]
  ring

/-- Two turns to the left make one. -/
theorem turn_pos_trans (hab : a.Precedes b) (hbc : b.Precedes c) (hbd : b.Precedes d)
    (hb : 0 < turn a b c) (hc : 0 < turn b c d) : 0 < turn a b d := by
  rw [turn_eq_det a b] at hb ⊢
  exact det_pos_trans hab hbc hbd hb.le hc

/-- A point on the left of a line is on the left of every line that falls to the right of it. -/
theorem turn_nonneg_of_nonpos (hab : a.Precedes b) (hap : a.Precedes p) (hac : a.Precedes c)
    (hp : turn a b p ≤ 0) (hc : 0 ≤ turn a b c) : 0 ≤ turn a p c := by
  refine det_nonneg_trans hap hab hac ?_ hc
  have hswap : det (a.toward p) (a.toward b) = -turn a b p := by
    simp only [turn, det, Point.toward]
    ring
  omega

/-- Points on the line through two others are on one line with each other. -/
theorem turn_eq_zero_of_line {s t : Point} (hst : s ≠ t) (ha : turn s t a = 0) (hb : turn s t b = 0)
    (hc : turn s t c = 0) : turn a b c = 0 := by
  have hx : (t.x - s.x) * turn a b c =
      turn s t a * (c.x - b.x) + turn s t b * (a.x - c.x) + turn s t c * (b.x - a.x) := by
    simp only [turn, det, Point.toward]
    ring
  have hy : (t.y - s.y) * turn a b c =
      turn s t a * (c.y - b.y) + turn s t b * (a.y - c.y) + turn s t c * (b.y - a.y) := by
    simp only [turn, det, Point.toward]
    ring
  by_contra hne
  simp only [ha, hb, hc, zero_mul, add_zero, mul_eq_zero, hne, or_false, sub_eq_zero] at hx hy
  obtain ⟨sx, sy⟩ := s
  obtain ⟨tx, ty⟩ := t
  exact hst (Point.mk.injEq .. ▸ ⟨hx.symm, hy.symm⟩)

end

/-! ## Points between others -/

/-- The point `m` is inside the segment from `a` to `b`, which it divides in the ratio of two whole
numbers. -/
def Between (a m b : Point) : Prop :=
  a ≠ b ∧ ∃ i j : Int, 0 < i ∧ 0 < j ∧
    j * (m.x - a.x) = i * (b.x - m.x) ∧ j * (m.y - a.y) = i * (b.y - m.y)

namespace Between

variable {a m b : Point}

theorem symm (h : Between a m b) : Between b m a := by
  obtain ⟨hne, i, j, hi, hj, hx, hy⟩ := h
  exact ⟨hne.symm, j, i, hj, hi, by linarith, by linarith⟩

theorem precedes (h : Between a m b) :
    a.Precedes m ∧ m.Precedes b ∨ b.Precedes m ∧ m.Precedes a := by
  obtain ⟨hne, i, j, hi, hj, hx, hy⟩ := h
  -- Along each axis, both parts of the segment go the same way.
  have hsame : ∀ s t : Int, j * s = i * t → 0 < s ∧ 0 < t ∨ s = 0 ∧ t = 0 ∨ s < 0 ∧ t < 0 := by
    intro s t hst
    have hpos : 0 < s ↔ 0 < t := by
      rw [← mul_pos_iff_of_pos_left hj, hst, mul_pos_iff_of_pos_left hi]
    have hzero : s = 0 ↔ t = 0 := by
      rw [← mul_right_inj' hj.ne', hst, mul_zero, mul_eq_zero, or_iff_right hi.ne']
    omega
  simp only [Point.precedes_iff]
  obtain hx | hx | hx := hsame _ _ hx
  · omega
  · obtain hy | hy | hy := hsame _ _ hy
    · omega
    · obtain ⟨ax, ay⟩ := a
      obtain ⟨bx, by'⟩ := b
      simp only [ne_eq, Point.mk.injEq] at hne hx hy
      omega
    · omega
  · omega

/-- The turn from a point between two others is a mean of the turns from those. -/
theorem exists_mean (h : Between a m b) : ∃ i j : Int, 0 < i ∧ 0 < j ∧
    ∀ c d, (i + j) * turn m c d = j * turn a c d + i * turn b c d := by
  obtain ⟨-, i, j, hi, hj, hx, hy⟩ := h
  refine ⟨i, j, hi, hj, fun c d => ?_⟩
  simp only [turn, det, Point.toward]
  linear_combination (c.y - d.y) * hx + (d.x - c.x) * hy

theorem turn_eq_zero (h : Between a m b) : turn a m b = 0 := by
  obtain ⟨i, j, hi, hj, hmean⟩ := h.exists_mean
  have hflat := hmean b a
  rw [turn_self_left, turn_self_self, turn_rotate a m b, mul_zero, mul_zero, add_zero] at hflat
  exact (mul_eq_zero.1 hflat).resolve_left (by omega)

end Between

/-- The middle one of three points on a line is between the others. -/
theorem between_of_turn_eq_zero {a b c : Point} (hab : a.Precedes b) (hbc : b.Precedes c)
    (h : turn a b c = 0) : Between a b c := by
  have hne : a ≠ c := (hab.trans hbc).ne
  rw [turn_eq_det] at h
  simp only [det, Point.toward] at h
  rw [Point.precedes_iff] at hab hbc
  obtain hx | ⟨hx, hy⟩ := hab
  · have hbcx : b.x < c.x := by
      obtain hbcx | ⟨hbcx, hbcy⟩ := hbc
      · exact hbcx
      · rw [sub_eq_zero_of_eq hbcx.symm, mul_zero, sub_zero] at h
        exact absurd h (mul_pos (by omega) (by omega)).ne'
    exact ⟨hne, b.x - a.x, c.x - b.x, by omega, by omega, by ring, by linarith⟩
  · -- The first part of the way is upright, and so is the second.
    have hbcx : b.x = c.x := by
      rw [sub_eq_zero_of_eq hx.symm, zero_mul, zero_sub, neg_eq_zero, mul_eq_zero] at h
      omega
    exact ⟨hne, b.y - a.y, c.y - b.y, by omega, by omega, by rw [hx, hbcx]; ring, by ring⟩

/-! ## Exact words -/

/-- The coordinates are so small that the turns among such points are exact in machine words. -/
def Point.Small (p : Point) : Prop := p.x.natAbs < 1073741824 ∧ p.y.natAbs < 1073741824

instance (p : Point) : Decidable p.Small := inferInstanceAs (Decidable (_ ∧ _))

theorem cross_eq_turn {o a b : Point} (ho : o.Small) (ha : a.Small) (hb : b.Small) :
    cross o a b = turn o a b := by
  obtain ⟨ho1, ho2⟩ := ho
  obtain ⟨ha1, ha2⟩ := ha
  obtain ⟨hb1, hb2⟩ := hb
  -- Differences stay below `2 ^ 31`, and so do two products of them below `2 ^ 63` together.
  have hbound : ∀ s t : Int, |s| ≤ 2147483646 → |t| ≤ 2147483646 →
      |s * t| ≤ 2147483646 * 2147483646 := by
    intro s t hs ht
    rw [abs_mul]
    exact mul_le_mul hs ht (abs_nonneg t) (by norm_num)
  have h1 := abs_le.1 (hbound (a.x - o.x) (b.y - o.y) (abs_le.2 (by omega)) (abs_le.2 (by omega)))
  have h2 := abs_le.1 (hbound (a.y - o.y) (b.x - o.x) (abs_le.2 (by omega)) (abs_le.2 (by omega)))
  rw [cross_eq_wrap64]
  refine wrap64_eq_self ?_
  simp only [FitsWord, turn, det, Point.toward]
  omega

theorem lexLe_iff {a b : Point} (ha : a.Small) (hb : b.Small) :
    lexLe a b = true ↔ a.Precedes b ∨ a = b := by
  obtain ⟨ax, ay⟩ := a
  obtain ⟨bx, by'⟩ := b
  simp only [Point.Small] at ha hb
  have hx : wrap64 (ax - bx) = ax - bx := wrap64_sub_eq (by omega) (by omega)
  have hy : wrap64 (ay - by') = ay - by' := wrap64_sub_eq (by omega) (by omega)
  simp only [lexLe, lexDifference, decide_eq_true_eq, hx, hy, Point.precedes_iff, Point.mk.injEq]
  split <;> omega

end Perimeter
