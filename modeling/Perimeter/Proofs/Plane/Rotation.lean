import Mathlib.Algebra.BigOperators.Group.Finset.Basic
import Mathlib.Algebra.Group.Prod
import Mathlib.Tactic.Abel

/-!
# The rotation of a closed path

A closed path that does not meet itself turns exactly once around. Paths here go by strides of the
lattice of half pixels, from the midpoint of a pixel side to the midpoint of the next. Directions are
compared by counting how often they pass the positive first axis, which is exact and needs no angles.

The proof follows the chord between two points of the path instead of its tangent. Moving one end of a
chord and then the other is the same as moving them in the opposite order, unless two strides of the
path meet. So the turns of the tangent, which is the chord of two neighbours, are those of the chords
from the lowest point to all others and back, and these stay on one side.
-/

namespace Perimeter.Rotation

open Finset

/-! ## Crossings of the first axis -/

/-- Tells directions on the upper side, with the axis itself, from those below. -/
def side (v : Int × Int) : Int := if 0 ≤ v.2 then 1 else 0

/-- The change of side on the way from one direction to a neighbouring one, if it happens where the
first coordinate is positive. -/
def crossing (v w : Int × Int) : Int := if 0 < v.1 + w.1 then side w - side v else 0

/-- The ways from the midpoint of a pixel side to that of a neighbouring one, in half pixels. -/
def strides : List (Int × Int) :=
  [(2, 0), (1, 1), (0, 2), (-1, 1), (-2, 0), (-1, -1), (0, -2), (1, -1)]

/-- A stride along one of the axes. -/
def IsStraight (a : Int × Int) : Prop := a.1 = 0 ∨ a.2 = 0

instance (a : Int × Int) : Decidable (IsStraight a) := inferInstanceAs (Decidable (_ ∨ _))

theorem crossing_eq_zero_of_side_eq {v w : Int × Int} (h : side v = side w) :
    crossing v w = 0 := by
  simp [crossing, h]

theorem bounds_of_mem_strides {a : Int × Int} (h : a ∈ strides) :
    -2 ≤ a.1 ∧ a.1 ≤ 2 ∧ -2 ≤ a.2 ∧ a.2 ≤ 2 := by
  revert a
  decide

/-- The chord `v` with one end moved by the stride `a` and the other by the stride `b` keeps clear of
the origin, and its two ends do not meet on the way. -/
structure Clear (v a b : Int × Int) : Prop where
  even : (v.1 + v.2) % 2 = 0
  start : v ≠ 0
  front : v + a ≠ 0
  back : v - b ≠ 0
  both : v + a - b ≠ 0
  uncrossed : ¬(IsStraight a ∧ IsStraight b ∧ v + a + v = b)

instance (v a b : Int × Int) : Decidable (Clear v a b) :=
  decidable_of_iff ((v.1 + v.2) % 2 = 0 ∧ v ≠ 0 ∧ v + a ≠ 0 ∧ v - b ≠ 0 ∧ v + a - b ≠ 0 ∧
      ¬(IsStraight a ∧ IsStraight b ∧ v + a + v = b))
    ⟨fun ⟨h₁, h₂, h₃, h₄, h₅, h₆⟩ => ⟨h₁, h₂, h₃, h₄, h₅, h₆⟩,
      fun ⟨h₁, h₂, h₃, h₄, h₅, h₆⟩ => ⟨h₁, h₂, h₃, h₄, h₅, h₆⟩⟩

/-- The order in which the ends of a chord move does not matter. -/
def Commutes (v a b : Int × Int) : Prop :=
  crossing v (v + a) + crossing (v + a) (v + a - b) =
    crossing v (v - b) + crossing (v - b) (v + a - b)

instance (v a b : Int × Int) : Decidable (Commutes v a b) := inferInstanceAs (Decidable (_ = _))

/-- Near the origin there are only finitely many chords. -/
theorem commutes_near :
    ∀ x ∈ List.range 7, ∀ y ∈ List.range 8, ∀ a ∈ strides, ∀ b ∈ strides,
      Clear ((x : Int) - 3, (y : Int) - 4) a b →
        Commutes ((x : Int) - 3, (y : Int) - 4) a b := by
  decide +kernel

theorem commutes {v a b : Int × Int} (ha : a ∈ strides) (hb : b ∈ strides) (h : Clear v a b) :
    Commutes v a b := by
  obtain ⟨hax, hax', hay, hay'⟩ := bounds_of_mem_strides ha
  obtain ⟨hbx, hbx', hby, hby'⟩ := bounds_of_mem_strides hb
  -- Far from the origin the four directions lie on one side of the axis, or they all pass it where it
  -- counts, or all where it does not.
  by_cases hfar : v.1 ≤ -4 ∨ 4 ≤ v.1 ∨ v.2 ≤ -5 ∨ 4 ≤ v.2
  · rcases hfar with hx | hx | hy | hy
    · simp only [Commutes, crossing, Prod.fst_add, Prod.fst_sub]
      rw [if_neg (by omega), if_neg (by omega), if_neg (by omega), if_neg (by omega)]
    · simp only [Commutes, crossing, Prod.fst_add, Prod.fst_sub]
      rw [if_pos (by omega), if_pos (by omega), if_pos (by omega), if_pos (by omega)]
      omega
    · have hbelow : ∀ w : Int × Int, w.2 < 0 → side w = 0 := fun w hw => if_neg (by omega)
      simp only [Commutes, crossing]
      rw [hbelow v (by omega), hbelow (v + a) (by simp only [Prod.snd_add]; omega),
        hbelow (v - b) (by simp only [Prod.snd_sub]; omega),
        hbelow (v + a - b) (by simp only [Prod.snd_add, Prod.snd_sub]; omega)]
      simp
    · have habove : ∀ w : Int × Int, 0 ≤ w.2 → side w = 1 := fun w hw => if_pos hw
      simp only [Commutes, crossing]
      rw [habove v (by omega), habove (v + a) (by simp only [Prod.snd_add]; omega),
        habove (v - b) (by simp only [Prod.snd_sub]; omega),
        habove (v + a - b) (by simp only [Prod.snd_add, Prod.snd_sub]; omega)]
      simp
  · have hv : v = (((v.1 + 3).toNat : Int) - 3, ((v.2 + 4).toNat : Int) - 4) := by
      ext <;> simp only <;> omega
    rw [hv] at h ⊢
    exact commutes_near _ (List.mem_range.2 (by omega)) _ (List.mem_range.2 (by omega)) a ha b hb h

/-! ## Loops -/

/-- A closed path of `n` strides that neither passes a point twice nor crosses itself inside two
strides. It goes on as it began when it is closed. -/
structure IsLoop (P : Nat → Int × Int) (n : Nat) : Prop where
  three_le : 3 ≤ n
  closed : P n = P 0
  again : P (n + 1) = P 1
  stride : ∀ i, P (i + 1) - P i ∈ strides
  simple : ∀ i j, i < j → j < n → P i ≠ P j
  uncrossed : ∀ i j, i < j → j < n → IsStraight (P (i + 1) - P i) →
    IsStraight (P (j + 1) - P j) → P i + P (i + 1) ≠ P j + P (j + 1)

/-- The first point of the path is its lowest one: no other lies below it, or level with it and
before it. -/
def IsLowest (P : Nat → Int × Int) (n : Nat) : Prop :=
  ∀ i, 0 < i → i < n → (P 0).2 < (P i).2 ∨ ((P 0).2 = (P i).2 ∧ (P 0).1 < (P i).1)

/-- The chord from one point of the path to another. -/
def chord (P : Nat → Int × Int) (i j : Nat) : Int × Int := P j - P i

/-- The crossing when the front end of a chord moves on. -/
def front (P : Nat → Int × Int) (i j : Nat) : Int := crossing (chord P i j) (chord P i (j + 1))

/-- The crossing when the back end of a chord moves on. -/
def back (P : Nat → Int × Int) (i j : Nat) : Int := crossing (chord P i j) (chord P (i + 1) j)

/-- The crossings of the tangent along the first `k` strides. -/
def tangentCrossings (P : Nat → Int × Int) (k : Nat) : Int :=
  ∑ i ∈ range k, (front P i (i + 1) + back P i (i + 2))

section

variable {P : Nat → Int × Int} {n : Nat}

theorem even_of_mem_strides {a : Int × Int} (h : a ∈ strides) : (a.1 + a.2) % 2 = 0 := by
  revert a
  decide

theorem IsLoop.even_chord (h : IsLoop P n) (i k : Nat) :
    ((chord P i (i + k)).1 + (chord P i (i + k)).2) % 2 = 0 := by
  induction k with
  | zero => simp [chord]
  | succ k ih =>
    have hstride := even_of_mem_strides (h.stride (i + k))
    simp only [chord, Prod.fst_sub, Prod.snd_sub, ← Nat.add_assoc] at ih hstride ⊢
    omega

/-- Only a chord from the first point to the last one is nothing. -/
theorem IsLoop.ne_of_lt (h : IsLoop P n) {i j : Nat} (hij : i < j) (hj : j ≤ n)
    (hends : i ≠ 0 ∨ j ≠ n) : P i ≠ P j := by
  rcases Nat.lt_or_ge j n with hlt | hge
  · exact h.simple i j hij hlt
  · obtain rfl : j = n := by omega
    rw [h.closed]
    exact (h.simple 0 i (by omega) (by omega)).symm

/-- The ends of a chord may move in any order. -/
theorem IsLoop.front_add_back (h : IsLoop P n) {i j : Nat} (hij : i + 1 < j) (hj : j < n)
    (hends : i ≠ 0 ∨ j + 1 ≠ n) :
    front P i j + back P i (j + 1) = back P i j + front P (i + 1) j := by
  have hclear : Clear (chord P i j) (P (j + 1) - P j) (P (i + 1) - P i) := by
    -- The four chords are not nothing, because the path does not pass a point twice.
    refine ⟨?_, ?_, ?_, ?_, ?_, ?_⟩
    · have heven := h.even_chord i (j - i)
      rwa [Nat.add_sub_cancel' (by omega)] at heven
    · exact sub_ne_zero.2 (h.ne_of_lt (by omega) (by omega) (by omega)).symm
    · rw [show chord P i j + (P (j + 1) - P j) = P (j + 1) - P i by simp only [chord]; abel]
      exact sub_ne_zero.2 (h.ne_of_lt (by omega) (by omega) hends).symm
    · rw [show chord P i j - (P (i + 1) - P i) = P j - P (i + 1) by simp only [chord]; abel]
      exact sub_ne_zero.2 (h.ne_of_lt (by omega) (by omega) (by omega)).symm
    · rw [show chord P i j + (P (j + 1) - P j) - (P (i + 1) - P i) = P (j + 1) - P (i + 1) by
        simp only [chord]; abel]
      exact sub_ne_zero.2 (h.ne_of_lt (by omega) (by omega) (by omega)).symm
    · rintro ⟨hj', hi', heq⟩
      -- If the two strides met half way, the path would cross itself there.
      refine h.uncrossed i j (by omega) hj hi' hj' ?_
      have hsum : P i + P (i + 1) = (P (i + 1) - P i) + P i + P i := by abel
      rw [hsum, ← heq, chord]
      abel
  have hcomm := commutes (h.stride j) (h.stride i) hclear
  rw [Commutes, show chord P i j + (P (j + 1) - P j) = chord P i (j + 1) by
      simp only [chord]; abel,
    show chord P i j - (P (i + 1) - P i) = chord P (i + 1) j by simp only [chord]; abel,
    show chord P i (j + 1) - (P (i + 1) - P i) = chord P (i + 1) (j + 1) by
      simp only [chord]; abel] at hcomm
  exact hcomm

/-- Moving the back ends of the chords to one point on instead of to the one before it. -/
theorem IsLoop.sum_back_succ (h : IsLoop P n) {i j k : Nat} (hk : i + k < j) (hj : j < n)
    (hends : i ≠ 0 ∨ j + 1 ≠ n) :
    ∑ l ∈ range k, back P (i + l) (j + 1) =
      (∑ l ∈ range k, back P (i + l) j) + front P (i + k) j - front P i j := by
  induction k with
  | zero => simp
  | succ k ih =>
    -- One more chord moves its front end before its back end.
    have hswap := h.front_add_back (i := i + k) (j := j) (by omega) hj (by omega)
    rw [sum_range_succ, sum_range_succ, ih (by omega), ← Nat.add_assoc]
    omega

/-- The tangent from the first point to point `k` turns as the chords that first move their front end
to point `k + 1` and then their back end to point `k`. -/
theorem IsLoop.tangentCrossings_eq (h : IsLoop P n) {k : Nat} (hk : k + 1 < n) :
    tangentCrossings P k =
      ∑ j ∈ range k, front P 0 (j + 1) + ∑ i ∈ range k, back P i (k + 1) := by
  induction k with
  | zero => simp [tangentCrossings]
  | succ k ih =>
    have hsum := h.sum_back_succ (i := 0) (j := k + 1) (k := k) (by omega) (by omega) (by omega)
    simp only [Nat.zero_add] at hsum
    rw [tangentCrossings, sum_range_succ, ← tangentCrossings, ih (by omega), sum_range_succ _ k,
      sum_range_succ _ k, hsum]
    have hnext : back P k (k + 2) = back P k (k + 1 + 1) := rfl
    omega

/-- One round of the tangent, as chords that go around the one chord that is nothing. -/
theorem IsLoop.tangentCrossings_round (h : IsLoop P n) {k : Nat} (hk : n = k + 3) :
    tangentCrossings P n =
      ∑ j ∈ range (k + 1), front P 0 (j + 1) + back P 0 (k + 2) + front P 1 (k + 2) +
        ∑ i ∈ range (k + 1), back P (1 + i) (k + 3) +
        (front P (k + 2) (k + 3) + back P (k + 2) (k + 4)) := by
  subst hk
  have hfirst := h.tangentCrossings_eq (k := k + 1) (by omega)
  -- The front end of the chord from the first point to the last but one cannot move on, which would make
  -- it nothing, so its back end moves first.
  have hlast := h.sum_back_succ (i := 1) (j := k + 2) (k := k) (by omega) (by omega) (by omega)
  have hshift : ∑ i ∈ range (k + 1), back P i (k + 2) =
      ∑ i ∈ range k, back P (1 + i) (k + 2) + back P 0 (k + 2) := by
    rw [sum_range_succ']
    simp only [Nat.add_comm 1]
  have hround : tangentCrossings P (k + 3) =
      tangentCrossings P (k + 1) + (front P (k + 1) (k + 2) + back P (k + 1) (k + 3)) +
        (front P (k + 2) (k + 3) + back P (k + 2) (k + 4)) := by
    simp only [tangentCrossings, sum_range_succ]
  rw [hround, hfirst, hshift, sum_range_succ (fun i => back P (1 + i) (k + 3)), hlast,
    Nat.add_comm 1 k]
  omega

/-! ## From the lowest point -/

/-- The direction points up, or level and forward. -/
def Rises (v : Int × Int) : Prop := 0 < v.2 ∨ (v.2 = 0 ∧ 0 < v.1)

instance (v : Int × Int) : Decidable (Rises v) := inferInstanceAs (Decidable (_ ∨ _))

theorem IsLowest.rises (h : IsLowest P n) {i : Nat} (hpos : 0 < i) (hi : i < n) :
    Rises (chord P 0 i) := by
  have hlow := h i hpos hi
  simp only [Rises, chord, Prod.fst_sub, Prod.snd_sub]
  omega

theorem crossing_of_rises {v w : Int × Int} (hv : Rises v) (hw : Rises w) : crossing v w = 0 := by
  refine crossing_eq_zero_of_side_eq ?_
  simp only [Rises] at hv hw
  rw [side, side, if_pos (by omega), if_pos (by omega)]

/-- A direction that falls can change sides only level and backward, which does not count. -/
theorem crossing_neg_of_rises {v a : Int × Int} (ha : a ∈ strides) (hv : Rises v)
    (hw : Rises (v + a)) : crossing (-v) (-(v + a)) = 0 := by
  have hlevel : ∀ b ∈ strides, b.2 ≠ 0 → -1 ≤ b.1 ∧ b.1 ≤ 1 := by decide
  have ha' := hlevel a ha
  simp only [Rises, Prod.fst_add, Prod.snd_add] at hv hw
  simp only [crossing, side, Prod.fst_neg, Prod.snd_neg, Prod.fst_add, Prod.snd_add]
  split_ifs <;> omega

/-- The two strides at the lowest point decide which way around the path goes. -/
theorem crossing_at_lowest :
    ∀ v ∈ strides, ∀ w ∈ strides, Rises v → Rises w → v ≠ w →
      crossing v (v - w) + crossing (v - w) (-w) + (crossing (-v) (w - v) + crossing (w - v) w) =
        if 0 < w.1 * v.2 - w.2 * v.1 then 1 else -1 := by
  decide +kernel

theorem neg_mem_strides {a : Int × Int} (h : a ∈ strides) : -a ∈ strides := by
  revert a
  decide

/-- The chords from the lowest point do not cross the axis where it counts. -/
theorem IsLowest.sum_front (hlow : IsLowest P n) {k : Nat} (hk : k + 1 < n) :
    ∑ j ∈ range k, front P 0 (j + 1) = 0 := by
  refine sum_eq_zero fun j hj => ?_
  have hj := mem_range.1 hj
  exact crossing_of_rises (hlow.rises (by omega) (by omega)) (hlow.rises (by omega) (by omega))

/-- Neither do the chords that lead back to it. -/
theorem IsLoop.sum_back (h : IsLoop P n) (hlow : IsLowest P n) {k : Nat} (hk : k + 1 < n) :
    ∑ i ∈ range k, back P (1 + i) n = 0 := by
  refine sum_eq_zero fun i hi => ?_
  have hi := mem_range.1 hi
  have hback : ∀ j, chord P j n = -chord P 0 j := by
    intro j
    rw [chord, chord, h.closed, neg_sub]
  have hnext : chord P 0 (1 + i + 1) = chord P 0 (1 + i) + (P (1 + i + 1) - P (1 + i)) := by
    simp only [chord]
    abel
  have hrises := hlow.rises (i := 1 + i + 1) (by omega) (by omega)
  rw [back, hback, hback, hnext]
  rw [hnext] at hrises
  exact crossing_neg_of_rises (h.stride (1 + i)) (hlow.rises (by omega) (by omega)) hrises

/-- A closed path that starts on its lowest point turns once around, one way or the other. -/
theorem IsLoop.tangentCrossings_of_isLowest (h : IsLoop P n) (hlow : IsLowest P n) :
    tangentCrossings P n =
      if 0 < (chord P 0 1).1 * (chord P 0 (n - 1)).2 - (chord P 0 1).2 * (chord P 0 (n - 1)).1
      then 1 else -1 := by
  obtain ⟨k, hk⟩ := Nat.exists_eq_add_of_le' h.three_le
  have hpred : n - 1 = k + 2 := by omega
  have hclosed := h.closed
  have hagain := h.again
  have hv : chord P 0 (k + 2) ∈ strides := by
    have hstride := neg_mem_strides (h.stride (k + 2))
    rwa [show k + 2 + 1 = n by omega, hclosed, neg_sub] at hstride
  have hne : chord P 0 (k + 2) ≠ chord P 0 1 := by
    intro heq
    exact h.simple 1 (k + 2) (by omega) (by omega) (sub_left_injective heq).symm
  have hw : chord P 0 1 ∈ strides := h.stride 0
  have hcorner := crossing_at_lowest _ hv _ hw (hlow.rises (by omega) (by omega))
    (hlow.rises (by omega) (by omega)) hne
  have hfirst : chord P 1 (k + 2) = chord P 0 (k + 2) - chord P 0 1 := by simp only [chord]; abel
  have hsecond : chord P 1 (k + 3) = -chord P 0 1 := by
    rw [chord, ← hk, hclosed, chord, neg_sub]
  have hthird : chord P (k + 2) (k + 3) = -chord P 0 (k + 2) := by
    rw [chord, ← hk, hclosed, chord, neg_sub]
  have hfourth : chord P (k + 2) (k + 4) = chord P 0 1 - chord P 0 (k + 2) := by
    rw [chord, show k + 4 = n + 1 by omega, hagain]
    simp only [chord]
    abel
  have hfifth : chord P (k + 3) (k + 4) = chord P 0 1 := by
    rw [chord, show k + 4 = n + 1 by omega, hagain, ← hk, hclosed, chord]
  -- What is left of a round are the four crossings at the lowest point.
  have hround := h.tangentCrossings_round hk
  have hback := h.sum_back hlow (k := k + 1) (by omega)
  rw [hk] at hback
  rw [hlow.sum_front (by omega), hback] at hround
  simp only [front, back, hfirst, hsecond, hthird, hfourth, hfifth] at hround
  rw [hround, hpred, ← hcorner]
  omega

end

end Perimeter.Rotation
