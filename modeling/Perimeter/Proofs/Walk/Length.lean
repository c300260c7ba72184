import Mathlib.Algebra.BigOperators.Ring.Finset
import Mathlib.Data.Fintype.Prod
import Mathlib.Tactic.Push
import Perimeter.Proofs.Walk.Turning

/-!
# The length of a round

A round can have almost twice as many edges as the picture has pixels, but most of them are turns on
the spot, and the corners that the contour runs into limit how many steps there are. Every corner
offers two places. A step ahead takes both of them and every other move takes one, so the places
taken are twice the steps plus the turns, and a round turns once around.
-/

namespace Perimeter

open Function Finset

/-- The places that a move takes at the corner in front. -/
theorem Move.places_eq (m : Move) :
    (if m = .ahead then 2 else 1) = 2 * m.steps + m.quarters := by
  cases m <;> decide

/-- The heading is one of the two that a corner counts at its first place. -/
def Heading.isFirst : Heading → Bool
  | up => true
  | right => true
  | down => false
  | left => false

theorem Heading.isFirst_reverse (h : Heading) : h.reverse.isFirst = !h.isFirst := by
  cases h <;> rfl

/-- In front of an edge one of the four corners of its pixel lies on the bordering side. -/
theorem Heading.corner_offset (o : Orientation) (h : Heading) :
    (h.dx + (h.turnLeft o).dx = 1 ∨ h.dx + (h.turnLeft o).dx = -1) ∧
    (h.dy + (h.turnLeft o).dy = 1 ∨ h.dy + (h.turnLeft o).dy = -1) := by
  cases o <;> cases h <;> decide

/-- The headings that run into the lower left corner of a pixel. -/
theorem Heading.of_corner_offset {o : Orientation} {h : Heading}
    (hx : h.dx + (h.turnLeft o).dx = -1) (hy : h.dy + (h.turnLeft o).dy = 1) :
    h = .left ∨ h = .down := by
  revert hx hy
  cases o <;> cases h <;> decide

namespace Picture

variable {p : Picture} {o : Orientation} {e e' : Edge}

/-! ## Places at corners -/

/-- The corner in front of an edge with the places there that the next move takes. -/
def places (p : Picture) (o : Orientation) (e : Edge) : Finset ((Int × Int) × Bool) :=
  {e.corner o} ×ˢ if p.move o e = .ahead then univ else {e.heading.isFirst}

theorem card_places : ((p.places o e).card : Int) = 2 * (p.move o e).steps + (p.move o e).quarters := by
  rw [← Move.places_eq, places, card_product, card_singleton, one_mul]
  split
  · rfl
  · rfl

/-- No two boundary edges take the same place. -/
theorem IsBoundary.disjoint_places (h : p.IsBoundary o e) (h' : p.IsBoundary o e') (hne : e ≠ e') :
    Disjoint (p.places o e) (p.places o e') := by
  rw [places, places, disjoint_product, disjoint_singleton]
  by_cases hcorner : e.corner o = e'.corner o
  · rcases h.eq_or_of_corner_eq h' hcorner with heq | ⟨hm, hm', hheading⟩
    · exact absurd heq hne
    · right
      rw [hm, hm', hheading, Heading.isFirst_reverse]
      cases e.heading.isFirst <;> decide
  · exact .inl hcorner

/-- The corners of the pixels below `top` rows, in half pixels. -/
def cornersFrom (p : Picture) (top : Int) : Finset (Int × Int) :=
  (range (p.width + 1).toNat ×ˢ range (p.height + 1 - top).toNat).image
    fun c => (2 * (c.1 : Int) - 1, 2 * (top + c.2) - 1)

theorem mem_cornersFrom {top x y : Int} (hx : 0 ≤ x) (hw : x ≤ p.width) (hy : top ≤ y)
    (hh : y ≤ p.height) : (2 * x - 1, 2 * y - 1) ∈ p.cornersFrom top := by
  rw [cornersFrom, mem_image]
  refine ⟨(x.toNat, (y - top).toNat), ?_, ?_⟩
  · rw [mem_product, mem_range, mem_range]
    omega
  · rw [Prod.mk.injEq]
    omega

theorem card_cornersFrom_le (p : Picture) {top : Int} (hw : 0 ≤ p.width) (htop : top ≤ p.height) :
    ((p.cornersFrom top).card : Int) ≤ (p.width + 1) * (p.height + 1 - top) := by
  have hcard : (p.cornersFrom top).card ≤
      (range (p.width + 1).toNat ×ˢ range (p.height + 1 - top).toNat).card := card_image_le
  rw [card_product, card_range, card_range] at hcard
  calc ((p.cornersFrom top).card : Int)
      ≤ ((p.width + 1).toNat * (p.height + 1 - top).toNat : Nat) := by exact_mod_cast hcard
    _ = (p.width + 1) * (p.height + 1 - top) := by
      rw [Nat.cast_mul, Int.toNat_of_nonneg (by omega), Int.toNat_of_nonneg (by omega)]

theorem IsBoundary.corner_mem (h : p.IsBoundary o e) {top : Int}
    (htop : 2 * top - 1 ≤ (e.corner o).2) : e.corner o ∈ p.cornersFrom top := by
  obtain ⟨hx, hy, hw, hh⟩ := h.contains
  obtain ⟨hdx, hdy⟩ := e.heading.corner_offset o
  simp only [Edge.corner] at htop
  have hcorner : e.corner o =
      (2 * ((2 * e.x + e.heading.dx + (e.heading.turnLeft o).dx + 1) / 2) - 1,
        2 * ((2 * e.y + e.heading.dy + (e.heading.turnLeft o).dy + 1) / 2) - 1) := by
    simp only [Edge.corner, Prod.mk.injEq]
    omega
  rw [hcorner]
  exact mem_cornersFrom (by omega) (by omega) (by omega) (by omega)

/-- At the lower left corner of the picture the boundary turns, so one place stays free. -/
theorem IsBoundary.not_mem_places (h : p.IsBoundary o e) :
    ((-1, 2 * p.height - 1), true) ∉ p.places o e := by
  obtain ⟨hx, hy, hw, hh⟩ := h.contains
  obtain ⟨hdx, hdy⟩ := e.heading.corner_offset o
  intro hmem
  simp only [places, mem_product, mem_singleton, Edge.corner, Prod.mk.injEq] at hmem
  obtain ⟨⟨hcx, hcy⟩, hplace⟩ := hmem
  have hheading := Heading.of_corner_offset (o := o) (h := e.heading) (by omega) (by omega)
  have hahead : p.inkAhead e = false := by
    refine isInk_eq_false_of_not_contains fun hin => ?_
    simp only [Edge.aheadPoint, Contains] at hin
    rcases hheading with hleft | hdown
    · rw [hleft] at hin
      simp only [Heading.dx] at hin
      omega
    · rw [hdown] at hin
      simp only [Heading.dy] at hin
      omega
  rw [if_neg (move_ne_ahead hahead), mem_singleton] at hplace
  rcases hheading with hleft | hdown
  · rw [hleft] at hplace
    cases hplace
  · rw [hdown] at hplace
    cases hplace

/-- A round whose corners all lie below `top` rows does not take all the places there are. -/
theorem IsBoundary.two_mul_stepsIn_add_turnsIn_lt (h : p.IsBoundary o e) {top : Int}
    (htop : ∀ i, 2 * top - 1 ≤ (((p.nextEdge o)^[i] e).corner o).2) (hle : top ≤ p.height) :
    2 * p.stepsIn o e (p.round o e) + p.turnsIn o e (p.round o e) <
      2 * ((p.width + 1) * (p.height + 1 - top)) := by
  obtain ⟨hx, hy, hw, hh⟩ := h.contains
  let taken := (range (p.round o e)).biUnion fun i => p.places o ((p.nextEdge o)^[i] e)
  have hsum : (taken.card : Int) =
      2 * p.stepsIn o e (p.round o e) + p.turnsIn o e (p.round o e) := by
    -- Different edges take different places, so these are counted edge by edge.
    rw [card_biUnion, Nat.cast_sum, stepsIn, turnsIn, mul_sum, ← sum_add_distrib]
    · exact sum_congr rfl fun i _ => card_places
    · intro i hi j hj hij
      refine (h.iterate i).disjoint_places (h.iterate j) fun heq => hij ?_
      exact iterate_inj (mem_range.1 hi) (mem_range.1 hj) heq
  have hfree : ((-1, 2 * p.height - 1), true) ∈ p.cornersFrom top ×ˢ (univ : Finset Bool) := by
    rw [mem_product]
    exact ⟨mem_cornersFrom (x := 0) (by omega) (by omega) hle (by omega), mem_univ _⟩
  have hsub : taken ⊆ (p.cornersFrom top ×ˢ univ).erase ((-1, 2 * p.height - 1), true) := by
    intro c hc
    obtain ⟨i, -, hc⟩ := mem_biUnion.1 hc
    refine mem_erase.2 ⟨?_, ?_⟩
    · rintro rfl
      exact (h.iterate i).not_mem_places hc
    · rw [places, mem_product, mem_singleton] at hc
      rw [mem_product, hc.1]
      exact ⟨(h.iterate i).corner_mem (htop i), mem_univ _⟩
  have hcard : taken.card < (p.cornersFrom top).card * 2 := by
    calc taken.card
        ≤ ((p.cornersFrom top ×ˢ univ).erase ((-1, 2 * p.height - 1), true)).card := card_le_card hsub
      _ < (p.cornersFrom top ×ˢ (univ : Finset Bool)).card := card_erase_lt_of_mem hfree
      _ = (p.cornersFrom top).card * 2 := card_product _ _
  have hgrid := p.card_cornersFrom_le (by omega) hle
  omega

/-! ## The bound -/

/-- No side along the boundary lies above the top edge. -/
theorem IsBoundary.middle_le_of_isTop (h : p.IsBoundary o e) (htop : p.IsTop o e) (i : Nat) :
    (e.middle o).2 ≤ (((p.nextEdge o)^[i] e).middle o).2 := by
  have hmod : (p.nextEdge o)^[i % p.round o e] e = (p.nextEdge o)^[i] e :=
    iterate_mod_minimalPeriod_eq
  rw [← hmod]
  rcases Nat.eq_zero_or_pos (i % p.round o e) with hzero | hpos
  · rw [hzero, iterate_zero_apply]
  · rcases htop _ hpos (Nat.mod_lt _ h.round_pos) with hlt | ⟨heq, -⟩
    · exact hlt.le
    · exact heq.le

/-- A walk that turns to the left more often than to the right steps diagonally somewhere, which
takes two columns. -/
theorem IsBoundary.two_le_width (h : p.IsBoundary o e) {n : Nat} (hneg : p.turnsIn o e n < 0) :
    2 ≤ p.width := by
  obtain ⟨i, -, hi⟩ : ∃ i ∈ range n, (p.moveAt o e i).quarters < 0 := by
    by_contra hnone
    push Not at hnone
    exact absurd (sum_nonneg hnone) (not_le.2 hneg)
  have hdiag : p.inkDiagonal o ((p.nextEdge o)^[i] e) = true := by
    rw [moveAt] at hi
    rcases p.move_cases o ((p.nextEdge o)^[i] e) with ⟨-, hd⟩ | ⟨hm, -⟩ | ⟨hm, -⟩
    · exact hd
    · rw [hm] at hi
      exact absurd hi (by decide)
    · rw [hm] at hi
      exact absurd hi (by decide)
  obtain ⟨hx, -, hw, -⟩ := (h.iterate i).contains
  obtain ⟨hx', -, hw', -⟩ := contains_of_inkAt hdiag
  obtain ⟨hdx, -⟩ := ((p.nextEdge o)^[i] e).heading.corner_offset o
  simp only [Edge.diagonalPoint] at hx' hw'
  omega

/-- Around a hole the boundary stays away from the top of the picture. -/
theorem IsBoundary.one_le_corner (h : p.IsBoundary o e)
    (hturns : p.turnsIn o e (p.round o e) = -4) (i : Nat) :
    1 ≤ (((p.nextEdge o)^[i] e).corner o).2 := by
  obtain ⟨k, hk, htop⟩ := h.exists_isTop
  obtain ⟨hside, hround⟩ := (h.iterate k).turnsIn_of_isTop htop
  rw [h.round_iterate, turnsIn_iterate_round, hturns] at hround
  have hdown : ((p.nextEdge o)^[k] e).heading.turnLeft o = .down := by
    rcases hside with hup | hdown
    · rw [if_pos hup] at hround
      cases hround
    · exact hdown
  have hle := (h.iterate k).middle_le_of_isTop htop (i + (p.round o e - k))
  rw [iterate_of_iterate hk] at hle
  obtain ⟨-, hy, -, -⟩ := (h.iterate k).contains
  have hodd := (((p.nextEdge o)^[i] e).heading.odd_offset o).2
  have hdy : -1 ≤ ((p.nextEdge o)^[i] e).heading.dy := by
    cases ((p.nextEdge o)^[i] e).heading <;> decide
  have hone : Heading.dy .down = 1 := rfl
  simp only [Edge.middle, Edge.corner, hdown, hone] at hle ⊢
  omega

/-- A round has fewer steps than the upper limit says. -/
theorem IsBoundary.stepsIn_round_lt (h : p.IsBoundary o e) :
    p.stepsIn o e (p.round o e) < p.width * p.height + p.width + p.height := by
  obtain ⟨hx, hy, hw, hh⟩ := h.contains
  rcases h.turnsIn_round with hturns | hturns
  -- The turns to the right that are left over take places that no step takes.
  · have hrow : ∀ i, 2 * 0 - 1 ≤ (((p.nextEdge o)^[i] e).corner o).2 := by
      intro i
      obtain ⟨-, hy, -, -⟩ := (h.iterate i).contains
      obtain ⟨-, hdy⟩ := ((p.nextEdge o)^[i] e).heading.corner_offset o
      simp only [Edge.corner]
      omega
    have hplaces := h.two_mul_stepsIn_add_turnsIn_lt hrow (by omega)
    rw [hturns, sub_zero, add_mul, mul_add p.width, one_mul, mul_one] at hplaces
    omega
  -- Turns to the left leave places free, but so does the whole uppermost row of corners.
  · have hrow : ∀ i, 2 * 1 - 1 ≤ (((p.nextEdge o)^[i] e).corner o).2 :=
      fun i => h.one_le_corner hturns i
    have hplaces := h.two_mul_stepsIn_add_turnsIn_lt hrow (by omega)
    have hwide := h.two_le_width (n := p.round o e) (by omega)
    rw [hturns, add_sub_cancel_right, add_mul, one_mul] at hplaces
    omega

end Picture

end Perimeter
