import Mathlib.Data.List.Nodup
import Mathlib.Data.Set.Card
import Mathlib.Logic.Relation
import Perimeter.Proofs.Picture
import Perimeter.Region

/-!
# Connected regions

Pixels of one colour that touch belong together: ink by side or corner, background by side only. The
regions of a picture are the classes of `Picture.Joined`, and each is known by its first pixel in
raster order. `Picture.Connected` is the same in the plane around the picture, where everything outside
the image is background.
-/

namespace Perimeter

/-- The pixels share a side, or a corner where that counts. -/
def Point.Touches (corners : Bool) (a b : Point) : Prop :=
  if corners then (b.x - a.x).natAbs ≤ 1 ∧ (b.y - a.y).natAbs ≤ 1
  else (b.x - a.x).natAbs + (b.y - a.y).natAbs ≤ 1

theorem Point.Touches.symm {corners : Bool} {a b : Point} (h : a.Touches corners b) :
    b.Touches corners a := by
  cases corners <;> simp only [Touches, if_true, Bool.false_eq_true, if_false] at h ⊢ <;> omega

/-- The offsets of the pixels that belong together with a pixel of this colour. -/
def offsetsOf (ink : Bool) : List (Int × Int) := if ink then allOffsets else sideOffsets

theorem touches_of_mem_offsetsOf {ink : Bool} {a : Point} {dx dy : Int}
    (h : (dx, dy) ∈ offsetsOf ink) : a.Touches ink ⟨a.x + dx, a.y + dy⟩ := by
  cases ink <;>
    simp [offsetsOf, allOffsets, sideOffsets, Point.Touches] at h ⊢ <;>
    omega

theorem mem_offsetsOf_of_touches {ink : Bool} {a b : Point} (h : a.Touches ink b) (hne : a ≠ b) :
    (b.x - a.x, b.y - a.y) ∈ offsetsOf ink := by
  have hdiff : ¬(b.x - a.x = 0 ∧ b.y - a.y = 0) := by
    rintro ⟨hx, hy⟩
    obtain ⟨x, y⟩ := a
    obtain ⟨x', y'⟩ := b
    refine hne ?_
    simp only [Point.mk.injEq] at hx hy ⊢
    omega
  simp only [Point.Touches] at h
  generalize b.x - a.x = dx at h hdiff ⊢
  generalize b.y - a.y = dy at h hdiff ⊢
  have hdx : dx = -1 ∨ dx = 0 ∨ dx = 1 := by split at h <;> omega
  have hdy : dy = -1 ∨ dy = 0 ∨ dy = 1 := by split at h <;> omega
  -- What is left are the nine offsets of at most one column and one row.
  revert h hdiff
  rcases hdx with rfl | rfl | rfl <;> rcases hdy with rfl | rfl | rfl <;> cases ink <;> decide

namespace Picture

variable {p : Picture} {a b c : Point} {k : Nat}

/-! ## Pixels that belong together -/

/-- Two pixels of the same colour that touch. -/
structure Linked (p : Picture) (a b : Point) : Prop where
  left : p.Contains a.x a.y
  right : p.Contains b.x b.y
  colour : p.inkAt b = p.inkAt a
  touches : a.Touches (p.inkAt a) b

theorem Linked.symm (h : p.Linked a b) : p.Linked b a where
  left := h.right
  right := h.left
  colour := h.colour.symm
  touches := by
    rw [h.colour]
    exact h.touches.symm

/-- A chain of pixels of one colour, each touching the next, leads from one pixel to the other. -/
def Joined (p : Picture) : Point → Point → Prop := Relation.ReflTransGen p.Linked

theorem Joined.symm (h : p.Joined a b) : p.Joined b a := by
  induction h with
  | refl => exact .refl
  | tail _ hl ih => exact .head hl.symm ih

theorem Joined.inkAt_eq (h : p.Joined a b) : p.inkAt b = p.inkAt a := by
  induction h with
  | refl => rfl
  | tail _ hl ih => rw [hl.colour, ih]

theorem Joined.contains (h : p.Joined a b) (ha : p.Contains a.x a.y) : p.Contains b.x b.y := by
  cases h with
  | refl => exact ha
  | tail _ hl => exact hl.right

/-- Two pixels of the plane that touch and have the same colour. -/
structure Adjoins (p : Picture) (a b : Point) : Prop where
  colour : p.inkAt b = p.inkAt a
  touches : a.Touches (p.inkAt a) b

/-- A chain of pixels of one colour, inside the image or outside, leads from one pixel to the other. -/
def Connected (p : Picture) : Point → Point → Prop := Relation.ReflTransGen p.Adjoins

theorem Joined.connected (h : p.Joined a b) : p.Connected a b :=
  Relation.ReflTransGen.mono (fun _ _ hl => ⟨hl.colour, hl.touches⟩) _ _ h

theorem Connected.inkAt_eq (h : p.Connected a b) : p.inkAt b = p.inkAt a := by
  induction h with
  | refl => rfl
  | tail _ hl ih => rw [hl.colour, ih]

/-- The pixels that belong together with a pixel. -/
def region (p : Picture) (a : Point) : Set Point := {b | p.Joined a b}

theorem Joined.region_eq (h : p.Joined a b) : p.region a = p.region b :=
  Set.ext fun _ => ⟨fun hc => h.symm.trans hc, fun hc => h.trans hc⟩

/-- The pixel is the first of its region in raster order. -/
structure IsFirst (p : Picture) (a : Point) : Prop where
  contains : p.Contains a.x a.y
  before : ∀ b, p.Joined a b → b = a ∨ a.Before b

/-- A region has only one first pixel. -/
theorem IsFirst.unique (ha : p.IsFirst a) (hb : p.IsFirst b) (h : p.Joined a b) : a = b := by
  rcases ha.before b h with heq | hlt
  · exact heq.symm
  · rcases hb.before a h.symm with heq | hlt'
    · exact heq
    · exact absurd hlt' hlt.asymm

/-- No pixel comes before the corner. -/
theorem isFirst_zero (h : p.Contains 0 0) : p.IsFirst ⟨0, 0⟩ := by
  refine ⟨h, fun ⟨x, y⟩ hb => ?_⟩
  obtain ⟨hx : 0 ≤ x, hy : 0 ≤ y, -, -⟩ := hb.contains h
  simp only [Point.Before, Point.mk.injEq]
  omega

/-- The pixel above the first one of a region does not belong to the region. -/
theorem IsFirst.not_linked_above (h : p.IsFirst a) : ¬p.Linked a a.above := by
  intro hlink
  rcases h.before _ (.single hlink) with heq | hbefore
  · have hrow := congrArg Point.y heq
    simp only [Point.above] at hrow
    omega
  · simp only [Point.Before, Point.above] at hbefore
    omega

/-- Above the first pixel of a component there is no ink. -/
theorem IsFirst.inkAt_above_eq_false (h : p.IsFirst a) (hink : p.inkAt a = true) :
    p.inkAt a.above = false := by
  by_contra habove
  rw [Bool.not_eq_false] at habove
  refine h.not_linked_above ⟨h.contains, contains_of_inkAt habove, habove.trans hink.symm, ?_⟩
  cases p.inkAt a <;> simp [Point.Touches, Point.above]

/-- Above the first pixel of a background region there is ink, except in the uppermost row. -/
theorem IsFirst.inkAt_above_eq_true (h : p.IsFirst a) (hink : p.inkAt a = false) (hy : a.y ≠ 0) :
    p.inkAt a.above = true := by
  obtain ⟨hx, hy₀, hw, hh⟩ := h.contains
  by_contra habove
  rw [Bool.not_eq_true] at habove
  have hin : p.Contains a.above.x a.above.y := by
    simp only [Contains, Point.above]
    omega
  refine h.not_linked_above ⟨h.contains, hin, habove.trans hink.symm, ?_⟩
  cases p.inkAt a <;> simp [Point.Touches, Point.above]

/-- Every pixel belongs to a region with a first pixel. -/
theorem exists_isFirst (hb : p.Contains b.x b.y) : ∃ a, p.IsFirst a ∧ p.Joined a b := by
  classical
  have hex : ∃ k, k < p.size ∧ p.Joined b (p.pixel k) := by
    refine ⟨p.number b, number_lt hb, ?_⟩
    rw [pixel_number hb]
    exact .refl
  obtain ⟨hk, hjoined⟩ := Nat.find_spec hex
  refine ⟨p.pixel (Nat.find hex), ⟨contains_pixel hk, fun c hc => ?_⟩, hjoined.symm⟩
  have hcontains := hc.contains (contains_pixel hk)
  rcases (p.pixel (Nat.find hex)).before_trichotomy c with hbefore | heq | hafter
  · exact .inr hbefore
  · exact .inl heq.symm
  · -- A pixel of the region with a lesser number would have been found before.
    have hlt := number_lt_of_before hcontains (contains_pixel hk) hafter
    rw [number_pixel] at hlt
    refine absurd ⟨number_lt hcontains, ?_⟩ (Nat.find_min hex hlt)
    rw [pixel_number hcontains]
    exact hjoined.trans hc

open Classical in
/-- The first pixel of the region of a pixel. -/
noncomputable def firstOf (p : Picture) (b : Point) : Point :=
  if h : ∃ a, p.IsFirst a ∧ p.Joined a b then h.choose else b

theorem firstOf_spec (hb : p.Contains b.x b.y) :
    p.IsFirst (p.firstOf b) ∧ p.Joined (p.firstOf b) b := by
  have hex := exists_isFirst hb
  rw [firstOf, dif_pos hex]
  exact hex.choose_spec

theorem IsFirst.firstOf_eq (h : p.IsFirst a) : p.firstOf a = a :=
  (firstOf_spec h.contains).1.unique h (firstOf_spec h.contains).2

open Classical in
/-- The first pixels of the regions of one colour, in raster order. -/
noncomputable def firsts (p : Picture) (ink : Bool) : List Point :=
  p.pixels.filter fun a => p.inkAt a = ink ∧ p.IsFirst a

theorem mem_firsts {ink : Bool} : a ∈ p.firsts ink ↔ p.inkAt a = ink ∧ p.IsFirst a := by
  simp only [firsts, List.mem_filter, decide_eq_true_eq, mem_pixels, and_iff_right_iff_imp]
  rintro ⟨-, hfirst⟩
  exact hfirst.contains

theorem pairwise_before_firsts (p : Picture) (ink : Bool) :
    (p.firsts ink).Pairwise Point.Before :=
  p.pairwise_before_pixels.sublist List.filter_sublist

theorem nodup_firsts (p : Picture) (ink : Bool) : (p.firsts ink).Nodup := by
  refine (p.pairwise_before_firsts ink).imp fun {a b} hbefore heq => ?_
  subst heq
  exact hbefore.asymm hbefore

end Picture

end Perimeter
