import Mathlib.Data.Int.Interval
import Mathlib.Data.Set.Card
import Perimeter.Proofs.Region.Record

/-!
# Finding regions

The region of a pixel is known from three facts: chains lead to all pixels of a set, no pixel of the
set touches one of its colour outside, and the pixel is one of the set. A list of first pixels is known
in the same way. Chains are put together from straight lines of one colour, which run in rows and
columns for background and ink alike.
-/

namespace Perimeter

namespace Picture

variable {p : Picture} {a b c : Point} {s : Set Point} {ink : Bool}

/-! ## Regions as sets -/

/-- A set that is closed under touching holds the whole region of each of its pixels. -/
theorem region_subset (hclosed : ∀ b ∈ s, ∀ c, p.Linked b c → c ∈ s) (ha : a ∈ s) : p.region a ⊆ s := by
  intro b hb
  induction hb with
  | refl => exact ha
  | tail _ hlink ih => exact hclosed _ ih _ hlink

theorem region_eq (ha : a ∈ s) (hjoined : ∀ b ∈ s, p.Joined a b)
    (hclosed : ∀ b ∈ s, ∀ c, p.Linked b c → c ∈ s) : p.region a = s :=
  (region_subset hclosed ha).antisymm hjoined

/-- A list in raster order of first pixels that leads to every pixel of a colour lists all of them. -/
theorem firsts_eq {l : List Point} (hsorted : l.Pairwise Point.Before)
    (hfirst : ∀ a ∈ l, p.inkAt a = ink ∧ p.IsFirst a)
    (hall : ∀ b, p.Contains b.x b.y → p.inkAt b = ink → ∃ a ∈ l, p.Joined a b) :
    p.firsts ink = l := by
  refine (p.pairwise_before_firsts ink).eq_of_mem_iff hsorted fun b => ?_
  rw [mem_firsts]
  constructor
  · rintro ⟨hink, hb⟩
    obtain ⟨a, ha, hjoined⟩ := hall b hb.contains hink
    rw [← (hfirst a ha).2.unique hb hjoined]
    exact ha
  · exact hfirst b

/-- The first pixel of a region is the one that leads to the pixel. -/
theorem IsFirst.firstOf_eq_of_joined (ha : p.IsFirst a) (h : p.Joined a b) : p.firstOf b = a := by
  obtain ⟨hfirst, hjoined⟩ := firstOf_spec (h.contains ha.contains)
  exact hfirst.unique ha (hjoined.trans h.symm)

/-! ## Straight lines -/

/-- The pixels of one colour. -/
def Shade (p : Picture) (ink : Bool) (a : Point) : Prop := p.Contains a.x a.y ∧ p.inkAt a = ink

theorem Shade.linked (ha : p.Shade ink a) (hb : p.Shade ink b) (h : a.Touches ink b) : p.Linked a b :=
  ⟨ha.1, hb.1, hb.2.trans ha.2.symm, ha.2 ▸ h⟩

/-- Pixels of one colour, each touching the next, belong together. -/
theorem joined_of_chain {f : Nat → Point} {n : Nat} (hshade : ∀ i ≤ n, p.Shade ink (f i))
    (htouches : ∀ i < n, (f i).Touches ink (f (i + 1))) : p.Joined (f 0) (f n) := by
  induction n with
  | zero => exact .refl
  | succ n ih =>
    have hbefore := ih (fun i hi => hshade i (by omega)) fun i hi => htouches i (by omega)
    exact hbefore.tail
      ((hshade n (by omega)).linked (hshade (n + 1) (by omega)) (htouches n (by omega)))

/-- A row of one colour belongs together. -/
theorem joined_row (ink : Bool) {x x' y : Int} (hle : x ≤ x')
    (h : ∀ z, x ≤ z → z ≤ x' → p.Shade ink ⟨z, y⟩) : p.Joined ⟨x, y⟩ ⟨x', y⟩ := by
  obtain ⟨n, rfl⟩ := Int.le.dest hle
  have hchain := joined_of_chain (f := fun i => ⟨x + i, y⟩) (n := n)
    (fun i hi => h _ (by omega) (by omega)) fun i _ => by
      cases ink <;> simp [Point.Touches]
  simpa using hchain

/-- A column of one colour belongs together. -/
theorem joined_column (ink : Bool) {x y y' : Int} (hle : y ≤ y')
    (h : ∀ z, y ≤ z → z ≤ y' → p.Shade ink ⟨x, z⟩) : p.Joined ⟨x, y⟩ ⟨x, y'⟩ := by
  obtain ⟨n, rfl⟩ := Int.le.dest hle
  have hchain := joined_of_chain (f := fun i => ⟨x, y + i⟩) (n := n)
    (fun i hi => h _ (by omega) (by omega)) fun i _ => by
      cases ink <;> simp [Point.Touches]
  simpa using hchain

/-- A picture of one colour is one region. -/
theorem firsts_plain (hzero : p.Contains 0 0) (hplain : ∀ b, p.Contains b.x b.y → p.inkAt b = ink)
    (ink' : Bool) : p.firsts ink' = if ink' = ink then [⟨0, 0⟩] else [] := by
  split_ifs with hink
  · subst hink
    refine firsts_eq (List.pairwise_singleton _ _) ?_ ?_
    · rw [List.forall_mem_singleton]
      exact ⟨hplain _ hzero, isFirst_zero hzero⟩
    · rintro ⟨x, y⟩ ⟨hx : 0 ≤ x, hy : 0 ≤ y, hw : x < p.width, hh : y < p.height⟩ -
      have hshade : ∀ x' y', 0 ≤ x' → x' ≤ x → 0 ≤ y' → y' ≤ y → p.Shade ink' ⟨x', y'⟩ := by
        intro x' y' hx' hxle hy' hyle
        have hin : p.Contains x' y' := by
          simp only [Contains]
          omega
        exact ⟨hin, hplain ⟨x', y'⟩ hin⟩
      have hrow := joined_row ink' hx fun z hz hle => hshade z 0 hz hle (Int.le_refl 0) hy
      have hcolumn := joined_column ink' hy fun z hz hle => hshade x z hx (Int.le_refl x) hz hle
      exact ⟨⟨0, 0⟩, List.mem_singleton_self _, hrow.trans hcolumn⟩
  · refine firsts_eq List.Pairwise.nil (fun _ ha => absurd ha List.not_mem_nil) fun b hb hb' => ?_
    exact absurd (hb'.symm.trans (hplain b hb)) hink

end Picture

end Perimeter
