import Mathlib.Data.List.Cycle
import Perimeter.Proofs.Chain.Legs

/-!
# Compressed contours stay as they are

The legs of a compressed contour follow each other around it without one that goes on like the leg
before. Going over their first points again, a leg is seen as the step that it repeats or as a jump. So
no first point is between two equal steps, and none is left out.
-/

namespace Perimeter.Chain

variable {l : List Point} {ls : List Leg} {a b m : Leg} {p q : Point}

/-! ## Legs seen as steps -/

theorem Leg.Reaches.stepCode_eq_or (h : a.Reaches q) (ha : a.point.Wide) (hq : q.Wide) :
    stepCode a.point q = a.code ∨ stepCode a.point q = 0 := by
  by_cases hcode : a.code = 0
  · rw [Leg.Reaches, if_pos hcode] at h
    exact .inr h
  · exact (h.leads hcode).stepCode_eq_or hcode ha hq

/-- The chain keeps a point where one leg joins the next. -/
theorem Leg.Joins.keeps (h : a.Joins b) (h' : b.Reaches q) (ha : a.point.Wide) (hb : b.point.Wide)
    (hq : q.Wide) : stepCode b.point q ≠ stepCode a.point b.point ∨ stepCode b.point q = 0 := by
  obtain ⟨hreaches, hother⟩ := h
  -- Two equal steps that are no jumps would be steps of legs with one code.
  have hin := hreaches.stepCode_eq_or ha hb
  have hout := h'.stepCode_eq_or hb hq
  omega

theorem legs_map_point (h : (a :: b :: ls).IsChain Leg.Joins) (hl : ∀ m ∈ a :: b :: ls, m.point.Wide) :
    (legs (stepCode a.point b.point) b.point (ls.map Leg.point)).map Leg.point =
      ((b :: ls).map Leg.point).dropLast := by
  -- Along the legs, whose first points are the path that the chain goes over now.
  induction ls generalizing a b with
  | nil => rfl
  | cons m ls ih =>
    obtain ⟨hab, hrest⟩ := List.isChain_cons_cons.1 h
    have hkeeps := hab.keeps (List.isChain_cons_cons.1 hrest).1.1 (hl a (by simp)) (hl b (by simp))
      (hl m (by simp))
    have htail := ih hrest fun r hr => hl r (List.mem_cons_of_mem a hr)
    rw [List.map_cons, legs, if_pos hkeeps, List.map_cons, htail]
    rfl

/-- A chain keeps all points where the legs of a closed contour join. What the last one joins has the
first point, but any code. -/
theorem tour_map_point {code : Int} (h : (a :: (ls ++ [⟨a.point, code⟩])).IsChain Leg.Joins)
    (hl : ∀ m ∈ a :: ls, m.point.Wide) :
    (tour ((a :: ls).map Leg.point)).map Leg.point = (a :: ls).map Leg.point := by
  cases ls with
  | nil => simp [tour, legs]
  | cons b ls =>
    have hlast : Point.Wide (Leg.point ⟨a.point, code⟩) := hl a List.mem_cons_self
    have hround : ∀ m ∈ a :: b :: (ls ++ [⟨a.point, code⟩]), m.point.Wide :=
      List.forall_mem_append.2 ⟨hl, List.forall_mem_singleton.2 hlast⟩
    rw [List.cons_append] at h
    have hlegs := legs_map_point h hround
    rw [List.map_append, List.map_singleton, ← List.cons_append, List.map_append, List.map_singleton,
      List.dropLast_concat] at hlegs
    rw [List.map_cons, List.map_cons, tour_cons_cons, List.map_cons, hlegs, List.map_cons]

/-! ## Legs around a contour -/

/-- Without a run through the first point, legs join all around the contour. -/
theorem chain_tour (hl : ∀ r ∈ l, r.Wide) (h : startsInside l = false) :
    Cycle.Chain Leg.Joins (tour l : Cycle Leg) := by
  cases htour : tour l with
  | nil => exact Cycle.Chain.nil _
  | cons a ls =>
    obtain ⟨hchain, hreaches, hinside⟩ := isChain_tour hl htour
    rw [← Bool.not_eq_true, hinside] at h
    rw [Cycle.chain_coe_cons, isChain_concat_iff]
    exact ⟨hchain, hreaches, by omega⟩

/-- A run through the first point takes the place of its two parts. -/
theorem chain_tail_tour (hl : ∀ r ∈ l, r.Wide) (h : startsInside l = true) :
    Cycle.Chain Leg.Joins ((tour l).tail : Cycle Leg) := by
  match htour : tour l with
  | [] | [_] => exact Cycle.Chain.nil _
  | a :: b :: ls =>
    obtain ⟨hne, hsame, hin, hout⟩ := leads_of_startsInside hl htour h
    obtain ⟨⟨-, hother⟩, hrest⟩ := List.isChain_cons_cons.1 (isChain_tour hl htour).1
    rw [List.tail_cons, Cycle.chain_coe_cons, isChain_concat_iff]
    -- The last leg goes on through the first point, up to where the first leg ended.
    exact ⟨hrest, .of_leads (hsame ▸ hin.trans hout hne) (hsame ▸ hne), hsame ▸ hother⟩

/-- A chain keeps the points where legs join all around a contour. -/
theorem simplify_map_point (h : Cycle.Chain Leg.Joins (ls : Cycle Leg))
    (hl : ∀ m ∈ ls, m.point.Wide) (dropStart : Bool) :
    simplify (ls.map Leg.point) dropStart = (ls.map Leg.point, false) := by
  match ls with
  | [] => cases dropStart <;> rfl
  | [a] => cases dropStart <;> simp [simplify_eq, tour, legs, startsInside]
  | a :: b :: ls =>
    have hchain := (Cycle.chain_coe_cons _ _ _).1 h
    have hlastmem : ls.getLastD b ∈ b :: ls := List.getLastD_mem_cons
    obtain ⟨hround, hlast⟩ := isChain_concat_iff.1 hchain
    rw [List.getLastD_cons] at hlast
    -- The steps before and behind the first point belong to legs that join, too.
    have hkeeps := hlast.keeps (List.isChain_cons_cons.1 hround).1.1
      (hl _ (List.mem_cons_of_mem a hlastmem)) (hl a (by simp)) (hl b (by simp))
    have hstart : startsInside ((a :: b :: ls).map Leg.point) = false := by
      rw [← Bool.not_eq_true, List.map_cons, List.map_cons, startsInside_cons_cons, List.getLastD_map]
      omega
    rw [simplify_eq, tour_map_point hchain hl, hstart, Bool.and_false, if_neg Bool.false_ne_true]

theorem wide_of_mem_tour (hl : ∀ p ∈ l, p.Wide) : ∀ m ∈ tour l, m.point.Wide := fun _ hm =>
  hl _ ((tour_sublist l).subset (List.mem_map_of_mem hm))

theorem tour_map_tour (hl : ∀ p ∈ l, p.Wide) :
    (tour ((tour l).map Leg.point)).map Leg.point = (tour l).map Leg.point := by
  cases htour : tour l with
  | nil => rfl
  | cons a ls =>
    obtain ⟨hchain, hreaches, -⟩ := isChain_tour hl htour
    -- The first point is kept in any case, as if the last leg came to a leg that is no run.
    have hround : (a :: (ls ++ [⟨a.point, 0⟩])).IsChain Leg.Joins :=
      isChain_concat_iff.2 ⟨hchain, hreaches, .inr rfl⟩
    exact tour_map_point hround (htour ▸ wide_of_mem_tour hl)

/-- Compressing a compressed contour once more changes nothing. -/
theorem simplify_simplify (l : List Point) (hl : ∀ p ∈ l, p.Wide) (dropStart : Bool) :
    (simplify (simplify l dropStart).1 dropStart).1 = (simplify l dropStart).1 := by
  cases dropStart with
  | false =>
    rw [simplify_false, simplify_false]
    exact tour_map_tour hl
  | true =>
    have hwide := wide_of_mem_tour hl
    rw [simplify_true l]
    split_ifs with hinside
    · rw [simplify_map_point (chain_tail_tour hl hinside) fun m hm => hwide m (List.mem_of_mem_tail hm)]
    · rw [simplify_map_point (chain_tour hl (Bool.not_eq_true _ ▸ hinside)) hwide]

/-- The path starts inside a run along a row, stays in place, jumps and goes along a diagonal. -/
theorem simplify_simplify_jumps :
    (∀ p ∈ [(⟨1, 0⟩ : Point), ⟨2, 0⟩, ⟨3, 0⟩, ⟨3, 0⟩, ⟨9, 9⟩, ⟨10, 10⟩, ⟨11, 11⟩, ⟨0, 0⟩], p.Wide) ∧
      (simplify (simplify [⟨1, 0⟩, ⟨2, 0⟩, ⟨3, 0⟩, ⟨3, 0⟩, ⟨9, 9⟩, ⟨10, 10⟩, ⟨11, 11⟩, ⟨0, 0⟩] true).1
        true).1 = [⟨3, 0⟩, ⟨3, 0⟩, ⟨9, 9⟩, ⟨11, 11⟩, ⟨0, 0⟩] :=
  ⟨by decide, (simplify_simplify _ (by decide) true).trans (by decide)⟩

end Perimeter.Chain
