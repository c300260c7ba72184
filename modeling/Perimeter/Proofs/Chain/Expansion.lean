import Perimeter.Proofs.Chain.Idempotence

/-!
# Compressed contours and the pixels on them

On a contour of steps to neighbours all legs are straight lines. So the points that a chain keeps stand
for the whole contour: filling in the pixels on the lines between them gives it back.
-/

namespace Perimeter.Chain

variable {l rest : List Point} {ls : List Leg} {a m : Leg} {d : Int} {p : Point}

theorem code_ne_zero_of_mem_legs (hl : ∀ q ∈ p :: rest, q.Wide)
    (h : (p :: rest).IsChain fun a b : Point => a.distance b = 1) (hm : m ∈ legs d p rest) :
    m.code ≠ 0 := by
  induction rest generalizing d p with
  | nil => simp [legs] at hm
  | cons q rest ih =>
    obtain ⟨hnear, hrest⟩ := List.isChain_cons_cons.1 h
    obtain ⟨hp, hwide⟩ := List.forall_mem_cons.1 hl
    rw [legs] at hm
    split_ifs at hm
    · obtain rfl | hm := List.mem_cons.1 hm
      · exact (stepCode_ne_zero_iff hp (hwide q List.mem_cons_self)).2 hnear
      · exact ih hwide hrest hm
    · exact ih hwide hrest hm

/-- The pixels on the legs are those of the path. -/
theorem trail_legs (ha : a.Reaches p) (hl : ∀ q ∈ p :: rest, q.Wide)
    (h : (p :: rest).IsChain fun a b : Point => a.distance b = 1) :
    trail (a.point :: ((legs a.code p rest).map Leg.point ++ [rest.getLastD p])) =
      a.point.stepsTo p ++ (p :: rest).dropLast := by
  -- The pixels that the leg under way has come along are on the left; the path adds its own one by one.
  induction rest generalizing a p with
  | nil => simp [legs, trail]
  | cons q rest ih =>
    obtain ⟨hnear, hrest⟩ := List.isChain_cons_cons.1 h
    obtain ⟨hp, hwide⟩ := List.forall_mem_cons.1 hl
    have hq : q.Wide := hwide q List.mem_cons_self
    rw [legs, List.getLastD_cons, List.dropLast_cons_cons]
    split_ifs with hcode
    · -- The leg ends on `p`, and the step to `q` begins another one.
      have htrail := ih (a := ⟨p, stepCode p q⟩) (Leg.reaches_step hp hq) hwide hrest
      rw [Point.stepsTo_of_distance_eq_one hnear] at htrail
      rw [List.map_cons, List.cons_append, trail, htrail, List.singleton_append]
    · -- The line to `q` passes through `p`.
      obtain ⟨hne, hstep⟩ := leads_of_continues hp hq hcode
      rw [ih (ha.step hp hq hcode) hwide hrest, (ha.leads hne).stepsTo_append hstep hne,
        Point.stepsTo_of_distance_eq_one hnear, List.append_assoc, List.singleton_append]

theorem chain_straight (hchain : (a :: ls).IsChain Leg.Joins) (hlast : (ls.getLastD a).Reaches a.point)
    (hcode : ∀ m ∈ a :: ls, m.code ≠ 0) :
    Cycle.Chain Point.Straight ((a :: ls).map Leg.point : Cycle Point) := by
  have hcodelast : (ls.getLastD a).code ≠ 0 := hcode _ List.getLastD_mem_cons
  rw [List.map_cons, Cycle.chain_coe_cons, isChain_concat_iff, List.getLastD_map, ← List.map_cons,
    List.isChain_map]
  refine ⟨hchain.imp_of_mem_imp fun m n hm _ h => ?_, (hlast.leads hcodelast).straight hcodelast⟩
  exact (h.1.leads (hcode m hm)).straight (hcode m hm)

/-! ## Closed contours of steps to neighbours -/

section

variable (hl : ∀ q ∈ l, q.Wide)
  (h : Cycle.Chain (fun a b : Point => a.distance b = 1) (l : Cycle Point))

include hl h

theorem expand_tour : expand ((tour l).map Leg.point) = l := by
  match l with
  | [] => rfl
  | [p] => simp [Point.distance_self] at h
  | p :: q :: rest =>
    obtain ⟨hnear, hrest⟩ := List.isChain_cons_cons.1 ((Cycle.chain_coe_cons _ _ _).1 h)
    obtain ⟨hfirst, hround⟩ := reaches_first hl
    have htrail := trail_legs hfirst hround hrest
    have hdrop : (q :: (rest ++ [p])).dropLast = q :: rest := by
      rw [← List.cons_append, List.dropLast_concat]
    rw [Point.stepsTo_of_distance_eq_one hnear, List.getLastD_concat, hdrop] at htrail
    rw [tour_cons_cons, List.map_cons, expand, htrail, List.singleton_append]

theorem code_ne_zero_of_mem_tour (hm : m ∈ tour l) : m.code ≠ 0 := by
  cases l with
  | nil => simp [tour] at hm
  | cons p rest =>
    have hround : ∀ q ∈ p :: (rest ++ [p]), q.Wide := List.forall_mem_cons.2
      ⟨hl p List.mem_cons_self, fun q hq => hl q ((List.perm_append_singleton p rest).subset hq)⟩
    exact code_ne_zero_of_mem_legs hround ((Cycle.chain_coe_cons _ _ _).1 h) hm

theorem chain_straight_tour : Cycle.Chain Point.Straight ((tour l).map Leg.point : Cycle Point) := by
  cases htour : tour l with
  | nil => exact Cycle.Chain.nil _
  | cons a ls =>
    obtain ⟨hchain, hlast, -⟩ := isChain_tour hl htour
    exact chain_straight hchain hlast fun m hm => code_ne_zero_of_mem_tour hl h (htour ▸ hm)

theorem chain_straight_tail_tour (hinside : startsInside l = true) :
    Cycle.Chain Point.Straight ((tour l).tail.map Leg.point : Cycle Point) := by
  have htail := chain_tail_tour hl hinside
  have hcode : ∀ m ∈ (tour l).tail, m.code ≠ 0 := fun m hm =>
    code_ne_zero_of_mem_tour hl h (List.mem_of_mem_tail hm)
  cases htour : (tour l).tail with
  | nil => exact Cycle.Chain.nil _
  | cons b ls =>
    rw [htour] at htail hcode
    obtain ⟨hchain, hlast⟩ := isChain_concat_iff.1 ((Cycle.chain_coe_cons _ _ _).1 htail)
    exact chain_straight hchain hlast.1 hcode

/-- A contour that starts inside a run turns somewhere, and there the compressed one starts. -/
theorem expand_tail_tour (hinside : startsInside l = true) :
    expand ((tour l).tail.map Leg.point) ~r l := by
  have hexpand := expand_tour hl h
  match htour : tour l with
  | [] =>
    rw [htour] at hexpand
    rw [← hexpand]
    rfl
  | [a] =>
    -- A single leg would have to come back to its start.
    have hstraight := chain_straight_tour hl h
    rw [htour, List.map_singleton, Cycle.chain_singleton] at hstraight
    exact absurd rfl hstraight.ne
  | a :: b :: ls =>
    obtain ⟨hne, -, hin, hout⟩ := leads_of_startsInside hl htour hinside
    rw [htour, List.map_cons, List.map_cons] at hexpand
    have hrotated := expand_isRotated (l := ls.map Leg.point) (a := a.point) (b := b.point)
    rw [hexpand, List.getLastD_map] at hrotated
    exact hrotated (hin.stepsTo_append hout hne)

end

/-- A compressed contour consists of straight lines, and the pixels on them are those of the contour. -/
theorem expand_simplify (l : List Point) (hl : ∀ p ∈ l, p.Wide)
    (h : Cycle.Chain (fun a b : Point => a.distance b = 1) (l : Cycle Point)) :
    (∀ dropStart, Cycle.Chain Point.Straight ((simplify l dropStart).1 : Cycle Point)) ∧
      expand (simplify l false).1 = l ∧ expand (simplify l true).1 ~r l ∧
        (simplify l false).1.head? = l.head? ∧ (simplify l false).1.Sublist l := by
  have hstraight := chain_straight_tour hl h
  have hexpand := expand_tour hl h
  rw [simplify_true, simplify_false]
  refine ⟨fun dropStart => ?_, hexpand, ?_, head?_tour l, tour_sublist l⟩
  · cases dropStart with
    | false => rwa [simplify_false]
    | true =>
      rw [simplify_true]
      split_ifs with hinside
      · exact chain_straight_tail_tour hl h hinside
      · exact hstraight
  · split_ifs with hinside
    · exact expand_tail_tour hl h hinside
    · rw [hexpand]

/-- The contour starts inside a run along a row, and goes out and back along a diagonal. -/
theorem expand_simplify_spur :
    (simplify [⟨1, 0⟩, ⟨2, 0⟩, ⟨3, 1⟩, ⟨4, 2⟩, ⟨3, 1⟩, ⟨2, 2⟩, ⟨1, 2⟩, ⟨0, 1⟩, ⟨0, 0⟩] true).1 =
        [⟨2, 0⟩, ⟨4, 2⟩, ⟨3, 1⟩, ⟨2, 2⟩, ⟨1, 2⟩, ⟨0, 1⟩, ⟨0, 0⟩] ∧
      expand [⟨2, 0⟩, ⟨4, 2⟩, ⟨3, 1⟩, ⟨2, 2⟩, ⟨1, 2⟩, ⟨0, 1⟩, ⟨0, 0⟩] ~r
        [⟨1, 0⟩, ⟨2, 0⟩, ⟨3, 1⟩, ⟨4, 2⟩, ⟨3, 1⟩, ⟨2, 2⟩, ⟨1, 2⟩, ⟨0, 1⟩, ⟨0, 0⟩] := by
  have hkept :
      (simplify [⟨1, 0⟩, ⟨2, 0⟩, ⟨3, 1⟩, ⟨4, 2⟩, ⟨3, 1⟩, ⟨2, 2⟩, ⟨1, 2⟩, ⟨0, 1⟩, ⟨0, 0⟩] true).1 =
      [⟨2, 0⟩, ⟨4, 2⟩, ⟨3, 1⟩, ⟨2, 2⟩, ⟨1, 2⟩, ⟨0, 1⟩, ⟨0, 0⟩] := by decide
  have hrotated := (expand_simplify
    [⟨1, 0⟩, ⟨2, 0⟩, ⟨3, 1⟩, ⟨4, 2⟩, ⟨3, 1⟩, ⟨2, 2⟩, ⟨1, 2⟩, ⟨0, 1⟩, ⟨0, 0⟩] (by decide)
    ((Cycle.chain_coe_cons _ _ _).2 (by decide))).2.2.1
  exact ⟨hkept, hkept ▸ hrotated⟩

end Perimeter.Chain
