import Mathlib.Data.List.DropRight
import Mathlib.Data.List.Rotate
import Mathlib.Data.List.SplitBy
import Perimeter.Proofs.Walk.Suppression

/-!
# Visits

The edges of a closed walk fall into visits: on every pixel that it comes to, the walk turns until it
steps off. Read around the cycle, the edges before the first step and those after the last one are one
visit, the one that contains the start. A walk has one point for each of its visits, and with border
suppression one for each visit that has an edge inside the image.
-/

namespace Perimeter

open Function
open List (Forall₂ IsChain)

namespace Picture

variable {p : Picture} {o : Orientation} {a e : Edge} {l v : List Edge}

/-- The edges of a closed walk, grouped by visits: a visit goes on as long as the walk turns on the
spot, also across the end of the list to its beginning. -/
def visits (p : Picture) (o : Orientation) (edges : List Edge) : List (List Edge) :=
  (edges.rtakeWhile (p.turnsOn o) ++ edges.rdropWhile (p.turnsOn o)).splitBy fun e _ => p.turnsOn o e

/-- Every edge of the walk belongs to one of its visits. -/
theorem flatten_visits_isRotated (p : Picture) (o : Orientation) (edges : List Edge) :
    (p.visits o edges).flatten ~r edges := by
  rw [visits, List.flatten_splitBy]
  have hsplit := List.rdropWhile_append_rtakeWhile (p := p.turnsOn o) (l := edges)
  nth_rewrite 3 [← hsplit]
  exact List.isRotated_append

/-- The walk comes from the one edge to the other by turning on the spot. -/
def TurnsTo (p : Picture) (o : Orientation) (e e' : Edge) : Prop :=
  p.turnsOn o e = true ∧ p.nextEdge o e = e'

theorem TurnsTo.point_eq {e' : Edge} (h : p.TurnsTo o e e') : e'.point = e.point := by
  obtain ⟨hturn, rfl⟩ := h
  rw [nextEdge, of_decide_eq_true hturn]
  rfl

/-- The whole visit of a pixel: the walk came by a step, turned on the spot and leaves by a step. -/
structure IsVisit (p : Picture) (o : Orientation) (v : List Edge) : Prop where
  ne_nil : v ≠ []
  boundary : ∀ e ∈ v, p.IsBoundary o e
  entered : ∀ e ∈ v.head?, p.entersInside o e = !p.leftIsBorder o e
  turns : v.IsChain (p.TurnsTo o)
  left : ∀ e ∈ v.getLast?, p.turnsOn o e = false

theorem point_eq_of_isChain (h : (a :: l).IsChain (p.TurnsTo o)) : ∀ e ∈ a :: l, e.point = a.point := by
  induction l generalizing a with
  | nil =>
    intro e he
    rw [List.mem_singleton.1 he]
  | cons b l ih =>
    obtain ⟨hturn, hrest⟩ := List.isChain_cons_cons.1 h
    intro e he
    rcases List.mem_cons.1 he with rfl | he
    · rfl
    · rw [ih hrest e he, hturn.point_eq]

theorem isChain_turnsTo (hturns : v.IsChain fun e _ => p.turnsOn o e = true)
    (hchain : v.IsChain fun e e' => p.nextEdge o e = e') : v.IsChain (p.TurnsTo o) := by
  rw [List.isChain_iff_forall_rel_of_append_cons_cons] at hturns hchain ⊢
  intro e e' l l' heq
  exact ⟨hturns heq, hchain heq⟩

theorem isChain_of_turns (h : ∀ e ∈ v, p.turnsOn o e = true) :
    v.IsChain fun e _ => p.turnsOn o e = true := by
  rw [List.isChain_iff_forall_rel_of_append_cons_cons]
  rintro e e' l l' rfl
  exact h e (by simp)

theorem visits_of_turns (hne : v ≠ []) (h : ∀ e ∈ v, p.turnsOn o e = true) : p.visits o v = [v] := by
  rw [visits, List.rtakeWhile_eq_self_iff.2 h, List.rdropWhile_eq_nil_iff.2 h, List.append_nil]
  exact List.splitBy_of_isChain hne (isChain_of_turns h)

/-- Grouping a part of a walk that was entered by a step and ends with one gives whole visits. -/
theorem isVisit_of_mem {gs : List (List Edge)} (hnil : [] ∉ gs)
    (hturns : ∀ v ∈ gs, v.IsChain fun e _ => p.turnsOn o e = true)
    (hsteps : gs.IsChain fun v _ => ∀ e ∈ v.getLast?, p.turnsOn o e = false)
    (hchain : gs.flatten.IsChain fun e e' => p.nextEdge o e = e')
    (hboundary : ∀ e ∈ gs.flatten, p.IsBoundary o e)
    (hentered : ∀ e ∈ gs.flatten.head?, p.entersInside o e = !p.leftIsBorder o e)
    (hleft : ∀ e ∈ gs.flatten.getLast?, p.turnsOn o e = false) :
    ∀ v ∈ gs, p.IsVisit o v := by
  induction gs with
  | nil =>
    intro v hv
    cases hv
  | cons v gs ih =>
    rw [List.flatten_cons] at hchain hboundary hentered hleft
    obtain ⟨hv, hrest, hlink⟩ := List.isChain_append.1 hchain
    have hne : v ≠ [] := fun h => hnil (h ▸ List.mem_cons_self)
    have hlast : ∀ e ∈ v.getLast?, p.turnsOn o e = false := by
      cases gs with
      | nil => simpa using hleft
      | cons w gs => exact (List.isChain_cons_cons.1 hsteps).1
    have hvisit : p.IsVisit o v :=
      { ne_nil := hne
        boundary := fun e he => hboundary e (List.mem_append_left _ he)
        entered := fun e he => hentered e (List.mem_head?_append_of_mem_head? he)
        turns := isChain_turnsTo (hturns v List.mem_cons_self) hv
        left := hlast }
    -- The next visit is entered by the step with which this one is left.
    have hnext : ∀ e ∈ gs.flatten.head?, p.entersInside o e = !p.leftIsBorder o e := by
      intro e he
      obtain ⟨e', he'⟩ : ∃ e', e' ∈ v.getLast? := ⟨_, List.getLast_mem_getLast? hne⟩
      rw [← hlink e' he' e he]
      exact (hvisit.boundary e' (List.mem_of_mem_getLast? he')).entersInside_nextEdge
        (of_decide_eq_false (hlast e' he'))
    have hvisits := ih (fun h => hnil (List.mem_cons_of_mem _ h))
      (fun w hw => hturns w (List.mem_cons_of_mem _ hw)) hsteps.tail hrest
      (fun e he => hboundary e (List.mem_append_right _ he)) hnext
      (fun e he => hleft e (List.mem_getLast?_append_of_mem_getLast? he))
    intro w hw
    rcases List.mem_cons.1 hw with rfl | hw
    · exact hvisit
    · exact hvisits w hw

/-! ## Looking back on a pixel that is never left -/

/-- What the look back finds is an edge of the contour. -/
theorem IsBoundary.exists_of_entersInside (h : p.IsBoundary o e) (hinside : p.entersInside o e = true) :
    ∃ k, p.leftIsBorder o ((p.nextEdge o)^[k] e) = false := by
  have hgo : ∀ n e, p.IsBoundary o e → entersInside.go p o n e.reverse = true →
      ∃ k, p.leftIsBorder o ((p.nextEdge o)^[k] e) = false := by
    intro n
    induction n with
    | zero =>
      intro e _ hgo
      cases hgo
    | succ n ih =>
      intro e he hgo
      rw [entersInside_go_succ, leftIsBorder_reverse, Bool.or_eq_true, Bool.and_eq_true,
        decide_eq_true_eq, Bool.not_eq_true'] at hgo
      rcases hgo with hborder | ⟨hback, hgo⟩
      · exact ⟨0, hborder⟩
      · -- The look back goes on from the edge before, which the round comes to at its end.
        obtain ⟨i, hi⟩ := he.exists_nextEdge_iterate
        have hprev := he.iterate i
        have hmove := hprev.move_reverse
        have hundo := Edge.apply_reverse_apply o ((p.nextEdge o)^[i] e) (p.moveAt o e i)
        rw [hi, hback] at hmove
        rw [moveAt, ← Picture.nextEdge, hi, ← hmove] at hundo
        rw [hundo] at hgo
        obtain ⟨k, hk⟩ := ih _ hprev hgo
        rw [← iterate_add_apply] at hk
        exact ⟨_, hk⟩
  exact hgo 4 e h hinside

theorem IsBoundary.entersInside_iterate (h : p.IsBoundary o e) (hinside : p.entersInside o e = true)
    {n : Nat} (hturns : ∀ i < n, p.moveAt o e i = .turn) :
    p.entersInside o ((p.nextEdge o)^[n] e) = true := by
  induction n with
  | zero => exact hinside
  | succ n ih =>
    rw [iterate_succ_apply', (h.iterate n).entersInside_nextEdge_turn (hturns n (by omega)),
      ih fun i hi => hturns i (by omega)]
    rfl

/-- A walk that only turned on the spot until it was back looks back on all of its edges. -/
theorem IsBoundary.entersInside_eq_any (h : p.IsBoundary o e) {n : Nat} (hpos : 0 < n)
    (hback : (p.nextEdge o)^[n] e = e) (hturns : ∀ i < n, p.moveAt o e i = .turn) :
    p.entersInside o e =
      ((List.range n).map fun i => (p.nextEdge o)^[i] e).any fun f => !p.leftIsBorder o f := by
  rw [Bool.eq_iff_iff, List.any_eq_true]
  constructor
  · intro hinside
    obtain ⟨k, hk⟩ := h.exists_of_entersInside hinside
    refine ⟨_, List.mem_map.2 ⟨k % n, List.mem_range.2 (Nat.mod_lt k hpos), rfl⟩, ?_⟩
    rw [IsPeriodicPt.iterate_mod_apply hback, hk]
    rfl
  · rintro ⟨f, hf, hborder⟩
    obtain ⟨i, hi, rfl⟩ := List.mem_map.1 hf
    rw [List.mem_range] at hi
    have hinside := (h.iterate i).entersInside_iterate (n := n - i)
      (entersInside_of_leftIsBorder_eq_false (by simpa using hborder)) fun j hj => by
        rw [moveAt_iterate]
        exact hturns _ (by omega)
    rwa [← iterate_add_apply, Nat.sub_add_cancel hi.le, hback] at hinside

/-! ## Around the cycle -/

section Cycle

variable {start : Edge} {edges : List Edge}

theorem head?_rdropWhile (hhead : edges.head? = some start)
    (hstep : ∃ e ∈ edges, p.turnsOn o e = false) :
    ∃ l, edges.rdropWhile (p.turnsOn o) = start :: l := by
  obtain ⟨l, rfl⟩ := List.head?_eq_some_iff.1 hhead
  obtain ⟨e, he, hleaves⟩ := hstep
  have hne : (start :: l).rdropWhile (p.turnsOn o) ≠ [] := by
    intro hnil
    have hturn := List.rdropWhile_eq_nil_iff.1 hnil e he
    rw [hleaves] at hturn
    cases hturn
  obtain ⟨b, l', heq⟩ := List.exists_cons_of_ne_nil hne
  have hprefix := List.rdropWhile_prefix (p.turnsOn o) (start :: l)
  rw [heq, List.cons_prefix_cons] at hprefix
  exact ⟨l', by rw [heq, hprefix.1]⟩

/-- If the walk makes a step at all, its edges fall into whole visits. -/
theorem isVisit_of_mem_visits (hhead : edges.head? = some start)
    (hchain : (edges ++ [start]).IsChain fun e e' => p.nextEdge o e = e')
    (hboundary : ∀ e ∈ edges, p.IsBoundary o e) (hstep : ∃ e ∈ edges, p.turnsOn o e = false) :
    ∀ v ∈ p.visits o edges, p.IsVisit o v := by
  obtain ⟨l, hl⟩ := head?_rdropWhile hhead hstep
  have hsplit := List.rdropWhile_append_rtakeWhile (p := p.turnsOn o) (l := edges)
  have hlast := List.rdropWhile_last_not (p.turnsOn o) edges (by rw [hl]; exact List.cons_ne_nil _ _)
  have hflatten : (p.visits o edges).flatten = edges.rtakeWhile (p.turnsOn o) ++ start :: l := by
    rw [visits, List.flatten_splitBy, hl]
  simp only [hl, Bool.not_eq_true] at hsplit hlast
  rw [← hsplit, List.append_assoc] at hchain
  obtain ⟨hfirst, hwrap, hlink⟩ := List.isChain_append.1 hchain
  have hmem : ∀ e ∈ (p.visits o edges).flatten, e ∈ edges :=
    fun e he => (p.flatten_visits_isRotated o edges).perm.mem_iff.1 he
  refine isVisit_of_mem (List.nil_notMem_splitBy _ _) (fun v hv => List.isChain_of_mem_splitBy hv)
    ((List.isChain_getLast_head_splitBy _ _).imp ?_) ?_ (fun e he => hboundary e (hmem e he)) ?_ ?_
  · rintro v w ⟨hv, -, hturn⟩ e he
    rw [← List.getLast_of_mem_getLast? he]
    exact hturn
  · rw [hflatten, List.isChain_split]
    exact ⟨hwrap, hfirst⟩
  · -- The first visit is entered by the last step of the walk.
    intro e he
    have hhead' : e ∈ (edges.rtakeWhile (p.turnsOn o) ++ [start]).head? := by
      rw [hflatten] at he
      cases hB : edges.rtakeWhile (p.turnsOn o) with
      | nil => simpa [hB] using he
      | cons b l' => simpa [hB] using he
    have hstart := hlink _ (List.getLast_mem_getLast? (List.cons_ne_nil start l)) e hhead'
    rw [← hstart]
    refine IsBoundary.entersInside_nextEdge (hboundary _ ?_) (of_decide_eq_false hlast)
    rw [← hsplit]
    exact List.mem_append_left _ (List.getLast_mem _)
  · intro e he
    rw [hflatten, List.getLast?_append_cons] at he
    rw [← List.getLast_of_mem_getLast? he]
    exact hlast

theorem exists_visits_eq_cons (hhead : edges.head? = some start) :
    ∃ v vs, p.visits o edges = v :: vs ∧ start ∈ v := by
  obtain ⟨v, vs, hvisits⟩ : ∃ v vs, p.visits o edges = v :: vs := by
    refine List.exists_cons_of_ne_nil fun hnil => ?_
    have hempty := (p.flatten_visits_isRotated o edges).perm
    rw [hnil, List.flatten_nil, List.nil_perm] at hempty
    rw [hempty] at hhead
    cases hhead
  refine ⟨v, vs, hvisits, ?_⟩
  have hflatten : v ++ vs.flatten = (p.visits o edges).flatten := by
    rw [hvisits, List.flatten_cons]
  have hmem : ∀ e ∈ v ++ vs.flatten, e ∈ edges := by
    intro e he
    rw [hflatten] at he
    exact (p.flatten_visits_isRotated o edges).perm.mem_iff.1 he
  cases vs with
  | nil =>
    have hstart := List.mem_of_mem_head? hhead
    rw [← (p.flatten_visits_isRotated o edges).perm.mem_iff, ← hflatten] at hstart
    simpa using hstart
  | cons w vs =>
    have hsteps := List.isChain_getLast_head_splitBy (fun e _ => p.turnsOn o e)
      (edges.rtakeWhile (p.turnsOn o) ++ edges.rdropWhile (p.turnsOn o))
    rw [← visits, hvisits] at hsteps
    obtain ⟨hne, -, hleaves⟩ := (List.isChain_cons_cons.1 hsteps).1
    have hlast : v.getLast hne ∉ edges.rtakeWhile (p.turnsOn o) := by
      intro hin
      rw [List.mem_rtakeWhile_imp hin] at hleaves
      cases hleaves
    obtain ⟨l, hl⟩ := head?_rdropWhile hhead
      ⟨_, hmem _ (List.mem_append_left _ (List.getLast_mem hne)), hleaves⟩
    rw [visits, List.flatten_splitBy, hl] at hflatten
    -- The visit is left by a step, so it goes on beyond the edges that the walk has turned over.
    obtain ⟨l', hl', -⟩ | ⟨l', rfl, hl'⟩ := List.append_eq_append_iff.1 hflatten
    · exact absurd (hl' ▸ List.mem_append_left _ (List.getLast_mem hne)) hlast
    · cases l' with
      | nil => simp at hlast
      | cons e l' =>
        rw [List.cons_append, List.cons.injEq] at hl'
        rw [hl'.1]
        exact List.mem_append_right _ List.mem_cons_self

end Cycle

end Picture

namespace Walk

variable {p : Picture} {plan : Plan} {a : Edge} {l v : List Edge}

/-- The visit shows up in the points: it has an edge inside the image, or all of them show up. -/
def Plan.showsVisit (plan : Plan) (p : Picture) (v : List Edge) : Bool :=
  !plan.suppressBorder || v.any fun e => !p.leftIsBorder plan.orientation e

/-- All edges of the visit lie on the pixel. -/
def VisitOf (v : List Edge) (q : Point) : Prop := v ≠ [] ∧ ∀ e ∈ v, e.point = q

/-- Turning on the spot makes no points, and the look back from the last edge finds the edges that were
turned over. -/
theorem Plan.shown_turns (plan : Plan) (ha : p.IsBoundary plan.orientation a)
    (hturns : (a :: l).IsChain (p.TurnsTo plan.orientation))
    (hleft : ∀ e ∈ (a :: l).getLast?, p.turnsOn plan.orientation e = false) :
    plan.shown p (a :: l) =
      if plan.shows p a || plan.showsVisit p l then [a.point] else [] := by
  induction l generalizing a with
  | nil =>
    have hstep := hleft a rfl
    rw [shown_singleton, hstep]
    cases hsuppress : plan.suppressBorder <;> simp [showsVisit, shows, hsuppress]
  | cons b l ih =>
    obtain ⟨hturn, hrest⟩ := List.isChain_cons_cons.1 hturns
    have hrest' : ∀ e ∈ (b :: l).getLast?, p.turnsOn plan.orientation e = false :=
      fun e he => hleft e (by rw [List.getLast?_cons_cons]; exact he)
    have hpoint := hturn.point_eq
    obtain ⟨ht, rfl⟩ := hturn
    have hshows : (plan.shows p (p.nextEdge plan.orientation a) || plan.showsVisit p l) =
        (plan.shows p a || plan.showsVisit p (p.nextEdge plan.orientation a :: l)) := by
      rw [shows, ha.entersInside_nextEdge_turn (of_decide_eq_true ht)]
      simp only [shows, showsVisit, List.any_cons]
      cases plan.suppressBorder <;> simp [Bool.or_assoc]
    rw [← List.singleton_append, shown_append, shown_singleton, ht, ih ha.nextEdge hrest hrest', hpoint,
      hshows]
    rfl

/-- A visit makes one point, if it shows up. -/
theorem Plan.shown_visit (plan : Plan) (h : p.IsVisit plan.orientation v) :
    ∃ q, VisitOf v q ∧ plan.shown p v = if plan.showsVisit p v then [q] else [] := by
  obtain ⟨a, l, rfl⟩ := List.exists_cons_of_ne_nil h.ne_nil
  refine ⟨a.point, ⟨h.ne_nil, Picture.point_eq_of_isChain h.turns⟩, ?_⟩
  have hshows : (plan.shows p a || plan.showsVisit p l) = plan.showsVisit p (a :: l) := by
    simp only [shows, showsVisit, h.entered a rfl, List.any_cons]
    cases plan.suppressBorder <;> simp
  rw [plan.shown_turns (h.boundary a List.mem_cons_self) h.turns h.left, hshows]

theorem Plan.shown_flatten (plan : Plan) {gs : List (List Edge)}
    (h : ∀ v ∈ gs, p.IsVisit plan.orientation v) :
    Forall₂ VisitOf (gs.filter (plan.showsVisit p)) (plan.shown p gs.flatten) := by
  induction gs with
  | nil => exact .nil
  | cons v gs ih =>
    have hrest := ih fun w hw => h w (List.mem_cons_of_mem _ hw)
    obtain ⟨q, hq, hshown⟩ := plan.shown_visit (h v List.mem_cons_self)
    rw [List.flatten_cons, shown_append, hshown, List.filter_cons]
    split_ifs
    · exact .cons hq hrest
    · exact hrest

theorem Plan.shown_eq_nil (plan : Plan) (h : ∀ e ∈ l, p.turnsOn plan.orientation e = true) :
    plan.shown p l = [] := by
  rw [shown, List.filter_eq_nil_iff.2, List.map_nil]
  intro e he
  simp [h e he]

/-- The points of the edges are those of the visits, around the cycle. -/
theorem Plan.shown_visits (plan : Plan) (p : Picture) (edges : List Edge) :
    plan.shown p (p.visits plan.orientation edges).flatten = plan.shown p edges := by
  have hsplit := List.rdropWhile_append_rtakeWhile (p := p.turnsOn plan.orientation) (l := edges)
  have hnone := plan.shown_eq_nil (p := p) (l := edges.rtakeWhile (p.turnsOn plan.orientation))
    fun e he => List.mem_rtakeWhile_imp he
  rw [Picture.visits, List.flatten_splitBy, shown_append, hnone, List.nil_append]
  nth_rewrite 2 [← hsplit]
  rw [shown_append, hnone, List.append_nil]

/-! ## Closed walks -/

namespace Plan.Closes

variable {n : Nat}

theorem suppressing (h : plan.Closes p n) (b : Bool) : (plan.suppressing b).Closes p n :=
  ⟨h.start, h.runsTo.suppressing b, h.back⟩

theorem head?_edges (h : plan.Closes p n) : (plan.edges p).head? = some plan.start := by
  rw [h.runsTo.edges_eq h.start, List.range_succ_eq_map]
  rfl

theorem isChain_edges (h : plan.Closes p n) :
    (plan.edges p ++ [plan.start]).IsChain fun e e' => p.nextEdge plan.orientation e = e' := by
  have hall : ((List.range (n + 2)).map fun i => (p.nextEdge plan.orientation)^[i] plan.start).IsChain
      fun e e' => p.nextEdge plan.orientation e = e' := by
    rw [List.isChain_map, List.isChain_range_succ]
    intro i _
    exact (iterate_succ_apply' _ i _).symm
  rwa [List.range_succ, List.map_append, List.map_singleton, h.back, ← h.runsTo.edges_eq h.start]
    at hall

theorem stepsIn_eq_zero_iff (h : plan.Closes p n) :
    p.stepsIn plan.orientation plan.start (n + 1) = 0 ↔
      ∀ e ∈ plan.edges p, p.turnsOn plan.orientation e = true := by
  rw [Picture.stepsIn_eq_zero]
  constructor
  · intro hturns e he
    obtain ⟨i, hi, rfl⟩ := h.mem_edges.1 he
    exact decide_eq_true (hturns i hi)
  · intro hturns i hi
    exact of_decide_eq_true (hturns _ (h.mem_edges.2 ⟨i, hi, rfl⟩))

theorem points_of_step (h : plan.Closes p n) (hsize : p.WordSized)
    (hsteps : p.stepsIn plan.orientation plan.start (n + 1) ≠ 0) :
    Forall₂ VisitOf ((p.visits plan.orientation (plan.edges p)).filter (plan.showsVisit p))
      (plan.run p).points.toList := by
  have hpoints := plan.points_after hsize h.start (n + 1)
  rw [← h.runsTo.edges_eq h.start, ← shown_visits] at hpoints
  have hfinish : (plan.finish (plan.after p (n + 1))).points = (plan.after p (n + 1)).points := by
    simp [finish, hsteps]
  rw [h.runsTo.run_eq h.start, hfinish, hpoints]
  refine plan.shown_flatten (Picture.isVisit_of_mem_visits h.head?_edges h.isChain_edges ?_ ?_)
  · intro e he
    obtain ⟨i, -, rfl⟩ := h.mem_edges.1 he
    exact h.start.iterate i
  · rw [Ne, h.stepsIn_eq_zero_iff] at hsteps
    push Not at hsteps
    simpa using hsteps

/-- A walk without a step is one visit, of an isolated pixel. -/
theorem points_of_isolated (h : plan.Closes p n) (hsize : p.WordSized)
    (hsteps : p.stepsIn plan.orientation plan.start (n + 1) = 0) :
    Forall₂ VisitOf ((p.visits plan.orientation (plan.edges p)).filter (plan.showsVisit p))
      (plan.run p).points.toList := by
  have hturns := h.stepsIn_eq_zero_iff.1 hsteps
  have hpoints := plan.points_after hsize h.start (n + 1)
  rw [← h.runsTo.edges_eq h.start, shown_eq_nil plan hturns, Array.toList_eq_nil_iff] at hpoints
  obtain ⟨l, hl⟩ := List.head?_eq_some_iff.1 h.head?_edges
  have hvisit : VisitOf (plan.edges p) plan.start.point := by
    have hchain := Picture.isChain_turnsTo (Picture.isChain_of_turns hturns)
      (List.isChain_append.1 h.isChain_edges).1
    rw [hl] at hchain ⊢
    exact ⟨List.cons_ne_nil _ _, Picture.point_eq_of_isChain hchain⟩
  have hshows : (plan.after p (n + 1)).visible = plan.showsVisit p (plan.edges p) := by
    rw [plan.visible_after hsize h.start, h.back, shows, showsVisit, h.runsTo.edges_eq h.start,
      h.start.entersInside_eq_any (Nat.succ_pos n) h.back (Picture.stepsIn_eq_zero.1 hsteps)]
  rw [h.runsTo.run_eq h.start, Picture.visits_of_turns hvisit.1 hturns, finish, after_length, hsteps,
    after_edge, h.back, hpoints, hshows, List.filter_singleton]
  cases plan.showsVisit p (plan.edges p) with
  | false => simp
  | true => simpa using hvisit

theorem points (h : plan.Closes p n) (hsize : p.WordSized) :
    Forall₂ VisitOf ((p.visits plan.orientation (plan.edges p)).filter (plan.showsVisit p))
      (plan.run p).points.toList := by
  by_cases hsteps : p.stepsIn plan.orientation plan.start (n + 1) = 0
  · exact h.points_of_isolated hsize hsteps
  · exact h.points_of_step hsize hsteps

end Plan.Closes

end Walk

namespace Trace

variable {p : Picture} {s : Seed} {opts : Options}

theorem plan_suppressing {pl : Walk.Plan} (h : plan p s opts = .ok pl) (b : Bool) :
    plan p s { opts with suppressBorder := b } = .ok (pl.suppressing b) := by
  simp only [plan, bind_eq_ok] at h ⊢
  obtain ⟨stop, hcheck, start, hstart, hpl⟩ := h
  cases hpl
  exact ⟨stop, hcheck, start, hstart, rfl⟩

/-- Border suppression removes exactly the visits on the image border. A closed walk makes one point for
each of its visits, beginning with the one that contains the start. With border suppression it makes
those of the visits that have an edge inside the image, in the same order, and has the same result. -/
theorem run_suppressed (hsize : p.WordSized) {out : Walk.Outcome}
    (hrun : run p s { opts with suppressBorder := false } = .ok out)
    (hclosed : out.result.stop = out.result.start) :
    ∃ pl out', plan p s { opts with suppressBorder := false } = .ok pl ∧
      run p s { opts with suppressBorder := true } = .ok out' ∧ out'.result = out.result ∧
      (p.visits opts.orientation (pl.edges p)).flatten ~r pl.edges p ∧
      (∃ v vs, p.visits opts.orientation (pl.edges p) = v :: vs ∧ out.result.start ∈ v) ∧
      Forall₂ Walk.VisitOf (p.visits opts.orientation (pl.edges p)) out.points.toList ∧
      Forall₂ Walk.VisitOf
        ((p.visits opts.orientation (pl.edges p)).filter fun v =>
          v.any fun e => !p.leftIsBorder opts.orientation e)
        out'.points.toList := by
  obtain ⟨pl, hplan, rfl⟩ := run_eq_ok.1 hrun
  obtain ⟨horientation, hstart⟩ := isBoundary_of_plan hplan
  simp only at horientation hstart
  rw [← horientation] at hstart
  obtain ⟨n, hcloses⟩ := Walk.Plan.exists_closes hstart hclosed
  have hoff := hcloses.points hsize
  have hon := (hcloses.suppressing true).points hsize
  obtain ⟨-, hvisible, -⟩ := plan_eq_ok hplan
  refine ⟨pl, _, hplan, run_eq (plan_suppressing hplan true), pl.result_run_suppressing hstart true,
    p.flatten_visits_isRotated _ _, Picture.exists_visits_eq_cons hcloses.head?_edges, ?_⟩
  rw [← horientation]
  constructor
  · rwa [List.filter_eq_self.2] at hoff
    intro v _
    rw [Walk.Plan.showsVisit, hvisible]
    rfl
  · rw [pl.edges_suppressing hstart] at hon
    exact hon

/-- A row of three pixels at the upper border, with one pixel below that is visited from above. -/
theorem run_suppressed_row :
    let p : Picture := ⟨3, 3, fun x y => y == 0 || x == 1 && y == 1⟩
    let s : Seed := ⟨0, 0, .auto⟩
    p.WordSized ∧
    ∃ out, run p s { suppressBorder := false } = .ok out ∧ out.result.stop = out.result.start ∧
    ∃ pl out', plan p s { suppressBorder := false } = .ok pl ∧
      run p s { suppressBorder := true } = .ok out' ∧ out'.result = out.result ∧
      (p.visits .counterclockwise (pl.edges p)).flatten ~r pl.edges p ∧
      (∃ v vs, p.visits .counterclockwise (pl.edges p) = v :: vs ∧ out.result.start ∈ v) ∧
      Forall₂ Walk.VisitOf (p.visits .counterclockwise (pl.edges p)) out.points.toList ∧
      Forall₂ Walk.VisitOf
        ((p.visits .counterclockwise (pl.edges p)).filter fun v =>
          v.any fun e => !p.leftIsBorder .counterclockwise e)
        out'.points.toList :=
  ⟨by decide, _, rfl, by decide, @run_suppressed _ _ {} (by decide) _ rfl (by decide)⟩

end Trace

end Perimeter
