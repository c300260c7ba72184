import Mathlib.Algebra.BigOperators.Intervals
import Perimeter.Proofs.Trace.Closing
import Perimeter.Proofs.Walk.Visibility

/-!
# Closed walks backwards

The walk of the opposite orientation from the turned edge comes along the same edges in the opposite
order, each of them turned, and makes the same kinds of moves. So one round has the same length and the
same turns both ways. A step that the one walk makes from pixel to pixel leads back in the other, so the
pixels that the one leaves are those that the other comes to.
-/

namespace Perimeter

open Function Finset

namespace Picture

variable {p : Picture} {o : Orientation} {e : Edge}

/-! ## Edges and moves in the opposite order -/

theorem leftPoint_reverse (o : Orientation) (e : Edge) :
    e.reverse.leftPoint o.opposite = e.leftPoint o := by
  simp [Edge.leftPoint, Edge.reverse]

/-- A boundary edge turned around is one of the opposite orientation. -/
theorem IsBoundary.reverse (h : p.IsBoundary o e) : p.IsBoundary o.opposite e.reverse := by
  refine ⟨h.1, ?_⟩
  rw [inkLeft, leftPoint_reverse]
  exact h.2

/-- The edge before, found by a move of the opposite orientation. -/
def previousEdge (p : Picture) (o : Orientation) (e : Edge) : Edge :=
  (p.nextEdge o.opposite e.reverse).reverse

theorem IsBoundary.previousEdge (h : p.IsBoundary o e) : p.IsBoundary o (p.previousEdge o e) := by
  have hback := h.reverse.nextEdge.reverse
  rwa [Orientation.opposite_opposite] at hback

theorem IsBoundary.previousEdge_nextEdge (h : p.IsBoundary o e) :
    p.previousEdge o (p.nextEdge o e) = e := by
  rw [Picture.previousEdge, h.nextEdge_reverse, Edge.reverse_reverse]

theorem IsBoundary.nextEdge_previousEdge (h : p.IsBoundary o e) :
    p.nextEdge o (p.previousEdge o e) = e := by
  have hforth := h.reverse.nextEdge_reverse
  rwa [Orientation.opposite_opposite, Edge.reverse_reverse] at hforth

theorem invOn_previousEdge (p : Picture) (o : Orientation) :
    Set.InvOn (p.previousEdge o) (p.nextEdge o) {e | p.IsBoundary o e} {e | p.IsBoundary o e} :=
  ⟨fun _ he => IsBoundary.previousEdge_nextEdge he, fun _ he => IsBoundary.nextEdge_previousEdge he⟩

/-- The moves permute the boundary edges. -/
theorem bijOn_nextEdge (p : Picture) (o : Orientation) :
    Set.BijOn (p.nextEdge o) {e | p.IsBoundary o e} {e | p.IsBoundary o e} :=
  (p.invOn_previousEdge o).bijOn (p.mapsTo_boundary o) fun _ he => IsBoundary.previousEdge he

/-- Equally many moves lead back. -/
theorem IsBoundary.iterate_reverse (h : p.IsBoundary o e) (n : Nat) :
    (p.nextEdge o.opposite)^[n] ((p.nextEdge o)^[n] e).reverse = e.reverse := by
  induction n with
  | zero => rfl
  | succ n ih =>
    rw [iterate_succ_apply, iterate_succ_apply', (h.iterate n).nextEdge_reverse, ih]

/-- The edges of a round in the opposite order. -/
theorem IsBoundary.iterate_opposite (h : p.IsBoundary o e) {i : Nat} (hi : i ≤ p.round o e) :
    (p.nextEdge o.opposite)^[i] e.reverse = ((p.nextEdge o)^[p.round o e - i] e).reverse := by
  have hback := (h.iterate (p.round o e - i)).iterate_reverse i
  rwa [← iterate_add_apply, Nat.add_sub_cancel' hi, iterate_round] at hback

theorem IsBoundary.moveAt_opposite (h : p.IsBoundary o e) {i : Nat} (hi : i < p.round o e) :
    p.moveAt o.opposite e.reverse i = p.moveAt o e (p.round o e - 1 - i) := by
  have hlast : p.round o e - i = p.round o e - 1 - i + 1 := by omega
  rw [moveAt, h.iterate_opposite hi.le, hlast, iterate_succ_apply', (h.iterate _).move_reverse, moveAt]

theorem IsBoundary.round_opposite_le (h : p.IsBoundary o e) :
    p.round o.opposite e.reverse ≤ p.round o e := by
  have hback := h.iterate_opposite le_rfl
  rw [Nat.sub_self, iterate_zero_apply] at hback
  exact IsPeriodicPt.minimalPeriod_le h.round_pos hback

/-- A round has the same number of moves both ways. -/
theorem IsBoundary.round_opposite (h : p.IsBoundary o e) :
    p.round o.opposite e.reverse = p.round o e := by
  have hforth := h.reverse.round_opposite_le
  rw [Orientation.opposite_opposite, Edge.reverse_reverse] at hforth
  exact Nat.le_antisymm h.round_opposite_le hforth

/-- A round has the same number of steps both ways. -/
theorem IsBoundary.stepsIn_opposite (h : p.IsBoundary o e) :
    p.stepsIn o.opposite e.reverse (p.round o e) = p.stepsIn o e (p.round o e) := by
  rw [stepsIn, stepsIn, ← sum_range_reflect fun i => (p.moveAt o e i).steps]
  refine sum_congr rfl fun i hi => ?_
  rw [h.moveAt_opposite (mem_range.1 hi)]

/-- A round makes the same turns both ways. -/
theorem IsBoundary.turnsIn_opposite (h : p.IsBoundary o e) :
    p.turnsIn o.opposite e.reverse (p.round o e) = p.turnsIn o e (p.round o e) := by
  rw [turnsIn, turnsIn, ← sum_range_reflect fun i => (p.moveAt o e i).quarters]
  refine sum_congr rfl fun i hi => ?_
  rw [h.moveAt_opposite (mem_range.1 hi)]

/-! ## Pixels that are left, and pixels that are come to -/

/-- The numbers of those of the first `n` moves that are steps. -/
def stepTimes (p : Picture) (o : Orientation) (e : Edge) (n : Nat) : List Nat :=
  (List.range n).filter fun i => p.moveAt o e i ≠ .turn

/-- The pixels that the first `n` moves leave. -/
def departures (p : Picture) (o : Orientation) (e : Edge) (n : Nat) : List Point :=
  (p.stepTimes o e n).map fun i => ((p.nextEdge o)^[i] e).point

/-- The pixels that the first `n` moves come to. -/
def arrivals (p : Picture) (o : Orientation) (e : Edge) (n : Nat) : List Point :=
  (p.stepTimes o e n).map fun i => ((p.nextEdge o)^[i + 1] e).point

theorem stepTimes_succ (n : Nat) :
    p.stepTimes o e (n + 1) =
      p.stepTimes o e n ++ if p.moveAt o e n = .turn then [] else [n] := by
  rw [stepTimes, List.range_succ, List.filter_append, List.filter_singleton, stepTimes]
  by_cases hm : p.moveAt o e n = .turn <;> simp [hm]

theorem departures_succ (n : Nat) :
    p.departures o e (n + 1) = p.departures o e n ++
      if p.moveAt o e n = .turn then [] else [((p.nextEdge o)^[n] e).point] := by
  rw [departures, stepTimes_succ, List.map_append, departures]
  split_ifs <;> rfl

theorem arrivals_succ (n : Nat) :
    p.arrivals o e (n + 1) = p.arrivals o e n ++
      if p.moveAt o e n = .turn then [] else [((p.nextEdge o)^[n + 1] e).point] := by
  rw [arrivals, stepTimes_succ, List.map_append, arrivals]
  split_ifs <;> rfl

theorem departures_eq_nil {n : Nat} (h : p.stepsIn o e n = 0) : p.departures o e n = [] := by
  refine List.map_eq_nil_iff.2 (List.filter_eq_nil_iff.2 fun i hi => ?_)
  simpa using stepsIn_eq_zero.1 h i (List.mem_range.1 hi)

/-- A walk leaves the pixels that it comes to, but for the first and the last one. -/
theorem departures_concat (p : Picture) (o : Orientation) (e : Edge) (n : Nat) :
    p.departures o e n ++ [((p.nextEdge o)^[n] e).point] = e.point :: p.arrivals o e n := by
  induction n with
  | zero => rfl
  | succ n ih =>
    rw [departures_succ, arrivals_succ]
    split_ifs with hm
    · have hstay : ((p.nextEdge o)^[n + 1] e).point = ((p.nextEdge o)^[n] e).point := by
        rw [iterate_succ_apply', nextEdge, ← moveAt, hm]
        rfl
      rw [List.append_nil, List.append_nil, hstay, ih]
    · rw [ih, ← List.cons_append]

/-- The walk backwards leaves the pixels that the walk comes to, in the opposite order. -/
theorem IsBoundary.departures_opposite (h : p.IsBoundary o e) :
    p.departures o.opposite e.reverse (p.round o e) = (p.arrivals o e (p.round o e)).reverse := by
  have hrange : (List.range (p.round o e)).reverse =
      (List.range (p.round o e)).map fun i => p.round o e - 1 - i := by
    rw [List.range_eq_range', List.reverse_range', ← List.range_eq_range']
    simp
  rw [arrivals, stepTimes, ← List.map_reverse, ← List.filter_reverse, hrange, List.filter_map,
    List.map_map, departures, stepTimes]
  have htimes : ((List.range (p.round o e)).filter fun i => p.moveAt o.opposite e.reverse i ≠ .turn) =
      (List.range (p.round o e)).filter
        ((fun i => decide (p.moveAt o e i ≠ .turn)) ∘ fun i => p.round o e - 1 - i) := by
    refine List.filter_congr fun i hi => ?_
    rw [h.moveAt_opposite (List.mem_range.1 hi)]
    rfl
  rw [htimes]
  refine List.map_congr_left fun i hi => ?_
  have hlt := List.mem_range.1 (List.mem_of_mem_filter hi)
  have hnext : p.round o e - i = p.round o e - 1 - i + 1 := by omega
  rw [h.iterate_opposite hlt.le, hnext]
  rfl

/-- The pixels of a round begin with that of the start, and backwards the others come in the opposite
order. -/
theorem IsBoundary.exists_departures (h : p.IsBoundary o e)
    (hsteps : p.stepsIn o e (p.round o e) ≠ 0) :
    ∃ rest, p.departures o e (p.round o e) = e.point :: rest ∧
      p.departures o.opposite e.reverse (p.round o e) = e.point :: rest.reverse := by
  have hround := p.departures_concat o e (p.round o e)
  rw [iterate_round] at hround
  cases hleft : p.departures o e (p.round o e) with
  | nil =>
    have hnone : p.stepTimes o e (p.round o e) = [] := List.map_eq_nil_iff.1 hleft
    refine absurd (stepsIn_eq_zero.2 fun i hi => ?_) hsteps
    simpa using List.filter_eq_nil_iff.1 hnone i (List.mem_range.2 hi)
  | cons q rest =>
    rw [hleft, List.cons_append, List.cons.injEq] at hround
    obtain ⟨rfl, harrivals⟩ := hround
    refine ⟨rest, rfl, ?_⟩
    rw [h.departures_opposite, ← harrivals, List.reverse_append, List.reverse_singleton,
      List.singleton_append]

end Picture

/-! ## Walks without border suppression -/

namespace Walk

variable {p : Picture} {plan : Plan}

theorem Plan.visible_after_of_not_suppressing (h : plan.suppressBorder = false) (n : Nat) :
    (plan.after p n).visible = true := by
  induction n with
  | zero => simp [initial, h]
  | succ n ih =>
    rw [after_succ, step_visible, h, ih]
    split <;> rfl

/-- Without border suppression the points are the pixels that the walk leaves. -/
theorem Plan.points_after_of_not_suppressing (h : plan.suppressBorder = false) (n : Nat) :
    (plan.after p n).points.toList = p.departures plan.orientation plan.start n := by
  induction n with
  | zero => rfl
  | succ n ih =>
    rw [after_succ, step_points, visible_after_of_not_suppressing h, after_edge, Array.toList_append, ih,
      Picture.departures_succ, pointsLeft, Picture.moveAt]
    cases p.move plan.orientation ((p.nextEdge plan.orientation)^[n] plan.start) <;> rfl

/-- The points of a walk that is back on its start: around an isolated pixel it is that pixel. -/
theorem Plan.points_finish_of_not_suppressing (h : plan.suppressBorder = false) {n : Nat}
    (hback : (p.nextEdge plan.orientation)^[n] plan.start = plan.start) :
    (plan.finish (plan.after p n)).points.toList =
      if p.stepsIn plan.orientation plan.start n = 0 then [plan.start.point]
      else p.departures plan.orientation plan.start n := by
  have hpoints := points_after_of_not_suppressing (p := p) h n
  split_ifs with hzero
  · rw [Picture.departures_eq_nil hzero] at hpoints
    simp [finish, hzero, hback, visible_after_of_not_suppressing h, hpoints]
  · simpa [finish, hzero] using hpoints

/-- A walk turned around: the opposite orientation from the turned start. -/
def Plan.turned (plan : Plan) : Plan :=
  { plan with orientation := plan.orientation.opposite, start := plan.start.reverse }

/-- A walk and the same walk turned around: the counters agree, and the points after the first one come
in the opposite order if none of them was suppressed. -/
structure Reverses (suppressed : Bool) (out out' : Outcome) : Prop where
  length : out'.result.length = out.result.length
  turns : out'.result.turns = out.result.turns
  complete : out'.result.complete = out.result.complete
  points : suppressed = false → ∃ q rest,
    out.points.toList = q :: rest ∧ out'.points.toList = q :: rest.reverse

/-- A walk whose limit leaves room for the round makes the same round turned around. -/
theorem Plan.reverses_turned (plan : Plan) (hstart : p.IsBoundary plan.orientation plan.start)
    (hstop : plan.stop = none)
    (hlimit : p.stepsIn plan.orientation plan.start (p.round plan.orientation plan.start)
      < plan.limit) :
    Reverses plan.suppressBorder (plan.run p) (plan.turned.run p) := by
  have hturned : p.IsBoundary plan.turned.orientation plan.turned.start := hstart.reverse
  have hround : p.round plan.turned.orientation plan.turned.start =
      p.round plan.orientation plan.start := hstart.round_opposite
  have hsteps : p.stepsIn plan.turned.orientation plan.turned.start
      (p.round plan.orientation plan.start) =
        p.stepsIn plan.orientation plan.start (p.round plan.orientation plan.start) :=
    hstart.stepsIn_opposite
  have hturns : p.turnsIn plan.turned.orientation plan.turned.start
      (p.round plan.orientation plan.start) =
        p.turnsIn plan.orientation plan.start (p.round plan.orientation plan.start) :=
    hstart.turnsIn_opposite
  have hback := p.iterate_round plan.orientation plan.start
  have hback' := p.iterate_round plan.turned.orientation plan.turned.start
  rw [hround] at hback'
  rw [run_of_stepsIn_lt hstart hstop hlimit,
    run_of_stepsIn_lt hturned hstop (by rwa [hround, hsteps]), hround]
  constructor
  · simp only [finish, after_length, after_edge, hsteps, hback, hback', beq_self_eq_true]
  · simp only [finish, after_turns, hturns]
  · simp [finish, endsOn, hback, hback']
  · intro hoff
    rw [points_finish_of_not_suppressing hoff hback,
      plan.turned.points_finish_of_not_suppressing hoff hback', hsteps]
    split_ifs with hzero
    · exact ⟨plan.start.point, [], rfl, rfl⟩
    · obtain ⟨rest, hleft, hleft'⟩ := hstart.exists_departures hzero
      exact ⟨plan.start.point, rest, hleft, hleft'⟩

end Walk

namespace Trace

variable {p : Picture}

/-- The moves permute the boundary edges, and turning around, a move of the opposite orientation and
turning around again undo a move. So a trace without cap and stop that closes before its limit is used
up makes the same round when it is turned around: with the same length and the same turns it closes,
and without border suppression the points after the first one come in the opposite order. -/
theorem run_reversed (p : Picture) :
    (∀ o, Set.BijOn (p.nextEdge o) {e | p.IsBoundary o e} {e | p.IsBoundary o e} ∧
      Set.InvOn (fun e => (p.nextEdge o.opposite e.reverse).reverse) (p.nextEdge o)
        {e | p.IsBoundary o e} {e | p.IsBoundary o e}) ∧
    ∀ (opts : Options) (e : Edge) (out : Walk.Outcome), opts.maxLength = 0 → opts.stopAt = none →
      p.IsBoundary opts.orientation e → run p e.seed opts = .ok out → out.result.stop = e →
      out.result.length < Picture.upperLimit p.width p.height →
      ∃ out', run p e.reverse.seed { opts with orientation := opts.orientation.opposite } = .ok out' ∧
        Walk.Reverses opts.suppressBorder out out' := by
  refine ⟨fun o => ⟨p.bijOn_nextEdge o, p.invOn_previousEdge o⟩, ?_⟩
  intro opts e out hmax hstop he hrun hclosed hlength
  have hplan := plan_seed opts hmax.ge hstop he
  have hplan' :=
    plan_seed { opts with orientation := opts.orientation.opposite } hmax.ge hstop he.reverse
  rw [run_eq hplan, Except.ok.injEq] at hrun
  subst hrun
  obtain ⟨n, hcloses⟩ := Walk.Plan.exists_closes he hclosed
  refine ⟨_, run_eq hplan', Walk.Plan.reverses_turned
    (freePlan opts e (effectiveLimit p opts.maxLength)) he rfl ?_⟩
  -- The limit is that of the picture, and a round counts for no less than its steps.
  rw [hcloses.runsTo.run_eq he, hcloses.succ_eq_round] at hlength
  simp only [Walk.Plan.finish, Walk.Plan.after_length] at hlength
  show _ < effectiveLimit p opts.maxLength
  rw [hmax, effectiveLimit_zero]
  refine lt_of_le_of_lt ?_ hlength
  split_ifs with hisolated
  · simp only [Bool.and_eq_true, beq_iff_eq] at hisolated
    exact hisolated.1.le.trans Int.one_nonneg
  · exact le_rfl

/-- Three pixels around a corner, from a turn on the first of them. -/
theorem run_reversed_corner :
    let p : Picture := ⟨3, 3, fun x y => decide (x + y ≤ 1)⟩
    let e : Edge := ⟨0, 0, .up⟩
    let opts : Options := { orientation := .clockwise }
    p.IsBoundary .clockwise e ∧ ∃ out, run p e.seed opts = .ok out ∧ out.result.stop = e ∧
      out.result.length < Picture.upperLimit p.width p.height ∧
      ∃ out', run p e.reverse.seed { opts with orientation := .counterclockwise } = .ok out' ∧
        Walk.Reverses opts.suppressBorder out out' :=
  ⟨by decide, _, rfl, by decide, by decide,
    (run_reversed _).2 { orientation := .clockwise } ⟨0, 0, .up⟩ _ rfl rfl (by decide) rfl (by decide)
      (by decide)⟩

/-- A trace that closes with the step that uses up its limit can be cut short when it is turned around,
with a turn still to make. In this picture the upper limit leaves the machine word and comes to three. -/
theorem run_reversed_exhausted :
    let p : Picture := ⟨3, 2 ^ 62, fun x y => decide (x + y ≤ 1)⟩
    let e : Edge := ⟨0, 0, .up⟩
    let opts : Options := { orientation := .clockwise }
    p.IsBoundary .clockwise e ∧ ∃ out, run p e.seed opts = .ok out ∧ out.result.stop = e ∧
      out.result.complete = true ∧ out.result.length = Picture.upperLimit p.width p.height ∧
      ∃ out', run p e.reverse.seed { opts with orientation := .counterclockwise } = .ok out' ∧
        out'.result.complete = false ∧ out'.result.turns ≠ out.result.turns :=
  ⟨by decide, _, rfl, by decide, by decide, by decide, _, rfl, by decide, by decide⟩

end Trace

end Perimeter
