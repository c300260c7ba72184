import Perimeter.Proofs.Trace.Reversal
import Perimeter.Proofs.Trace.Splice

/-!
# Other starts on the same loop

A closed walk can set out from any of its edges. Its edges then are the same, read off the cycle from
another place, and so are its counters and its points, also where the start lies in the middle of a
visit: a visit makes its point with the edge that leaves it. Whether the walk from there closes, too, is
a matter of the limit alone. A walk ends with the step that uses up its limit, even if turns on the spot
are left before the round is over.
-/

namespace Perimeter

open Function

/-! ## One round from different edges -/

namespace Picture

variable {p : Picture} {o : Orientation} {e : Edge}

/-- The edges of one round, from the given one on. -/
noncomputable def lap (p : Picture) (o : Orientation) (e : Edge) : List Edge :=
  (List.range (p.round o e)).map fun i => (p.nextEdge o)^[i] e

/-- Set out from another edge, a round comes along the same edges. -/
theorem IsBoundary.lap_iterate_isRotated (h : p.IsBoundary o e) {k : Nat} (hk : k < p.round o e) :
    p.lap o ((p.nextEdge o)^[k] e) ~r p.lap o e := by
  -- The first round is cut where the second one sets out.
  obtain ⟨m, hm⟩ := Nat.exists_eq_add_of_lt hk
  have hfirst : p.lap o e =
      ((List.range k).map fun i => (p.nextEdge o)^[i] e) ++
        (List.range (m + 1)).map fun i => (p.nextEdge o)^[k + i] e := by
    rw [lap, hm, Nat.add_assoc, List.range_add, List.map_append, List.map_map]
    rfl
  have hsecond : p.lap o ((p.nextEdge o)^[k] e) =
      ((List.range (m + 1)).map fun i => (p.nextEdge o)^[k + i] e) ++
        (List.range k).map fun i => (p.nextEdge o)^[i] e := by
    rw [lap, h.round_iterate, hm, show k + m + 1 = m + 1 + k by omega, List.range_add, List.map_append,
      List.map_map]
    congr 1
    · refine List.map_congr_left fun i _ => ?_
      rw [← iterate_add_apply, Nat.add_comm]
    · -- Behind the start of the first round its edges come again.
      refine List.map_congr_left fun i _ => ?_
      rw [comp_apply, ← iterate_add_apply, show m + 1 + i + k = i + (k + m + 1) by omega, ← hm,
        iterate_add_apply, iterate_round]
  rw [hfirst, hsecond]
  exact List.isRotated_append

theorem stepsIn_iterate_round (p : Picture) (o : Orientation) (e : Edge) (k : Nat) :
    p.stepsIn o ((p.nextEdge o)^[k] e) (p.round o e) = p.stepsIn o e (p.round o e) := by
  have hfirst := stepsIn_add (p := p) (o := o) (e := e) k (p.round o e)
  have hsecond := stepsIn_add (p := p) (o := o) (e := e) (p.round o e) k
  rw [iterate_round, Nat.add_comm (p.round o e) k] at hsecond
  omega

/-- The last move of a round comes to its start from the edge before. -/
theorem IsBoundary.stepsIn_round (h : p.IsBoundary o e) :
    p.stepsIn o e (p.round o e) =
      p.stepsIn o e (p.round o e - 1) + (p.move o (p.previousEdge o e)).steps := by
  have hlast : p.nextEdge o ((p.nextEdge o)^[p.round o e - 1] e) = e := by
    rw [← iterate_succ_apply' (p.nextEdge o), Nat.succ_eq_add_one, Nat.sub_add_cancel h.round_pos,
      iterate_round]
  have hprevious := (h.iterate (p.round o e - 1)).previousEdge_nextEdge
  rw [hlast] at hprevious
  rw [hprevious, ← moveAt, ← stepsIn_succ, Nat.sub_add_cancel h.round_pos]

theorem IsBoundary.point_iterate_of_isolated (h : p.IsBoundary o e)
    (hsteps : p.stepsIn o e (p.round o e) = 0) (k : Nat) :
    ((p.nextEdge o)^[k] e).point = e.point := by
  have hmem : ((p.nextEdge o)^[k] e).point ∈ p.region e.point := h.joined_iterate k
  rwa [h.stepsIn_round_eq_zero.1 hsteps] at hmem

/-- All edges around an isolated pixel look back on the same ones. -/
theorem IsBoundary.entersInside_iterate_of_isolated (h : p.IsBoundary o e)
    (hsteps : p.stepsIn o e (p.round o e) = 0) {k : Nat} (hk : k < p.round o e) :
    p.entersInside o ((p.nextEdge o)^[k] e) = p.entersInside o e := by
  have hlap : ∀ f, p.IsBoundary o f → p.stepsIn o f (p.round o f) = 0 →
      p.entersInside o f = (p.lap o f).any fun g => !p.leftIsBorder o g :=
    fun f hf hzero => hf.entersInside_eq_any hf.round_pos (p.iterate_round o f) (stepsIn_eq_zero.1 hzero)
  rw [hlap e h hsteps, hlap _ (h.iterate k) (by rw [h.round_iterate, stepsIn_iterate_round, hsteps])]
  exact (h.lap_iterate_isRotated hk).perm.any_eq

end Picture

/-! ## Walks from different edges -/

namespace Walk

variable {p : Picture} {plan : Plan}

theorem Plan.shown_isRotated (plan : Plan) {l l' : List Edge} (h : l ~r l') :
    plan.shown p l ~r plan.shown p l' := by
  obtain ⟨n, rfl⟩ := h
  have hrotated : plan.shown p (l.take (n % l.length)) ++ plan.shown p (l.drop (n % l.length)) ~r
      plan.shown p (l.drop (n % l.length)) ++ plan.shown p (l.take (n % l.length)) :=
    List.isRotated_append
  rwa [← shown_append, ← shown_append, List.take_append_drop, ← List.rotate_eq_drop_append_take_mod]
    at hrotated

theorem Plan.shown_lap_of_isolated (plan : Plan)
    (hsteps : p.stepsIn plan.orientation plan.start (p.round plan.orientation plan.start) = 0) :
    plan.shown p (p.lap plan.orientation plan.start) = [] := by
  refine plan.shown_eq_nil fun e he => ?_
  obtain ⟨i, hi, rfl⟩ := List.mem_map.1 he
  exact decide_eq_true (Picture.stepsIn_eq_zero.1 hsteps i (List.mem_range.1 hi))

/-- A walk without an extra stop is complete exactly if its limit leaves room for all moves of the round
before the last one. -/
theorem Plan.complete_iff (plan : Plan) (hstart : p.IsBoundary plan.orientation plan.start)
    (hstop : plan.stop = none) :
    (plan.run p).result.complete = true ↔
      p.stepsIn plan.orientation plan.start (p.round plan.orientation plan.start - 1) <
        max plan.limit 1 := by
  have hends : (plan.run p).result.complete = true ↔ (plan.run p).result.stop = plan.start := by
    simp [run, finish, endsOn_iff, hstop]
  rw [hends, ← runsTo_round_iff hstart hstop]
  constructor
  · intro hclosed
    obtain ⟨n, hcloses⟩ := exists_closes hstart hclosed
    rw [← hcloses.succ_eq_round]
    exact hcloses.runsTo
  · intro hruns
    rw [hruns.run_eq hstart, finish_stop, after_edge, Nat.sub_add_cancel hstart.round_pos,
      Picture.iterate_round]

section

variable (plan : Plan) (hstart : p.IsBoundary plan.orientation plan.start) (hstop : plan.stop = none)
  (hcomplete : (plan.run p).result.complete = true)
include hstart hstop hcomplete

/-- A complete walk without an extra stop has made one round. -/
theorem Plan.run_of_complete :
    plan.run p = plan.finish (plan.after p (p.round plan.orientation plan.start)) := by
  have hruns := (runsTo_round_iff hstart hstop).2 ((plan.complete_iff hstart hstop).1 hcomplete)
  rw [hruns.run_eq hstart, Nat.sub_add_cancel hstart.round_pos]

theorem Plan.result_of_complete :
    (plan.run p).result =
      { start := plan.start
        stop := plan.start
        length := max (p.stepsIn plan.orientation plan.start (p.round plan.orientation plan.start)) 1
        turns := p.turnsIn plan.orientation plan.start (p.round plan.orientation plan.start)
        complete := true } := by
  have hnonneg := Picture.stepsIn_nonneg (p := p) (o := plan.orientation) (e := plan.start)
    (p.round plan.orientation plan.start)
  rw [plan.run_of_complete hstart hstop hcomplete]
  by_cases hsteps : p.stepsIn plan.orientation plan.start (p.round plan.orientation plan.start) = 0
  · simp [finish, endsOn, hsteps, p.iterate_round]
  · have hlength : max (p.stepsIn plan.orientation plan.start (p.round plan.orientation plan.start)) 1 =
        p.stepsIn plan.orientation plan.start (p.round plan.orientation plan.start) := by omega
    simp [finish, endsOn, hsteps, p.iterate_round, hlength]

theorem Plan.mem_edges_of_complete {e : Edge} :
    e ∈ plan.edges p ↔
      ∃ k < p.round plan.orientation plan.start, (p.nextEdge plan.orientation)^[k] plan.start = e := by
  have hruns := (runsTo_round_iff hstart hstop).2 ((plan.complete_iff hstart hstop).1 hcomplete)
  rw [hruns.edges_eq hstart, Nat.sub_add_cancel hstart.round_pos, List.mem_map]
  simp only [List.mem_range]

/-- The points of a complete walk are those of the edges of one round. Around an isolated pixel no edge
makes a point, and the end of the walk makes one. -/
theorem Plan.points_of_complete (hsize : p.WordSized) :
    (plan.run p).points.toList =
      if p.stepsIn plan.orientation plan.start (p.round plan.orientation plan.start) = 0 then
        if plan.shows p plan.start then [plan.start.point] else []
      else plan.shown p (p.lap plan.orientation plan.start) := by
  have hpoints := plan.points_after hsize hstart (p.round plan.orientation plan.start)
  have hvisible := plan.visible_after hsize hstart (p.round plan.orientation plan.start)
  rw [p.iterate_round] at hvisible
  rw [← Picture.lap] at hpoints
  rw [plan.run_of_complete hstart hstop hcomplete]
  split_ifs with hsteps hshows
  · -- The walk has left no pixel, and the end of the walk sees what the round has seen.
    have hnone := plan.shown_lap_of_isolated hsteps
    rw [hnone, Array.toList_eq_nil_iff] at hpoints
    simp [finish, hsteps, p.iterate_round, hpoints, hvisible, hshows]
  · have hnone := plan.shown_lap_of_isolated hsteps
    rw [hnone, Array.toList_eq_nil_iff] at hpoints
    simp [finish, hsteps, p.iterate_round, hpoints, hvisible, hshows]
  · simpa [finish, hsteps] using hpoints

end

/-- The same walk from another edge. -/
def Plan.startingOn (plan : Plan) (e : Edge) : Plan := { plan with start := e }

section

variable (plan : Plan) (e : Edge)

@[simp] theorem Plan.startingOn_start : (plan.startingOn e).start = e := rfl
@[simp] theorem Plan.startingOn_orientation : (plan.startingOn e).orientation = plan.orientation := rfl
@[simp] theorem Plan.shows_startingOn : (plan.startingOn e).shows p = plan.shows p := rfl
@[simp] theorem Plan.shown_startingOn : (plan.startingOn e).shown p = plan.shown p := rfl

end

/-- Two walks on one loop: the counters agree, and the points are the same around the cycle. -/
structure Rotates (out out' : Outcome) : Prop where
  length : out'.result.length = out.result.length
  turns : out'.result.turns = out.result.turns
  complete : out'.result.complete = out.result.complete
  points : out'.points.toList ~r out.points.toList

section

variable (plan : Plan) (hstart : p.IsBoundary plan.orientation plan.start) (hstop : plan.stop = none)
  (hcomplete : (plan.run p).result.complete = true) {e : Edge} {k : Nat}
  (hk : k < p.round plan.orientation plan.start)
  (he : (p.nextEdge plan.orientation)^[k] plan.start = e)
include hstart hstop hcomplete he

/-- Whether the walk from another edge of the round is complete. -/
theorem Plan.complete_startingOn_iff :
    ((plan.startingOn e).run p).result.complete = true ↔
      (plan.run p).result.length < plan.limit ∨
        p.stepsIn plan.orientation plan.start (p.round plan.orientation plan.start) = 0 ∨
        p.move plan.orientation (p.previousEdge plan.orientation e) ≠ .turn := by
  have he' : p.IsBoundary plan.orientation e := he ▸ hstart.iterate k
  have hround : p.round plan.orientation e = p.round plan.orientation plan.start := by
    rw [← he, hstart.round_iterate]
  have hsteps := p.stepsIn_iterate_round plan.orientation plan.start k
  rw [he] at hsteps
  have hroom := (plan.complete_iff hstart hstop).1 hcomplete
  have hbefore := Picture.stepsIn_nonneg (p := p) (o := plan.orientation) (e := e)
    (p.round plan.orientation plan.start - 1)
  -- Both rounds have the same steps, and the last move of each is the one that comes to its start.
  have hlast := hstart.stepsIn_round
  have hlast' := he'.stepsIn_round
  rw [hround] at hlast'
  have hle := Move.steps_le_one (p.move plan.orientation (p.previousEdge plan.orientation plan.start))
  have hle' := Move.steps_le_one (p.move plan.orientation (p.previousEdge plan.orientation e))
  have hnonneg' := Move.steps_nonneg (p.move plan.orientation (p.previousEdge plan.orientation e))
  rw [(plan.startingOn e).complete_iff he' hstop, plan.result_of_complete hstart hstop hcomplete,
    startingOn_start, startingOn_orientation, hround, Ne, ← Move.steps_eq_zero]
  change _ < max plan.limit 1 ↔ max _ 1 < plan.limit ∨ _
  omega

include hk in
/-- Complete walks from two edges of one round. -/
theorem Plan.rotates_startingOn (hsize : p.WordSized)
    (hcomplete' : ((plan.startingOn e).run p).result.complete = true) :
    Rotates (plan.run p) ((plan.startingOn e).run p) := by
  have hstart' : p.IsBoundary plan.orientation e := he ▸ hstart.iterate k
  have hround : p.round plan.orientation e = p.round plan.orientation plan.start := by
    rw [← he, hstart.round_iterate]
  have hsteps : p.stepsIn plan.orientation e (p.round plan.orientation plan.start) =
      p.stepsIn plan.orientation plan.start (p.round plan.orientation plan.start) := by
    rw [← he, p.stepsIn_iterate_round]
  have hturns : p.turnsIn plan.orientation e (p.round plan.orientation plan.start) =
      p.turnsIn plan.orientation plan.start (p.round plan.orientation plan.start) := by
    rw [← he, p.turnsIn_iterate_round]
  have hresult := (plan.startingOn e).result_of_complete hstart' hstop hcomplete'
  have hpoints := (plan.startingOn e).points_of_complete hstart' hstop hcomplete' hsize
  simp only [startingOn_start, startingOn_orientation, shows_startingOn, shown_startingOn, hround,
    hsteps, hturns] at hresult hpoints
  refine ⟨?_, ?_, hcomplete'.trans hcomplete.symm, ?_⟩
  · rw [hresult, plan.result_of_complete hstart hstop hcomplete]
  · rw [hresult, plan.result_of_complete hstart hstop hcomplete]
  · rw [hpoints, plan.points_of_complete hstart hstop hcomplete hsize]
    by_cases hzero : p.stepsIn plan.orientation plan.start (p.round plan.orientation plan.start) = 0
    · have hpoint : e.point = plan.start.point := by
        rw [← he, hstart.point_iterate_of_isolated hzero]
      have hshows : plan.shows p e = plan.shows p plan.start := by
        rw [shows, shows, ← he, hstart.entersInside_iterate_of_isolated hzero hk]
      simp only [if_pos hzero, hpoint, hshows]
      exact .refl _
    · have hlap := hstart.lap_iterate_isRotated hk
      rw [he] at hlap
      rw [if_neg hzero, if_neg hzero]
      exact plan.shown_isRotated hlap

end

end Walk

namespace Trace

variable {p : Picture} {opts : Options} {s t : Edge} {pl : Walk.Plan} {out : Walk.Outcome}

/-- Every start on a loop gives the same contour, read off from another place. If a trace without cap and
stop closes, the one from any of its edges closes, too, with the same counters and with the same points
around the cycle. The exception are walks from an edge that is come to by a turn, around more than one
pixel, when the limit is used up by the steps of the round. No limit of a picture whose upper limit is
exact is used up. -/
theorem run_rotated (hsize : p.WordSized) (hmax : opts.maxLength = 0) (hstop : opts.stopAt = none)
    (hs : p.IsBoundary opts.orientation s) (hplan : plan p s.seed opts = .ok pl)
    (hrun : run p s.seed opts = .ok out) (hclosed : out.result.complete = true) (ht : t ∈ pl.edges p) :
    ∃ out', run p t.seed opts = .ok out' ∧ out'.result.start = t ∧
      (out'.result.complete = true ↔
        out.result.length < Picture.upperLimit p.width p.height ∨ p.region s.point = {s.point} ∨
          p.move opts.orientation (p.previousEdge opts.orientation t) ≠ .turn) ∧
      (p.Fits → out.result.length < Picture.upperLimit p.width p.height) ∧
      (out'.result.complete = true → Walk.Rotates out out') := by
  obtain rfl : pl = freePlan opts s (effectiveLimit p opts.maxLength) := by
    have hpl := plan_seed opts hmax.ge hstop hs
    rw [hplan, Except.ok.injEq] at hpl
    exact hpl
  rw [run_eq hplan, Except.ok.injEq] at hrun
  subst hrun
  obtain ⟨k, hk, hkt⟩ := ((freePlan opts s _).mem_edges_of_complete hs rfl hclosed).1 ht
  have ht' : p.IsBoundary opts.orientation t := hkt ▸ hs.iterate k
  refine ⟨_, run_eq (plan_seed opts hmax.ge hstop ht'), rfl, ?_, ?_, ?_⟩
  · have hlimit : effectiveLimit p opts.maxLength = Picture.upperLimit p.width p.height := by
      rw [hmax, effectiveLimit_zero]
    rw [← hs.stepsIn_round_eq_zero, ← hlimit]
    exact (freePlan opts s _).complete_startingOn_iff hs rfl hclosed hkt
  · intro hfit
    obtain ⟨hx, hy, hw, hh⟩ := hs.contains
    have harea := mul_pos (show 0 < p.width by omega) (show 0 < p.height by omega)
    have hlt := hs.stepsIn_round_lt
    rw [(freePlan opts s _).result_of_complete hs rfl hclosed, hfit.upperLimit_eq]
    exact max_lt hlt (by omega)
  · exact (freePlan opts s _).rotates_startingOn hs rfl hclosed hk hkt hsize

/-- A row of three pixels at the upper border with one pixel below, with border suppression. The second
start lies between two turns at the end of the row. -/
theorem run_rotated_row :
    let p : Picture := ⟨3, 3, fun x y => y == 0 || x == 1 && y == 1⟩
    let s : Edge := ⟨0, 0, .left⟩
    let t : Edge := ⟨2, 0, .up⟩
    let opts : Options := { suppressBorder := true }
    p.WordSized ∧ p.IsBoundary .counterclockwise s ∧
    ∃ pl out, plan p s.seed opts = .ok pl ∧ run p s.seed opts = .ok out ∧
      out.result.complete = true ∧ t ∈ pl.edges p ∧
    ∃ out', run p t.seed opts = .ok out' ∧ out'.result.start = t ∧
      (out'.result.complete = true ↔
        out.result.length < Picture.upperLimit p.width p.height ∨ p.region s.point = {s.point} ∨
          p.move .counterclockwise (p.previousEdge .counterclockwise t) ≠ .turn) ∧
      (p.Fits → out.result.length < Picture.upperLimit p.width p.height) ∧
      (out'.result.complete = true → Walk.Rotates out out') := by
  intro p s t opts
  refine ⟨by decide, by decide, _, _, rfl, rfl, by decide, by decide, ?_⟩
  exact @run_rotated p opts s t _ _ (by decide) rfl rfl (by decide) rfl rfl (by decide)
    (by decide)

/-- A trace that closes with the step that uses up its limit, and one from the next edge of the same
loop, which is come to by a turn. It ends with a turn still to make. In this picture the upper limit
leaves the machine word and comes to three. -/
theorem run_rotated_exhausted :
    let p : Picture := ⟨3, 2 ^ 62, fun x y => decide (x + y ≤ 1)⟩
    let s : Edge := ⟨0, 0, .up⟩
    let t : Edge := ⟨0, 0, .right⟩
    let opts : Options := { orientation := .clockwise }
    p.IsBoundary .clockwise s ∧ ∃ pl out, plan p s.seed opts = .ok pl ∧ run p s.seed opts = .ok out ∧
      out.result.complete = true ∧ out.result.length = Picture.upperLimit p.width p.height ∧
      t ∈ pl.edges p ∧ ∃ out', run p t.seed opts = .ok out' ∧ out'.result.complete = false ∧
      out'.result.turns ≠ out.result.turns :=
  ⟨by decide, _, _, rfl, rfl, by decide, by decide, by decide, _, rfl, by decide, by decide⟩

end Trace

end Perimeter
