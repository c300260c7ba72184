import Perimeter.Proofs.Trace.Reversal
import Perimeter.Proofs.Trace.Session
import Perimeter.Proofs.Walk.Separation

/-!
# Traces are paths

The pixels that a walk leaves, and the one that it stands on at last, are a path: each is a neighbour of
the one before. The counters of a walk describe it. It has as many points as steps, and the net number of
turns is what lies between its first heading and its last.
-/

namespace Perimeter

open Function

/-! ## Headings -/

namespace Heading

variable (o : Orientation) (h : Heading)

/-- The heading after a net number of quarter turns to the right. -/
def turned (n : Int) : Heading := (turnRight o)^[(n % 4).toNat] h

theorem isPeriodicPt_turnRight : IsPeriodicPt (turnRight o) 4 h := by
  cases o <;> cases h <;> rfl

theorem turned_turned (m n : Int) : (h.turned o m).turned o n = h.turned o (m + n) := by
  have hmod : ((m + n) % 4).toNat = ((n % 4).toNat + (m % 4).toNat) % 4 := by omega
  rw [turned, turned, turned, ← iterate_add_apply, hmod, (isPeriodicPt_turnRight o h).iterate_mod_apply]

theorem after_eq_turned (m : Move) : h.after o m = h.turned o m.quarters := by
  cases o <;> cases h <;> cases m <;> decide

end Heading

namespace Picture

variable {p : Picture} {o : Orientation} {e : Edge}

theorem headingAt_eq_turned (p : Picture) (o : Orientation) (e : Edge) (n : Nat) :
    p.headingAt o e n = e.heading.turned o (p.turnsIn o e n) := by
  induction n with
  | zero => rfl
  | succ n ih => rw [headingAt_succ, Heading.after_eq_turned, ih, Heading.turned_turned, turnsIn_succ]

/-! ## Pixels -/

theorem length_departures (p : Picture) (o : Orientation) (e : Edge) (n : Nat) :
    ((p.departures o e n).length : Int) = p.stepsIn o e n := by
  induction n with
  | zero => rfl
  | succ n ih =>
    rw [departures_succ, List.length_append, Nat.cast_add, ih, stepsIn_succ]
    cases p.moveAt o e n <;> rfl

/-- The pixels that a walk leaves, and the one where it is then, are neighbours in a row. -/
theorem isChain_departures (p : Picture) (o : Orientation) (e : Edge) (n : Nat) :
    (p.departures o e n ++ [((p.nextEdge o)^[n] e).point]).IsChain fun a b => a.distance b = 1 := by
  induction n with
  | zero => exact .singleton _
  | succ n ih =>
    rw [departures_succ, iterate_succ_apply', nextEdge, ← moveAt]
    split_ifs with hmove
    · rw [hmove, List.append_nil]
      exact ih
    · rw [List.append_assoc, List.singleton_append, List.isChain_split]
      exact ⟨ih, List.isChain_pair.2 (Edge.distance_apply o _ hmove)⟩

theorem eq_point_of_mem_head? {n : Nat} {q : Point} (hq : q ∈ (p.departures o e n).head?) :
    q = e.point := by
  have hhead := List.mem_head?_append_of_mem_head? (t := [((p.nextEdge o)^[n] e).point]) hq
  rw [departures_concat] at hhead
  exact (Option.some.inj hhead).symm

/-- The bordering side of a boundary edge is one of the four sides of an ink pixel. -/
theorem IsBoundary.exists_side (h : p.IsBoundary o e) :
    p.Contains e.x e.y ∧ p.ink e.x e.y = true ∧
      ∃ d : Heading, p.isInk (e.x + d.dx) (e.y + d.dy) = false := by
  have hink := h.1
  rw [isInk, Bool.and_eq_true] at hink
  exact ⟨h.contains, hink.2, e.heading.turnLeft o, h.2⟩

end Picture

namespace Walk

variable {p : Picture} {plan : Plan}

/-- The points of a walk describe a path along the boundary. -/
structure Outcome.IsPath (out : Outcome) (p : Picture) : Prop where
  /-- There is a point for each step. -/
  length : (out.points.size : Int) = out.result.length
  /-- Every point is an ink pixel inside the image with background, or the outside, on one of its four
  sides. -/
  boundary : ∀ q ∈ out.points.toList, p.Contains q.x q.y ∧ p.ink q.x q.y = true ∧
    ∃ d : Heading, p.isInk (q.x + d.dx) (q.y + d.dy) = false
  first : 0 < out.result.length → out.points.toList.head? = some out.result.start.point
  neighbours : out.points.toList.IsChain fun a b => a.distance b = 1
  /-- Back on its start edge, the walk has come there from a neighbour. -/
  closes : out.result.stop = out.result.start → 2 ≤ out.points.size →
    ∀ a ∈ out.points.toList.head?, ∀ b ∈ out.points.toList.getLast?, b.distance a = 1

section

variable (hstart : p.IsBoundary plan.orientation plan.start) {n : Nat}
include hstart

theorem Plan.isPath_of_isolated (hoff : plan.suppressBorder = false)
    (hsteps : p.stepsIn plan.orientation plan.start n = 0)
    (hback : (p.nextEdge plan.orientation)^[n] plan.start = plan.start) :
    (plan.finish (plan.after p n)).IsPath p := by
  have hpoints := plan.points_finish_of_not_suppressing hoff hback
  rw [if_pos hsteps] at hpoints
  have hsize : (plan.finish (plan.after p n)).points.size = 1 := by
    rw [← Array.length_toList, hpoints, List.length_singleton]
  have hlength : (plan.finish (plan.after p n)).result.length = 1 := by
    simp [finish, hsteps, hback]
  refine ⟨by rw [hsize, hlength]; rfl, ?_, fun _ => by rw [hpoints]; rfl,
    by rw [hpoints]; exact .singleton _, fun _ htwo => by omega⟩
  intro q hq
  rw [hpoints, List.mem_singleton] at hq
  subst hq
  exact hstart.exists_side

theorem Plan.isPath_of_not_isolated (hoff : plan.suppressBorder = false)
    (hmoved : p.stepsIn plan.orientation plan.start n = 0 →
      (p.nextEdge plan.orientation)^[n] plan.start ≠ plan.start) :
    (plan.finish (plan.after p n)).IsPath p := by
  have hpoints := plan.points_after_of_not_suppressing (p := p) hoff n
  have hlength := p.length_departures plan.orientation plan.start n
  obtain ⟨hneighbours, -, hlast⟩ :=
    List.isChain_append.1 (p.isChain_departures plan.orientation plan.start n)
  rw [finish_of_not_isolated (by rwa [after_length, after_edge]), after_length, after_edge]
  have hfirst : ∀ a ∈ (plan.after p n).points.toList.head?, a = plan.start.point := by
    rw [hpoints]
    exact fun _ => Picture.eq_point_of_mem_head?
  rw [← hpoints] at hlength hneighbours hlast
  refine ⟨hlength, ?_, ?_, hneighbours, ?_⟩
  · intro q hq
    rw [hpoints] at hq
    obtain ⟨i, -, rfl⟩ := List.mem_map.1 hq
    exact (hstart.iterate i).exists_side
  · intro hpos
    obtain ⟨q, hq⟩ : ∃ q, q ∈ (plan.after p n).points.toList.head? := by
      cases hlist : (plan.after p n).points.toList with
      | nil =>
        rw [hlist] at hlength
        exact absurd hlength hpos.ne
      | cons q rest => exact ⟨q, rfl⟩
    rw [Option.mem_def.1 hq, hfirst q hq]
  · -- The last pixel that the walk has left is a neighbour of the one where it is.
    intro hback _ a ha b hb
    have hend := hlast b hb _ rfl
    rwa [show (p.nextEdge plan.orientation)^[n] plan.start = plan.start from hback,
      ← hfirst a ha] at hend

/-- Without border suppression the points of a walk are a path along the boundary. -/
theorem Plan.isPath_run (hoff : plan.suppressBorder = false) : (plan.run p).IsPath p := by
  obtain ⟨n, -, hrun⟩ := plan.exists_runsTo hstart
  rw [hrun.run_eq hstart]
  by_cases hisolated : p.stepsIn plan.orientation plan.start (n + 1) = 0 ∧
      (p.nextEdge plan.orientation)^[n + 1] plan.start = plan.start
  · exact isPath_of_isolated hstart hoff hisolated.1 hisolated.2
  · exact isPath_of_not_isolated hstart hoff fun hsteps hback => hisolated ⟨hsteps, hback⟩

/-- The last heading of a walk is the first one, turned as often as the walk has turned. -/
theorem Plan.heading_run :
    (plan.run p).result.stop.heading =
      plan.start.heading.turned plan.orientation (plan.run p).result.turns := by
  obtain ⟨n, -, hrun⟩ := plan.exists_runsTo hstart
  rw [hrun.run_eq hstart, finish_stop, after_edge]
  simp only [finish, after_turns]
  exact p.headingAt_eq_turned plan.orientation plan.start (n + 1)

end

end Walk

namespace Trace

variable {p : Picture} {s : Seed} {opts : Options} {out : Walk.Outcome}

/-- Every trace reports what lies between its start and its end. The heading on which it stops is that of
its start after the turns it has counted, and its length is within the cap and the upper limit. Without
border suppression the points are a path of neighbours along the boundary, as long as the trace says,
which begins at the start and, if the trace is back on its start edge, ends beside it. -/
theorem run_follows (hfit : p.Fits) (hrun : run p s opts = .ok out) :
    out.result.stop.heading =
        out.result.start.heading.turned opts.orientation out.result.turns ∧
      0 ≤ out.result.length ∧ out.result.length ≤ Picture.upperLimit p.width p.height ∧
      (0 < opts.maxLength → out.result.length ≤ opts.maxLength) ∧
      (opts.suppressBorder = false → out.IsPath p) := by
  obtain ⟨pl, hplan, rfl⟩ := run_eq_ok.1 hrun
  obtain ⟨horientation, hstart⟩ := isBoundary_of_plan hplan
  obtain ⟨-, hsuppress, hlimit⟩ := plan_eq_ok hplan
  rw [← horientation] at hstart ⊢
  obtain ⟨hx, hy, hw, hh⟩ := hstart.contains
  have hone := one_le_effectiveLimit (n := opts.maxLength) (hfit.one_le_upperLimit (by omega) (by omega))
  have hle := Walk.Plan.length_run_le hstart
  have hupper := effectiveLimit_le (p := p) (n := opts.maxLength)
  refine ⟨Walk.Plan.heading_run hstart, Walk.Plan.length_run_nonneg hstart, by omega, fun hpos => ?_,
    fun hoff => Walk.Plan.isPath_run hstart (hsuppress.trans hoff)⟩
  have hcap := effectiveLimit_le_of_pos (p := p) hpos
  omega

/-- A row of three pixels with one pixel below, walked up to a stop edge between two turns. -/
theorem run_follows_row :
    let p : Picture := ⟨3, 3, fun x y => y == 0 || x == 1 && y == 1⟩
    let s : Seed := ⟨0, 0, .toward .left⟩
    let opts : Options := { stopAt := some ⟨2, 0, .toward .up⟩, maxLength := 9 }
    p.Fits ∧ ∃ out, run p s opts = .ok out ∧
      out.result.stop.heading =
        out.result.start.heading.turned opts.orientation out.result.turns ∧
      0 ≤ out.result.length ∧ out.result.length ≤ Picture.upperLimit p.width p.height ∧
      (0 < opts.maxLength → out.result.length ≤ opts.maxLength) ∧
      (opts.suppressBorder = false → out.IsPath p) := by
  intro p s opts
  obtain ⟨out, hrun⟩ : ∃ out, run p s opts = .ok out := ⟨_, rfl⟩
  exact ⟨by decide, out, hrun, run_follows (by decide) hrun⟩

end Trace

end Perimeter
