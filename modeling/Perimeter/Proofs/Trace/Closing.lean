import Perimeter.Proofs.Trace.Request
import Perimeter.Proofs.Walk.Length

/-!
# Closed walks

A walk with nothing to stop it but its limit makes one round, because the round has fewer steps than
the upper limit of the picture allows. So a trace without a cap ends on its start edge, and whatever
room its limit leaves beyond that makes no difference.
-/

namespace Perimeter

open Function

namespace Walk

variable {p : Picture} {plan : Plan}

/-- A walk goes on until its round is over exactly if the moves before the last one do not use up its
limit. -/
theorem Plan.runsTo_round_iff (hstart : p.IsBoundary plan.orientation plan.start)
    (hstop : plan.stop = none) :
    plan.RunsTo p (p.round plan.orientation plan.start - 1) ↔
      p.stepsIn plan.orientation plan.start (p.round plan.orientation plan.start - 1) <
        max plan.limit 1 := by
  have hpos := hstart.round_pos
  refine ⟨fun h => stepsIn_lt_max h.goesOn, fun hlimit => ⟨?_, ?_⟩⟩
  · intro i hi hends
    rcases endsWith_iff.1 hends with hback | ⟨hmove, hfull⟩
    · rw [endsOn_iff, hstop] at hback
      rcases hback with hback | hback
      · exact Picture.iterate_ne_self (by omega) (by omega) hback
      · cases hback
    -- A limit that is used up before the last move would be used up by all the moves before it.
    · have hle := Picture.stepsIn_mono (p := p) (o := plan.orientation) (e := plan.start)
        (n := i + 1) (k := p.round plan.orientation plan.start - 1) (by omega)
      have hstep := Move.steps_nonneg (p.moveAt plan.orientation plan.start i)
      have hne := mt Move.steps_eq_zero.1 hmove
      have hbefore := Picture.stepsIn_nonneg (p := p) (o := plan.orientation) (e := plan.start) i
      have hsucc := Picture.stepsIn_succ (p := p) (o := plan.orientation) (e := plan.start) i
      omega
  · refine endsWith_iff.2 (.inl (endsOn_iff.2 (.inl ?_)))
    rw [Nat.sub_add_cancel hpos, Picture.iterate_round]

/-- A walk whose limit leaves room for the round goes on until the round is over. -/
theorem Plan.runsTo_round (hstart : p.IsBoundary plan.orientation plan.start)
    (hstop : plan.stop = none)
    (hlimit : p.stepsIn plan.orientation plan.start (p.round plan.orientation plan.start)
      < plan.limit) :
    plan.RunsTo p (p.round plan.orientation plan.start - 1) := by
  have hle := Picture.stepsIn_mono (p := p) (o := plan.orientation) (e := plan.start)
    (n := p.round plan.orientation plan.start - 1) (k := p.round plan.orientation plan.start) (by omega)
  exact (runsTo_round_iff hstart hstop).2 (by omega)

/-- A walk whose limit leaves room for the round makes it. -/
theorem Plan.run_of_stepsIn_lt (hstart : p.IsBoundary plan.orientation plan.start)
    (hstop : plan.stop = none)
    (hlimit : p.stepsIn plan.orientation plan.start (p.round plan.orientation plan.start)
      < plan.limit) :
    plan.run p = plan.finish (plan.after p (p.round plan.orientation plan.start)) := by
  rw [(runsTo_round hstart hstop hlimit).run_eq hstart, Nat.sub_add_cancel hstart.round_pos]

/-- A walk that nothing cuts short is one round. -/
theorem Plan.run_eq_round (plan : Plan) (hstart : p.IsBoundary plan.orientation plan.start)
    (hstop : plan.stop = none)
    (hlimit : p.width * p.height + p.width + p.height ≤ plan.limit) :
    plan.run p = plan.finish (plan.after p (p.round plan.orientation plan.start)) := by
  have hlt := hstart.stepsIn_round_lt
  exact run_of_stepsIn_lt hstart hstop (by omega)

/-- A walk that nothing cuts short stands on every edge of the round. -/
theorem Plan.edges_eq_round (plan : Plan) (hstart : p.IsBoundary plan.orientation plan.start)
    (hstop : plan.stop = none)
    (hlimit : p.width * p.height + p.width + p.height ≤ plan.limit) :
    plan.edges p = (List.range (p.round plan.orientation plan.start)).map
      fun i => (p.nextEdge plan.orientation)^[i] plan.start := by
  have hpos := hstart.round_pos
  have hlt := hstart.stepsIn_round_lt
  rw [(runsTo_round hstart hstop (by omega)).edges_eq hstart, Nat.sub_add_cancel hpos]

end Walk

namespace Trace

variable {p : Picture} {s : Seed} {start : Edge}

/-- What a request without cap and stop asks for, with a limit of its own. -/
def freePlan (opts : Options) (start : Edge) (limit : Int) : Walk.Plan where
  orientation := opts.orientation
  suppressBorder := opts.suppressBorder
  start
  stop := none
  limit

/-- The round that a request without cap and stop comes to. -/
noncomputable def roundTrip (p : Picture) (opts : Options) (start : Edge) : Walk.Outcome :=
  let plan := freePlan opts start 0
  plan.finish (plan.after p (p.round opts.orientation start))

/-- Without a cap the upper limit of the picture applies. -/
theorem effectiveLimit_zero : effectiveLimit p 0 = Picture.upperLimit p.width p.height := by
  simp [effectiveLimit]

/-- A boundary edge as the seed of a request without stop stands for itself. -/
theorem plan_seed {e : Edge} (opts : Options) (hmax : 0 ≤ opts.maxLength) (hstop : opts.stopAt = none)
    (he : p.IsBoundary opts.orientation e) :
    plan p e.seed opts = .ok (freePlan opts e (effectiveLimit p opts.maxLength)) :=
  plan_eq opts hmax hstop he.check_seed he.start_seed

theorem run_freePlan {opts : Options} (hstart : p.IsBoundary opts.orientation start) {limit : Int}
    (hlimit : p.width * p.height + p.width + p.height ≤ limit) :
    (freePlan opts start limit).run p = roundTrip p opts start :=
  (freePlan opts start limit).run_eq_round hstart rfl hlimit

/-- A trace without cap and stop makes one round. -/
theorem run_eq_roundTrip (hfit : p.Fits) (opts : Options) (hmax : opts.maxLength = 0)
    (hstop : opts.stopAt = none) (hseed : s.resolve p opts.orientation = .ok start) :
    p.IsBoundary opts.orientation start ∧ run p s opts = .ok (roundTrip p opts start) := by
  obtain ⟨hcheck, hok⟩ := Seed.resolve_eq_ok.1 hseed
  have hstart := Seed.isBoundary_start (Seed.check_eq_ok.1 hcheck).2.2.2 hok
  have hplan := plan_eq opts (by omega) hstop hcheck hok
  have hlimit : effectiveLimit p opts.maxLength = p.width * p.height + p.width + p.height := by
    rw [hmax, effectiveLimit_zero, hfit.upperLimit_eq]
  refine ⟨hstart, ?_⟩
  rw [run_eq hplan, ← run_freePlan hstart hlimit.ge]
  rfl

theorem roundTrip_result (p : Picture) (opts : Options) (start : Edge) :
    (roundTrip p opts start).result =
      { start
        stop := start
        length :=
          if p.stepsIn opts.orientation start (p.round opts.orientation start) = 0 then 1
          else p.stepsIn opts.orientation start (p.round opts.orientation start)
        turns := p.turnsIn opts.orientation start (p.round opts.orientation start)
        complete := true } := by
  have hback := p.iterate_round opts.orientation start
  simp [roundTrip, Walk.Plan.finish, Walk.Plan.endsOn, freePlan, hback]

/-- A trace without cap and stop closes: it comes back to its start edge with fewer steps than the
upper limit, and with any greater limit it would have been the same. -/
theorem run_closes (hfit : p.Fits) (opts : Options) (hmax : opts.maxLength = 0)
    (hstop : opts.stopAt = none) (hseed : s.resolve p opts.orientation = .ok start) :
    ∃ out, run p s opts = .ok out ∧
      out.result.start = start ∧ out.result.stop = out.result.start ∧
      out.result.complete = true ∧
      out.result.length < Picture.upperLimit p.width p.height ∧
      Picture.upperLimit p.width p.height = p.width * p.height + p.width + p.height ∧
      ∀ limit, Picture.upperLimit p.width p.height ≤ limit →
        (freePlan opts start limit).run p = out := by
  obtain ⟨hstart, hrun⟩ := run_eq_roundTrip hfit opts hmax hstop hseed
  refine ⟨_, hrun, ?_, ?_, ?_, ?_, hfit.upperLimit_eq, ?_⟩
  · rw [roundTrip_result]
  · rw [roundTrip_result]
  · rw [roundTrip_result]
  · obtain ⟨hx, hy, hw, hh⟩ := hstart.contains
    have hlt := hstart.stepsIn_round_lt
    have harea := mul_pos (show 0 < p.width by omega) (show 0 < p.height by omega)
    rw [roundTrip_result, hfit.upperLimit_eq]
    dsimp only
    split <;> omega
  · intro limit hle
    rw [hfit.upperLimit_eq] at hle
    exact run_freePlan hstart hle

/-- The outer contour of a ring around one background pixel. -/
theorem run_closes_ring :
    let p : Picture := ⟨3, 3, fun x y => x != 1 || y != 1⟩
    p.Fits ∧ Seed.resolve p .clockwise ⟨0, 0, .auto⟩ = .ok ⟨0, 0, .up⟩ ∧
    ∃ out, run p ⟨0, 0, .auto⟩ { orientation := .clockwise } = .ok out ∧
      out.result.start = ⟨0, 0, .up⟩ ∧ out.result.stop = out.result.start ∧
      out.result.complete = true ∧
      out.result.length < Picture.upperLimit 3 3 ∧
      Picture.upperLimit 3 3 = 3 * 3 + 3 + 3 ∧
      ∀ limit, Picture.upperLimit 3 3 ≤ limit →
        (freePlan { orientation := .clockwise } ⟨0, 0, .up⟩ limit).run p = out :=
  ⟨by decide, rfl, run_closes (by decide) { orientation := .clockwise } rfl rfl rfl⟩

end Trace

end Perimeter
