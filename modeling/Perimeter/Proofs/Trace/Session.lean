import Perimeter.Proofs.Trace.Resume

/-!
# Tracers in arbitrary use

A caller may change the pixels between two chunks. The next chunk can then find its position or the
start of the walk gone, and fail, or set out from an edge that the walk never came to. What a caller
can rely on in any case is stated here for a whole session of calls: the cap holds for all chunks
together, a call that fails changes nothing, and every call that does not fail makes a step or ends the
session. So a session that goes on until it is done ends.
-/

namespace Perimeter

namespace Walk

variable {p : Picture} {plan : Plan}

theorem Plan.length_run_nonneg (hstart : p.IsBoundary plan.orientation plan.start) :
    0 ≤ (plan.run p).result.length := by
  obtain ⟨n, -, hrun⟩ := plan.exists_runsTo hstart
  have hle := plan.length_le_finish (plan.after p (n + 1))
  have hpos := Picture.stepsIn_nonneg (p := p) (o := plan.orientation) (e := plan.start) (n + 1)
  rw [hrun.run_eq hstart]
  rw [after_length] at hle
  omega

/-- A walk that does not end on its extra stop counts a step. -/
theorem Plan.one_le_length_run (hstart : p.IsBoundary plan.orientation plan.start)
    (hlimit : 1 ≤ plan.limit) (hstop : plan.stop ≠ some (plan.run p).result.stop) :
    1 ≤ (plan.run p).result.length := by
  obtain ⟨n, -, hrun⟩ := plan.exists_runsTo hstart
  have hpos := Picture.stepsIn_nonneg (p := p) (o := plan.orientation) (e := plan.start) (n + 1)
  rw [hrun.run_eq hstart] at hstop ⊢
  rw [finish_stop, after_edge] at hstop
  rcases endsWith_iff.1 hrun.ends with hends | ⟨-, hfull⟩
  · -- Back on its start the walk has made a step, or it is the visit of an isolated pixel.
    have hback := (endsOn_iff.1 hends).resolve_right hstop
    simp only [finish, after_length, after_edge, hback, beq_self_eq_true, Bool.and_true, beq_iff_eq]
    split <;> omega
  · have hle := plan.length_le_finish (plan.after p (n + 1))
    rw [after_length] at hle
    omega

end Walk

namespace Trace

variable {p : Picture} {s : Seed} {opts : Options} {plan : Walk.Plan}

/-- A walk stops on no other extra edge than the one that was asked for. -/
theorem stop_of_check {stop : Option Edge} (h : check p s opts = .ok stop) {e : Edge}
    (he : stop = some e) : opts.stopAt.bind EdgeSpec.edge? = some e := by
  subst he
  simp only [check] at h
  split_ifs at h
  · cases h
  · obtain ⟨-, hstop⟩ := check_bind_eq_ok.1 h
    split at hstop
    · cases hstop
    · rename_i spec hspec
      cases hchecked : spec.checkStop p opts.orientation with
      | error f => simp [hchecked, Functor.map, Except.map] at hstop
      | ok e' =>
        simp only [hchecked, Functor.map, Except.map, Except.ok.injEq, Option.some.injEq] at hstop
        subst hstop
        simp only [EdgeSpec.checkStop] at hchecked
        split at hchecked
        · cases hchecked
        · split_ifs at hchecked
          cases hchecked
          simpa [hspec] using ‹spec.edge? = some e'›

end Trace

namespace Tracer

variable {p : Picture} {t : Tracer} {size : Int}

/-! ## One chunk -/

/-- The chunk was walked by the tracer: from some boundary edge, within the budget, and stopping early
on the start of the walk only. -/
structure Chunk (t : Tracer) (p : Picture) (size : Int) (out : Walk.Outcome) (plan : Walk.Plan) :
    Prop where
  run : plan.run p = out
  start : p.IsBoundary plan.orientation plan.start
  limit : plan.limit = Trace.effectiveLimit p (t.budget size)
  stop : ∀ e, plan.stop = some e → e = t.start

/-- A call succeeds exactly if the walk is not done and its request passes its checks. -/
theorem next_eq_ok {out : Walk.Outcome} {t' : Tracer} :
    t.next p size = .ok (out, t') ↔
      t.done = false ∧ Trace.run p t.position.seed (t.chunkOptions size) = .ok out ∧
        t' = t.advance out := by
  cases hdone : t.done with
  | true => simp [next, hdone, bind, Except.bind, throw, throwThe, MonadExceptOf.throw]
  | false =>
    constructor
    · intro h
      simp only [next, hdone, Bool.false_eq_true, if_false, bind_eq_ok] at h
      obtain ⟨out', hrun, hok⟩ := h
      cases hok
      exact ⟨rfl, hrun, rfl⟩
    · rintro ⟨-, hrun, rfl⟩
      exact next_eq hdone hrun

/-- A call after the end of the walk is refused. -/
theorem next_of_done (hdone : t.done = true) (p : Picture) (size : Int) :
    t.next p size = .error .walkFinished := by
  simp [next, hdone, bind, Except.bind, throw, throwThe, MonadExceptOf.throw]

theorem exists_chunk {out : Walk.Outcome} {t' : Tracer} (h : t.next p size = .ok (out, t')) :
    ∃ plan, t.Chunk p size out plan := by
  obtain ⟨-, hrun, -⟩ := next_eq_ok.1 h
  obtain ⟨plan, hplan, hout⟩ := Trace.run_eq_ok.1 hrun
  obtain ⟨horient, hstart⟩ := Trace.isBoundary_of_plan hplan
  obtain ⟨hcheck, -, hlimit⟩ := Trace.plan_eq_ok hplan
  refine ⟨plan, hout, by rw [horient]; exact hstart, hlimit, ?_⟩
  intro e he
  have hasked := Trace.stop_of_check hcheck he
  cases hbegun : t.begun with
  | false => simp [chunkOptions, hbegun] at hasked
  | true => simpa [chunkOptions, hbegun, eq_comm] using hasked

/-- The counters of a tracer stay within the cap of its walk, which is one that the picture allows, and
a walk that has used up its cap is done. -/
structure Sound (t : Tracer) (upper : Int) : Prop where
  one_le_limit : 1 ≤ t.limit
  limit_le : t.limit ≤ upper
  length_nonneg : 0 ≤ t.length
  length_le : t.length ≤ t.limit
  length_lt : t.done = false → t.length < t.limit

theorem Sound.budget {upper : Int} (h : t.Sound upper) (hopen : t.done = false) (size : Int) :
    1 ≤ t.budget size ∧ t.budget size ≤ t.limit - t.length ∧
      (0 < size → t.budget size ≤ size) := by
  have hlt := h.length_lt hopen
  simp only [Tracer.budget]
  split_ifs <;> omega

/-- A chunk stays within the size that was asked for and within the cap, and it makes a step unless it
ends the walk. -/
theorem Sound.next {out : Walk.Outcome} {t' : Tracer}
    (h : t.Sound (Picture.upperLimit p.width p.height)) (hnext : t.next p size = .ok (out, t')) :
    t'.Sound (Picture.upperLimit p.width p.height) ∧ t'.limit = t.limit ∧ t.length ≤ t'.length ∧
      (0 < size → t'.length ≤ t.length + size) ∧
      (t.length + 1 ≤ t'.length ∨ t'.done = true) := by
  obtain ⟨hopen, -, rfl⟩ := next_eq_ok.1 hnext
  obtain ⟨plan, hchunk⟩ := exists_chunk hnext
  obtain ⟨hpos, hrest, hsize⟩ := h.budget hopen size
  have hlimit : plan.limit = t.budget size := by
    have hupper := h.limit_le
    have hnonneg := h.length_nonneg
    rw [hchunk.limit, Trace.effectiveLimit_of_pos (by omega) (by omega)]
  have hle := Walk.Plan.length_run_le hchunk.start
  have hnonneg := Walk.Plan.length_run_nonneg hchunk.start
  have hstep : out.result.stop = t.start ∨ 1 ≤ out.result.length := by
    by_cases hback : out.result.stop = t.start
    · exact .inl hback
    · refine .inr ?_
      have hstop : plan.stop ≠ some (plan.run p).result.stop := by
        rw [hchunk.run]
        exact fun hsome => hback (hchunk.stop _ hsome)
      have hone := Walk.Plan.one_le_length_run hchunk.start (by omega) hstop
      rwa [hchunk.run] at hone
  rw [hchunk.run] at hle hnonneg
  have hlength := h.length_nonneg
  refine ⟨⟨h.one_le_limit, h.limit_le, ?_, ?_, ?_⟩, rfl, ?_, ?_, ?_⟩
  · simp only [advance]
    omega
  · simp only [advance]
    omega
  · intro hgoes
    simp only [advance, Bool.or_eq_false_iff, decide_eq_false_iff_not] at hgoes ⊢
    omega
  · simp only [advance]
    omega
  · intro hasked
    have hbudget := hsize hasked
    simp only [advance]
    omega
  · rcases hstep with hback | hone
    · simp [advance, hback]
    · refine .inl ?_
      simp only [advance]
      omega

theorem sound_pausedAt {whole : Walk.Plan} {i : Nat} {upper : Int} (hlimit : whole.limit ≤ upper)
    (hlt : p.stepsIn whole.orientation whole.start i < whole.limit) :
    (pausedAt whole p i).Sound upper := by
  have hnonneg := Picture.stepsIn_nonneg (p := p) (o := whole.orientation) (e := whole.start) i
  exact ⟨by simp only [pausedAt]; omega, hlimit, hnonneg, hlt.le, fun _ => hlt⟩

theorem sound_create {s : Seed} {opts : Trace.Options} (h : create p s opts = .ok t)
    (hlimit : 1 ≤ t.limit) : t.Sound (Picture.upperLimit p.width p.height) := by
  obtain ⟨-, -, -, e, -, rfl⟩ := create_eq_ok h
  refine sound_pausedAt Trace.effectiveLimit_le ?_
  rw [Picture.stepsIn_zero]
  exact Int.lt_of_lt_of_le Int.zero_lt_one hlimit

/-- A request that can be traced can be traced in chunks. -/
theorem exists_create {s : Seed} {opts : Trace.Options} {out : Walk.Outcome}
    (hstop : opts.stopAt = none) (h : Trace.run p s opts = .ok out) :
    ∃ t, create p s opts = .ok t := by
  obtain ⟨plan, hplan, -⟩ := Trace.run_eq_ok.1 h
  simp only [Trace.plan, bind_eq_ok] at hplan
  obtain ⟨stop, hcheck, start, hstart, -⟩ := hplan
  simp [create, hstop, hcheck, hstart, bind, Except.bind, pure, Except.pure]

/-! ## Sessions -/

/-- A request for a chunk of some size, at a time when the picture looks like this. -/
structure Call where
  picture : Picture
  size : Int

/-- A tracer in use, with the points that went into the caller's sink and the number of calls that did
not fail. -/
structure Session where
  tracer : Tracer
  sink : Array Point := #[]
  chunks : Nat := 0

namespace Session

variable {s : Session} {upper : Int}

/-- One call. Only a call that does not fail gives anything back. -/
def call (s : Session) (c : Call) : Session :=
  match s.tracer.next c.picture c.size with
  | .ok (out, t) => ⟨t, s.sink ++ out.points, s.chunks + 1⟩
  | .error _ => s

/-- Calls in turn. -/
def after (s : Session) (calls : List Call) : Session := calls.foldl call s

theorem call_of_ok {c : Call} {out : Walk.Outcome} {t : Tracer}
    (h : s.tracer.next c.picture c.size = .ok (out, t)) :
    s.call c = ⟨t, s.sink ++ out.points, s.chunks + 1⟩ := by
  rw [call, h]

theorem call_of_error {c : Call} {f : Fault} (h : s.tracer.next c.picture c.size = .error f) :
    s.call c = s := by
  rw [call, h]

/-- A session over a walk with this cap: the tracer is sound, and its chunks are no more than its steps
as long as the walk goes on. -/
structure Sound (s : Session) (cap upper : Int) : Prop where
  tracer : s.tracer.Sound upper
  limit : s.tracer.limit = cap
  chunks_le : s.chunks ≤ cap
  chunks_le_length : s.tracer.done = false → s.chunks ≤ s.tracer.length

/-- A call keeps a session sound, whatever has become of the pixels. -/
theorem Sound.call {cap : Int} (h : s.Sound cap upper) (c : Call)
    (hupper : Picture.upperLimit c.picture.width c.picture.height = upper) :
    (s.call c).Sound cap upper := by
  subst hupper
  cases hnext : s.tracer.next c.picture c.size with
  | error f => rwa [call_of_error hnext]
  | ok r =>
    obtain ⟨out, t⟩ := r
    obtain ⟨hopen, -, -⟩ := next_eq_ok.1 hnext
    obtain ⟨hsound, hlimit, -, -, hstep⟩ := h.tracer.next hnext
    have hlt := h.tracer.length_lt hopen
    have hchunks := h.chunks_le_length hopen
    have hcap := h.limit
    rw [call_of_ok hnext]
    refine ⟨hsound, hlimit.trans h.limit, ?_, fun hgoes => ?_⟩
    · push_cast
      omega
    · have hmore := hstep.resolve_right (by rw [hgoes]; exact Bool.false_ne_true)
      push_cast
      omega

/-- A session stays sound over all its calls. -/
theorem Sound.after {cap : Int} (h : s.Sound cap upper) (calls : List Call)
    (hupper : ∀ c ∈ calls, Picture.upperLimit c.picture.width c.picture.height = upper) :
    (s.after calls).Sound cap upper := by
  induction calls generalizing s with
  | nil => exact h
  | cons c calls ih =>
    refine ih (h.call c (hupper c List.mem_cons_self)) ?_
    intro c' hc'
    exact hupper c' (List.mem_cons_of_mem _ hc')

/-- A walk that is done stays as it is, whatever calls come after. -/
theorem after_of_done (hdone : s.tracer.done = true) (calls : List Call) : s.after calls = s := by
  induction calls with
  | nil => rfl
  | cons c calls ih =>
    rw [after, List.foldl_cons, call_of_error (next_of_done hdone c.picture c.size)]
    exact ih

end Session

/-- What a caller can rely on after any calls, with any pixels and sizes. The length stays within the
cap, and no more calls succeed than the cap allows steps. A walk that is done stays so, and refuses
further calls as misuse. A call that fails changes nothing; one that succeeds adds no more steps than it
was asked for, and at least one unless it ends the walk. -/
theorem session_protocol {seed : Seed} {opts : Trace.Options} (hcreate : create p seed opts = .ok t)
    (hlimit : 1 ≤ t.limit) (calls : List Call)
    (hcalls : ∀ c ∈ calls, c.picture.width = p.width ∧ c.picture.height = p.height) :
    let s := Session.after { tracer := t } calls
    (0 ≤ s.tracer.length ∧ s.tracer.length ≤ t.limit ∧ s.chunks ≤ t.limit) ∧
    (s.tracer.done = true → (∀ more, s.after more = s) ∧
      ∀ q size, ∃ f, s.tracer.next q size = .error f ∧ f.kind = .state) ∧
    ∀ c : Call, c.picture.width = p.width → c.picture.height = p.height →
      (∀ f, s.tracer.next c.picture c.size = .error f → s.call c = s) ∧
      (∀ out t', s.tracer.next c.picture c.size = .ok (out, t') →
        s.call c = ⟨t', s.sink ++ out.points, s.chunks + 1⟩ ∧
        (0 < c.size → t'.length ≤ s.tracer.length + c.size) ∧
        (s.tracer.length + 1 ≤ t'.length ∨ t'.done = true)) := by
  intro s
  have hstart : Session.Sound { tracer := t } t.limit (Picture.upperLimit p.width p.height) := by
    have hsound := sound_create hcreate hlimit
    exact ⟨hsound, rfl, by simp only [Nat.cast_zero]; omega,
      fun _ => by simpa using hsound.length_nonneg⟩
  have hs : s.Sound t.limit (Picture.upperLimit p.width p.height) := by
    refine hstart.after calls fun c hc => ?_
    obtain ⟨hw, hh⟩ := hcalls c hc
    rw [hw, hh]
  have hcap := hs.tracer.length_le
  rw [hs.limit] at hcap
  refine ⟨⟨hs.tracer.length_nonneg, hcap, hs.chunks_le⟩, fun hdone => ⟨?_, ?_⟩, ?_⟩
  · exact Session.after_of_done hdone
  · intro q size
    exact ⟨_, next_of_done hdone q size, rfl⟩
  · intro c hw hh
    refine ⟨fun f hfail => Session.call_of_error hfail, fun out t' hnext => ?_⟩
    have htracer := hs.tracer
    rw [← hw, ← hh] at htracer
    obtain ⟨-, -, -, hsize, hstep⟩ := htracer.next hnext
    exact ⟨Session.call_of_ok hnext, hsize, hstep⟩

/-- A row of three pixels that is erased after the first step, and comes back for the last call. -/
theorem session_protocol_row :
    let p : Picture := ⟨3, 1, fun _ _ => true⟩
    let t : Tracer :=
      ⟨.counterclockwise, false, ⟨0, 0, .right⟩, ⟨0, 0, .right⟩, 7, 0, 0, false, false⟩
    let calls : List Call := [⟨p, 1⟩, ⟨⟨3, 1, fun _ _ => false⟩, 2⟩, ⟨p, 0⟩]
    let s := Session.after { tracer := t } calls
    create p ⟨0, 0, .auto⟩ {} = .ok t ∧ 1 ≤ t.limit ∧
    (∀ c ∈ calls, c.picture.width = p.width ∧ c.picture.height = p.height) ∧
    (0 ≤ s.tracer.length ∧ s.tracer.length ≤ t.limit ∧ s.chunks ≤ t.limit) ∧
    (s.tracer.done = true → (∀ more, s.after more = s) ∧
      ∀ q size, ∃ f, s.tracer.next q size = .error f ∧ f.kind = .state) ∧
    ∀ c : Call, c.picture.width = 3 → c.picture.height = 1 →
      (∀ f, s.tracer.next c.picture c.size = .error f → s.call c = s) ∧
      (∀ out t', s.tracer.next c.picture c.size = .ok (out, t') →
        s.call c = ⟨t', s.sink ++ out.points, s.chunks + 1⟩ ∧
        (0 < c.size → t'.length ≤ s.tracer.length + c.size) ∧
        (s.tracer.length + 1 ≤ t'.length ∨ t'.done = true)) := by
  intro p t calls
  have hcreate : create p ⟨0, 0, .auto⟩ {} = .ok t := rfl
  have hcalls : ∀ c ∈ calls, c.picture.width = p.width ∧ c.picture.height = p.height := by
    simp [calls, p]
  exact ⟨hcreate, by decide, hcalls, session_protocol hcreate (by decide) calls hcalls⟩

end Tracer

end Perimeter
