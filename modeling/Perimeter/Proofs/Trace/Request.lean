import Mathlib.Tactic.Linarith
import Perimeter.Proofs.Walk.Run
import Perimeter.Trace

/-!
# Requests and their walks

A request that passes its checks is carried out by a plan whose start is a boundary edge and whose
limit is positive. So every trace that does not refuse its request has an outcome, read off a run.
-/

namespace Perimeter

variable {p : Picture} {o : Orientation} {s : Seed} {e : Edge}

theorem bind_eq_ok {ε α β : Type} {x : Except ε α} {f : α → Except ε β} {b : β} :
    x >>= f = .ok b ↔ ∃ a, x = .ok a ∧ f a = .ok b := by
  cases x <;> simp [bind, Except.bind]

/-- A check followed by a computation. -/
theorem check_bind_eq_ok {ε β : Type} {x : Except ε Unit} {y : Except ε β} {b : β} :
    (do x; y) = .ok b ↔ x = .ok () ∧ y = .ok b := by
  cases x <;> simp [bind, Except.bind]

/-! ## Seeds -/

theorem Seed.check_auto_eq_ok {x y : Int} :
    check p ⟨x, y, .auto⟩ = .ok () ↔ 0 < p.width ∧ 0 < p.height ∧ p.isInk x y = true := by
  simp only [check]
  constructor
  · intro h
    split_ifs at h with hempty hin hink
    exact ⟨by omega, by omega, by simpa using hink⟩
  · rintro ⟨hw, hh, hink⟩
    have hempty : ¬(p.width ≤ 0 ∨ p.height ≤ 0) := by omega
    have hin : ¬¬p.Contains x y := not_not.2 (Picture.contains_of_inkAt (q := ⟨x, y⟩) hink)
    rw [if_neg hempty, if_neg hin, hink]
    rfl

theorem Seed.check_eq_ok :
    s.check p = .ok () ↔
      (∀ n, s.course ≠ .unknown n) ∧ 0 < p.width ∧ 0 < p.height ∧ p.isInk s.x s.y = true := by
  obtain ⟨x, y, course⟩ := s
  -- Headings that are known make no difference here.
  have hknown : ∀ c : Course, (∀ n, c ≠ .unknown n) → check p ⟨x, y, c⟩ = check p ⟨x, y, .auto⟩ := by
    intro c hc
    cases c with
    | unknown n => exact absurd rfl (hc n)
    | auto => rfl
    | toward h => rfl
  constructor
  · intro h
    have hcourse : ∀ n, course ≠ .unknown n := by
      rintro n rfl
      cases h
    rw [hknown course hcourse] at h
    exact ⟨hcourse, check_auto_eq_ok.1 h⟩
  · rintro ⟨hcourse, hpixel⟩
    rw [hknown course hcourse]
    exact check_auto_eq_ok.2 hpixel

/-- The edge of an ink seed and an explicit heading is a boundary edge. -/
theorem Seed.isBoundary_edgeToward {x y : Int} {h : Heading} (hink : p.isInk x y = true)
    (hok : edgeToward p o x y h = .ok e) : p.IsBoundary o e := by
  simp only [edgeToward] at hok
  split_ifs at hok with hahead hleft hleft
  · cases hok
    simp only [Bool.and_eq_true] at hahead
    exact ⟨hahead.2, by simpa using hleft⟩
  · cases hok
    exact ⟨hink, by simpa using hleft⟩

theorem Seed.isBoundary_start (hink : p.isInk s.x s.y = true) (hok : s.start p o = .ok e) :
    p.IsBoundary o e := by
  simp only [start] at hok
  split at hok
  · exact isBoundary_edgeToward hink hok
  · split at hok
    · exact isBoundary_edgeToward hink hok
    · cases hok

/-- A seed resolves exactly when it passes its check and has a start edge. -/
theorem Seed.resolve_eq_ok :
    s.resolve p o = .ok e ↔ s.check p = .ok () ∧ s.start p o = .ok e := by
  exact check_bind_eq_ok

/-- A seed that names a boundary edge stands for that edge. -/
def Edge.seed (e : Edge) : Seed := ⟨e.x, e.y, .toward e.heading⟩

theorem Picture.IsBoundary.check_seed (h : p.IsBoundary o e) : e.seed.check p = .ok () := by
  obtain ⟨hx, hy, hw, hh⟩ := h.contains
  exact Seed.check_eq_ok.2 ⟨by simp [Edge.seed], by omega, by omega, h.1⟩

theorem Picture.IsBoundary.start_seed (h : p.IsBoundary o e) : e.seed.start p o = .ok e := by
  have hleft : p.inkLeft o ⟨e.x, e.y, e.heading⟩ = false := h.2
  simp [Seed.start, Seed.edgeToward, Edge.seed, hleft]

theorem Picture.IsBoundary.checkStop (h : p.IsBoundary o e) :
    (EdgeSpec.ofEdge e).checkStop p o = .ok e := by
  simp [EdgeSpec.checkStop, h.contains, h.1, h.2]

/-! ## Limits -/

theorem Trace.effectiveLimit_le {n : Int} :
    effectiveLimit p n ≤ Picture.upperLimit p.width p.height := by
  simp only [effectiveLimit]
  split_ifs <;> omega

theorem Trace.one_le_effectiveLimit {n : Int} (h : 1 ≤ Picture.upperLimit p.width p.height) :
    1 ≤ effectiveLimit p n := by
  simp only [effectiveLimit]
  split_ifs <;> omega

/-- A positive cap applies. -/
theorem Trace.effectiveLimit_le_of_pos {n : Int} (hpos : 0 < n) : effectiveLimit p n ≤ n := by
  simp only [effectiveLimit]
  split_ifs <;> omega

/-- A positive cap below the upper limit applies as it is. -/
theorem Trace.effectiveLimit_of_pos {n : Int} (hpos : 0 < n)
    (hle : n ≤ Picture.upperLimit p.width p.height) : effectiveLimit p n = n := by
  simp only [effectiveLimit]
  split_ifs <;> omega

/-! ## Plans -/

/-- A request without a stop edge passes its checks if its cap is not negative and its seed passes. -/
theorem Trace.check_eq_ok {opts : Options} (hstop : opts.stopAt = none) {stop : Option Edge} :
    check p s opts = .ok stop ↔ 0 ≤ opts.maxLength ∧ s.check p = .ok () ∧ stop = none := by
  by_cases hneg : opts.maxLength < 0
  · have hmax : ¬0 ≤ opts.maxLength := by omega
    simp [check, hneg, hmax, bind, Except.bind, throw, throwThe, MonadExceptOf.throw]
  · have hmax : 0 ≤ opts.maxLength := by omega
    simp only [check, hneg, hmax, hstop, if_false, check_bind_eq_ok, pure, Except.pure,
      Except.ok.injEq, true_and, eq_comm (a := none)]

/-- The plan of a request without a stop edge. -/
theorem Trace.plan_eq (opts : Options) (hmax : 0 ≤ opts.maxLength) (hstop : opts.stopAt = none)
    (hcheck : s.check p = .ok ()) (hstart : s.start p opts.orientation = .ok e) :
    plan p s opts = .ok
      { orientation := opts.orientation
        suppressBorder := opts.suppressBorder
        start := e
        stop := none
        limit := effectiveLimit p opts.maxLength } := by
  rw [plan, bind_eq_ok]
  refine ⟨none, (check_eq_ok hstop).2 ⟨hmax, hcheck, rfl⟩, ?_⟩
  simp [hstart, bind, Except.bind, pure, Except.pure]

/-- The plan of a request with a boundary edge to stop on. -/
theorem Trace.plan_eq_stop (opts : Options) {stop : Edge} (hmax : 0 ≤ opts.maxLength)
    (hopts : opts.stopAt = some (.ofEdge stop)) (hstop : p.IsBoundary opts.orientation stop)
    (hcheck : s.check p = .ok ()) (hstart : s.start p opts.orientation = .ok e) :
    plan p s opts = .ok
      { orientation := opts.orientation
        suppressBorder := opts.suppressBorder
        start := e
        stop := some stop
        limit := effectiveLimit p opts.maxLength } := by
  have hneg : ¬opts.maxLength < 0 := by omega
  simp [plan, check, hopts, hcheck, hstart, hneg, hstop.checkStop, bind, Except.bind, pure,
    Except.pure, Functor.map, Except.map]

/-- A request that passes its checks has a seed that passes. -/
theorem Trace.check_seed {opts : Options} {stop : Option Edge} (h : check p s opts = .ok stop) :
    s.check p = .ok () := by
  simp only [check] at h
  split_ifs at h
  · cases h
  · exact (check_bind_eq_ok.1 h).1

/-- What a request asks for, read off the plan that carries it out. -/
theorem Trace.plan_eq_ok {opts : Options} {pl : Walk.Plan} (h : plan p s opts = .ok pl) :
    check p s opts = .ok pl.stop ∧ pl.suppressBorder = opts.suppressBorder ∧
      pl.limit = effectiveLimit p opts.maxLength := by
  simp only [plan, bind_eq_ok] at h
  obtain ⟨stop, hcheck, start, -, hpl⟩ := h
  cases hpl
  exact ⟨hcheck, rfl, rfl⟩

/-- The plan of a request starts on a boundary edge in the orientation that was asked for. -/
theorem Trace.isBoundary_of_plan {opts : Options} {pl : Walk.Plan} (h : plan p s opts = .ok pl) :
    pl.orientation = opts.orientation ∧ p.IsBoundary opts.orientation pl.start := by
  simp only [plan, bind_eq_ok] at h
  obtain ⟨stop, hcheck, start, hstart, hpl⟩ := h
  cases hpl
  exact ⟨rfl, Seed.isBoundary_start (Seed.check_eq_ok.1 (check_seed hcheck)).2.2.2 hstart⟩

/-- A request is carried out exactly if it has a plan. -/
theorem Trace.run_eq_ok {opts : Options} {out : Walk.Outcome} :
    run p s opts = .ok out ↔ ∃ pl, plan p s opts = .ok pl ∧ pl.run p = out := by
  rw [run, bind_eq_ok]
  simp only [pure, Except.pure, Except.ok.injEq]

/-- A request that has a plan is carried out. -/
theorem Trace.run_eq {opts : Options} {pl : Walk.Plan} (h : plan p s opts = .ok pl) :
    run p s opts = .ok (pl.run p) :=
  run_eq_ok.2 ⟨pl, h, rfl⟩

end Perimeter
