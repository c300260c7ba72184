import Perimeter.Proofs.Trace.Request
import Perimeter.Proofs.Walk.Separation

/-!
# What a trace looks at

A trace sees of a picture its size and the pixels around its seed and around the pixels that it visits.
Two pictures of one size that agree there are traced alike, whatever they hold elsewhere. Where to look
is told by the trace of the first picture; as long as the two agree there, the second walk stands on
the same edges, and so keeps to where they agree.
-/

namespace Perimeter

variable {p p' : Picture} {o : Orientation} {e : Edge} {a : Point}

/-! ## Around one pixel -/

namespace Picture

/-- The pictures have one size and agree on the pixel and on its eight neighbours. -/
structure AgreesAround (p p' : Picture) (a : Point) : Prop where
  width : p'.width = p.width
  height : p'.height = p.height
  ink : ∀ q, a.Touches true q → p'.inkAt q = p.inkAt q

namespace AgreesAround

theorem inkAt (h : p.AgreesAround p' a) : p'.inkAt a = p.inkAt a :=
  h.ink a (by simp [Point.Touches])

theorem inkLeft (h : p.AgreesAround p' e.point) : p'.inkLeft o e = p.inkLeft o e :=
  h.ink _ (e.touches_leftPoint o true)

theorem inkAhead (h : p.AgreesAround p' e.point) : p'.inkAhead e = p.inkAhead e :=
  h.ink _ (e.touches_aheadPoint true)

theorem inkDiagonal (h : p.AgreesAround p' e.point) : p'.inkDiagonal o e = p.inkDiagonal o e :=
  h.ink _ (e.touches_diagonalPoint o)

/-- One step ahead the bordering pixel is the one that was diagonally ahead. -/
theorem inkLeft_ahead (h : p.AgreesAround p' e.point) :
    p'.inkLeft o (e.apply o .ahead) = p.inkLeft o (e.apply o .ahead) :=
  h.ink _ (e.touches_diagonalPoint o)

theorem move (h : p.AgreesAround p' e.point) : p'.move o e = p.move o e := by
  rw [Picture.move, Picture.move, h.inkDiagonal, h.inkAhead]

theorem leftIsBorder (h : p.AgreesAround p' a) (o : Orientation) (e : Edge) :
    p'.leftIsBorder o e = p.leftIsBorder o e := by
  rw [Picture.leftIsBorder, Picture.leftIsBorder, h.width, h.height]

/-- Looking back over a visit does not leave its pixel. -/
theorem entersInside (h : p.AgreesAround p' e.point) : p'.entersInside o e = p.entersInside o e := by
  have hgo : ∀ n (f : Edge), f.point = e.point → entersInside.go p' o n f = entersInside.go p o n f := by
    intro n
    induction n with
    | zero => exact fun _ _ => rfl
    | succ n ih =>
      intro f hf
      have hmove : p'.move o.opposite f = p.move o.opposite f := move (hf ▸ h)
      have hturn : (f.apply o.opposite .turn).point = e.point := hf
      rw [entersInside.go, entersInside.go, h.leftIsBorder, hmove, ih _ hturn]
  exact hgo 4 e.reverse rfl

theorem contains_iff (h : p.AgreesAround p' a) (x y : Int) : p'.Contains x y ↔ p.Contains x y := by
  rw [Contains, Contains, h.width, h.height]

end AgreesAround

end Picture

/-! ## Seeds -/

section

variable {s : Seed} (h : p.AgreesAround p' ⟨s.x, s.y⟩)
include h

theorem Seed.check_congr : s.check p' = s.check p := by
  have hink : p'.isInk s.x s.y = p.isInk s.x s.y := h.inkAt
  simp only [check, h.width, h.height, h.contains_iff, hink]

theorem Seed.edgeToward_congr (o : Orientation) (d : Heading) :
    edgeToward p' o s.x s.y d = edgeToward p o s.x s.y d := by
  have hedge : p.AgreesAround p' (Edge.point ⟨s.x, s.y, d⟩) := h
  have hmoved : ∀ c : Bool,
      p'.inkLeft o (if c then Edge.apply o ⟨s.x, s.y, d⟩ .ahead else ⟨s.x, s.y, d⟩) =
        p.inkLeft o (if c then Edge.apply o ⟨s.x, s.y, d⟩ .ahead else ⟨s.x, s.y, d⟩) := by
    intro c
    cases c with
    | true => exact hedge.inkLeft_ahead
    | false => exact hedge.inkLeft
  simp only [edgeToward, hedge.inkLeft, hedge.inkAhead, hmoved]

theorem Seed.start_congr (o : Orientation) : s.start p' o = s.start p o := by
  have hpick : pickHeading p' o s.x s.y = pickHeading p o s.x s.y := by
    have hleft : ∀ d, p'.inkLeft o ⟨s.x, s.y, d⟩ = p.inkLeft o ⟨s.x, s.y, d⟩ := fun d =>
      Picture.AgreesAround.inkLeft (e := ⟨s.x, s.y, d⟩) h
    have hdiagonal : ∀ d, p'.inkDiagonal o ⟨s.x, s.y, d⟩ = p.inkDiagonal o ⟨s.x, s.y, d⟩ := fun d =>
      Picture.AgreesAround.inkDiagonal (e := ⟨s.x, s.y, d⟩) h
    simp only [pickHeading, hleft, hdiagonal]
  simp only [start, hpick, edgeToward_congr h]

/-- A request without a stop edge is planned, or refused, alike. -/
theorem Trace.plan_congr {opts : Options} (hstop : opts.stopAt = none) :
    plan p' s opts = plan p s opts := by
  have hlimit : effectiveLimit p' opts.maxLength = effectiveLimit p opts.maxLength := by
    rw [effectiveLimit, effectiveLimit, h.width, h.height]
  simp only [plan, check, hstop, Seed.check_congr h, Seed.start_congr h, hlimit]

end

/-! ## Walks -/

namespace Walk

variable {plan : Plan} {s : State}

theorem Plan.step_congr (h : p.AgreesAround p' s.edge.point) : plan.step p' s = plan.step p s := by
  simp only [step, h.move, h.leftIsBorder]

/-- While the pictures agree where the walk stands, it makes the same moves in both. -/
theorem Plan.go_congr (n : Nat) (h : ∀ e ∈ edges.go plan p n s, p.AgreesAround p' e.point) :
    plan.go p' n s = plan.go p n s ∧ edges.go plan p' n s = edges.go plan p n s := by
  induction n generalizing s with
  | zero => exact ⟨rfl, rfl⟩
  | succ n ih =>
    rw [edges.go] at h
    have hhere : p.AgreesAround p' s.edge.point := h _ List.mem_cons_self
    simp only [go, edges.go, step_congr hhere, hhere.move]
    split
    case isTrue => exact ⟨rfl, rfl⟩
    case isFalse hgoes =>
      simp only [hgoes] at h
      obtain ⟨hgo, hedges⟩ := ih fun e he => h e (List.mem_cons_of_mem _ he)
      exact ⟨hgo, congrArg _ hedges⟩

theorem Plan.start_mem_edges (plan : Plan) (p : Picture) : plan.start ∈ plan.edges p :=
  List.mem_cons_self

/-- A walk is the same in every picture that agrees around the pixels that it visits. -/
theorem Plan.run_congr (h : ∀ e ∈ plan.edges p, p.AgreesAround p' e.point) :
    plan.run p' = plan.run p ∧ plan.edges p' = plan.edges p := by
  have hinitial : plan.initial p' = plan.initial p := by
    simp only [initial, (h _ (plan.start_mem_edges p)).entersInside]
  obtain ⟨hgo, hedges⟩ := go_congr plan.fuel h
  rw [run, run, edges, edges, hinitial, hgo, hedges]
  exact ⟨rfl, rfl⟩

end Walk

namespace Trace

variable {s : Seed} {opts : Options} {pl : Walk.Plan} {out : Walk.Outcome}

/-- A trace depends on the neighbourhood that it walks through. If a trace without a stop edge
succeeds, then so does the same request in any picture of the same size that agrees with the first one
on the seed, the pixels that the trace visits, and the eight neighbours of these, and it walks along
the same edges with the same outcome. -/
theorem run_local (hstop : opts.stopAt = none) (hplan : plan p s opts = .ok pl)
    (hrun : run p s opts = .ok out) (hwidth : p'.width = p.width) (hheight : p'.height = p.height)
    (hagree : ∀ a, a = ⟨s.x, s.y⟩ ∨ (∃ e ∈ pl.edges p, e.point = a) →
      ∀ q, a.Touches true q → p'.inkAt q = p.inkAt q) :
    run p' s opts = .ok out ∧ plan p' s opts = .ok pl ∧ pl.edges p' = pl.edges p := by
  have haround : ∀ a, a = ⟨s.x, s.y⟩ ∨ (∃ e ∈ pl.edges p, e.point = a) → p.AgreesAround p' a :=
    fun a ha => ⟨hwidth, hheight, hagree a ha⟩
  have hplan' : plan p' s opts = .ok pl := (plan_congr (haround _ (.inl rfl)) hstop).trans hplan
  obtain ⟨hsame, hedges⟩ := Walk.Plan.run_congr fun e he => haround _ (.inr ⟨e, he, rfl⟩)
  refine ⟨?_, hplan', hedges⟩
  rw [run_eq hplan', hsame, ← run_eq hplan, hrun]

/-- A square that lacks a corner, traced from its middle with border suppression, beside which the second
picture has two columns of ink. -/
theorem run_local_square :
    let p : Picture := ⟨7, 5, fun x y => x ≤ 2 && y ≤ 2 && x + y != 0⟩
    let p' : Picture := ⟨7, 5, fun x y => x ≤ 2 && y ≤ 2 && x + y != 0 || 5 ≤ x⟩
    let s : Seed := ⟨1, 1, .auto⟩
    let opts : Options := { orientation := .clockwise, suppressBorder := true }
    opts.stopAt = none ∧ p'.width = p.width ∧ p'.height = p.height ∧
    ∃ pl out, plan p s opts = .ok pl ∧ run p s opts = .ok out ∧
      (∀ a, a = ⟨s.x, s.y⟩ ∨ (∃ e ∈ pl.edges p, e.point = a) →
        ∀ q, a.Touches true q → p'.inkAt q = p.inkAt q) ∧
      run p' s opts = .ok out ∧ plan p' s opts = .ok pl ∧ pl.edges p' = pl.edges p := by
  intro p p' s opts
  obtain ⟨pl, hplan, hleft⟩ : ∃ pl, plan p s opts = .ok pl ∧ ∀ e ∈ pl.edges p, e.x ≤ 2 :=
    ⟨_, rfl, by decide⟩
  have hsame : ∀ q : Point, q.x ≤ 3 → p'.inkAt q = p.inkAt q := by
    intro q hq
    have hfar : ¬5 ≤ q.x := by omega
    simp only [p, p', Picture.inkAt, Picture.isInk, decide_eq_false hfar, Bool.or_false]
    rfl
  have hagree : ∀ a, a = ⟨s.x, s.y⟩ ∨ (∃ e ∈ pl.edges p, e.point = a) →
      ∀ q, a.Touches true q → p'.inkAt q = p.inkAt q := by
    intro a ha q htouches
    have hcolumn : a.x ≤ 2 := by
      rcases ha with rfl | ⟨e, he, rfl⟩
      · decide
      · exact hleft e he
    simp only [Point.Touches, if_true] at htouches
    exact hsame q (by omega)
  exact ⟨rfl, rfl, rfl, pl, _, hplan, run_eq hplan, hagree,
    run_local rfl hplan (run_eq hplan) rfl rfl hagree⟩

end Trace

end Perimeter
