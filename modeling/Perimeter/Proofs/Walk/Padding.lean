import Perimeter.Proofs.Region.Padding
import Perimeter.Walk

/-!
# Walks between margins

The three rules look at pixels next to the edge only, so a walk in a picture with margins makes the moves
of the walk without them. Without border suppression all pixels of a walk are visible, and the image
border, which is somewhere else now, does not come in.
-/

namespace Perimeter

variable {p : Picture} {m : Margins} {o : Orientation} {e : Edge} {dx dy : Int}

/-! ## Edges -/

/-- The edge moved by an offset. -/
def Edge.shift (e : Edge) (dx dy : Int) : Edge := ⟨e.x + dx, e.y + dy, e.heading⟩

namespace Edge

theorem shift_injective (dx dy : Int) : Function.Injective fun e : Edge => e.shift dx dy := by
  intro e f heq
  obtain ⟨x, y, h⟩ := e
  obtain ⟨x', y', h'⟩ := f
  simpa [shift] using heq

theorem aheadPoint_shift (e : Edge) : (e.shift dx dy).aheadPoint = e.aheadPoint.shift dx dy := by
  simp only [aheadPoint, shift, Point.shift, Point.mk.injEq]
  omega

theorem diagonalPoint_shift (o : Orientation) (e : Edge) :
    (e.shift dx dy).diagonalPoint o = (e.diagonalPoint o).shift dx dy := by
  simp only [diagonalPoint, shift, Point.shift, Point.mk.injEq]
  omega

theorem apply_shift (o : Orientation) (e : Edge) (a : Move) :
    (e.shift dx dy).apply o a = (e.apply o a).shift dx dy := by
  cases a with
  | diagonal =>
    simp only [apply, diagonalPoint_shift]
    rfl
  | ahead =>
    simp only [apply, aheadPoint_shift]
    rfl
  | turn => rfl

end Edge

namespace Picture

theorem move_padded (p : Picture) (m : Margins) (o : Orientation) (e : Edge) :
    (p.padded m).move o (e.shift m.left m.top) = p.move o e := by
  have hdiagonal : (p.padded m).inkDiagonal o (e.shift m.left m.top) = p.inkDiagonal o e := by
    rw [inkDiagonal, Edge.diagonalPoint_shift, inkAt_padded, inkDiagonal]
  have hahead : (p.padded m).inkAhead (e.shift m.left m.top) = p.inkAhead e := by
    rw [inkAhead, Edge.aheadPoint_shift, inkAt_padded, inkAhead]
  rw [move, move, hdiagonal, hahead]

end Picture

/-! ## Walks -/

namespace Walk

/-- The same walk from a moved start. -/
def Plan.shift (plan : Plan) (dx dy : Int) : Plan :=
  { plan with
    start := plan.start.shift dx dy
    stop := plan.stop.map fun e => e.shift dx dy }

/-- The state with its edge and its points moved. -/
def State.shift (s : State) (dx dy : Int) : State :=
  { s with
    edge := s.edge.shift dx dy
    points := s.points.map fun a => a.shift dx dy }

/-- The outcome with its edges and its points moved. -/
def Outcome.shift (out : Outcome) (dx dy : Int) : Outcome where
  result := { out.result with
    start := out.result.start.shift dx dy
    stop := out.result.stop.shift dx dy }
  points := out.points.map fun a => a.shift dx dy

variable {plan : Plan} {s : State}

theorem Plan.visible_step (hborder : plan.suppressBorder = false) (hs : s.visible = true) :
    (plan.step p s).visible = true := by
  simp only [step, hborder, hs]
  cases p.move plan.orientation s.edge <;> rfl

theorem Plan.step_padded (m : Margins) (hborder : plan.suppressBorder = false)
    (hs : s.visible = true) :
    (plan.shift m.left m.top).step (p.padded m) (s.shift m.left m.top) =
      (plan.step p s).shift m.left m.top := by
  have hmove := p.move_padded m plan.orientation s.edge
  simp only [step, shift, State.shift, hmove, hborder, hs, Edge.apply_shift]
  cases p.move plan.orientation s.edge with
  | diagonal => simp [Edge.point, Edge.shift, Point.shift]
  | ahead => simp [Edge.point, Edge.shift, Point.shift]
  | turn => simp

theorem Plan.endsOn_shift (plan : Plan) (e : Edge) (dx dy : Int) :
    (plan.shift dx dy).endsOn (e.shift dx dy) = plan.endsOn e := by
  have hstop : plan.stop.map (fun f => f.shift dx dy) = some (e.shift dx dy) ↔ plan.stop = some e :=
    (Option.map_injective (Edge.shift_injective dx dy)).eq_iff (b := some e)
  rw [Bool.eq_iff_iff]
  simp only [endsOn, shift, Bool.or_eq_true, beq_iff_eq, hstop, (Edge.shift_injective dx dy).eq_iff]

theorem Plan.halts_shift (plan : Plan) (a : Move) (s : State) :
    (plan.shift dx dy).halts a (s.shift dx dy) = plan.halts a s := by
  rw [halts, halts, ← plan.endsOn_shift s.edge dx dy]
  rfl

theorem Plan.go_padded (m : Margins) (hborder : plan.suppressBorder = false) (n : Nat)
    (hs : s.visible = true) :
    (plan.shift m.left m.top).go (p.padded m) n (s.shift m.left m.top) =
      (plan.go p n s).shift m.left m.top := by
  induction n generalizing s with
  | zero => rfl
  | succ n ih =>
    have hmove : (p.padded m).move (plan.shift m.left m.top).orientation (s.shift m.left m.top).edge =
        p.move plan.orientation s.edge := p.move_padded m plan.orientation s.edge
    simp only [go, step_padded m hborder hs, hmove, halts_shift]
    split
    · rfl
    · exact ih (visible_step hborder hs)

theorem Plan.finish_shift (plan : Plan) (s : State) :
    (plan.shift dx dy).finish (s.shift dx dy) = (plan.finish s).shift dx dy := by
  have hback : (s.edge.shift dx dy == plan.start.shift dx dy) = (s.edge == plan.start) := by
    rw [Bool.eq_iff_iff, beq_iff_eq, beq_iff_eq, (Edge.shift_injective dx dy).eq_iff]
  have hends := plan.endsOn_shift s.edge dx dy
  simp only [finish, Outcome.shift, State.shift, shift] at hends ⊢
  simp only [hback, hends]
  split_ifs <;> simp [Edge.point, Edge.shift, Point.shift]

/-- A walk between margins is the moved walk. -/
theorem Plan.run_padded (p : Picture) (m : Margins) (hborder : plan.suppressBorder = false) :
    (plan.shift m.left m.top).run (p.padded m) = (plan.run p).shift m.left m.top := by
  have hinitial : (plan.shift m.left m.top).initial (p.padded m) =
      (plan.initial p).shift m.left m.top := by
    simp [initial, shift, State.shift, hborder]
  have hvisible : (plan.initial p).visible = true := by simp [initial, hborder]
  rw [run, run, hinitial, ← finish_shift, ← go_padded m hborder _ hvisible]
  rfl

end Walk

end Perimeter
