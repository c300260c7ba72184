import Perimeter.Proofs.Trace.Request

/-!
# Visits on the image border

With border suppression a walk remembers whether the visit of its current pixel has an edge inside
the image. Looking back from the edge it stands on finds the same answer at every moment: after a
step that edge is the first of its visit, and a turn adds one edge to the visit. So the memory can be
restored from the picture, and the points of a walk are those of the edges that it leaves by a step
and from where it looks back on an edge inside.
-/

namespace Perimeter

namespace Picture

variable {p : Picture} {o : Orientation} {e : Edge}

theorem leftIsBorder_reverse : p.leftIsBorder o.opposite e.reverse = p.leftIsBorder o e := by
  simp [leftIsBorder, isLeftBorder, Edge.reverse]

/-- A step from pixel to pixel inside the image does not leave it. -/
theorem isAheadBorder_eq_false (hsize : p.WordSized) {x y : Int} {h : Heading}
    (hin : p.Contains x y) (hnext : p.Contains (x + h.dx) (y + h.dy)) :
    isAheadBorder x y h p.width p.height = false := by
  obtain ⟨hx, hy, hw, hh⟩ := hin
  obtain ⟨hx', hy', hw', hh'⟩ := hnext
  obtain ⟨hfw, hfh⟩ : FitsWord (p.width - 1) ∧ FitsWord (p.height - 1) := by
    have hwords := hsize
    simp only [WordSized, FitsWord] at hwords ⊢
    omega
  cases h with
  | up =>
    simp only [Heading.dy] at hy'
    exact beq_false_of_ne (by omega)
  | right =>
    simp only [Heading.dx] at hw'
    rw [isAheadBorder, wrap64_eq_self hfw]
    exact beq_false_of_ne (by omega)
  | down =>
    simp only [Heading.dy] at hh'
    rw [isAheadBorder, wrap64_eq_self hfh]
    exact beq_false_of_ne (by omega)
  | left =>
    simp only [Heading.dx] at hx'
    exact beq_false_of_ne (by omega)

/-- Beside a diagonal step inside the image the bordering pixel is inside, too. -/
theorem IsBoundary.contains_leftPoint (h : p.IsBoundary o e) (hd : p.inkDiagonal o e = true) :
    p.Contains (e.leftPoint o).x (e.leftPoint o).y := by
  have hin := h.contains
  have hdiag := contains_of_inkAt hd
  have haxes : (e.heading.dx = 0 ∧ (e.heading.turnLeft o).dy = 0) ∨
      (e.heading.dy = 0 ∧ (e.heading.turnLeft o).dx = 0) := by
    cases o <;> cases e.heading <;> decide
  simp only [Contains, Edge.leftPoint, Edge.diagonalPoint] at hin hdiag ⊢
  omega

/-- A bordering pixel inside the image keeps the edge away from the image border. -/
theorem IsBoundary.leftIsBorder_eq_false (hsize : p.WordSized) (h : p.IsBoundary o e)
    (hleft : p.Contains (e.leftPoint o).x (e.leftPoint o).y) : p.leftIsBorder o e = false :=
  isAheadBorder_eq_false hsize h.contains hleft

/-- After a diagonal step the bordering side faces backwards, towards the pixel that the step went
around. -/
theorem IsBoundary.leftIsBorder_apply_diagonal (hsize : p.WordSized) (h : p.IsBoundary o e)
    (hd : p.inkDiagonal o e = true) : p.leftIsBorder o (e.apply o .diagonal) = false := by
  have hleft := h.contains_leftPoint hd
  rw [← e.leftPoint_apply_diagonal o] at hleft
  exact isAheadBorder_eq_false hsize (contains_of_inkAt hd) hleft

/-! ## Looking back -/

theorem entersInside_go_succ (n : Nat) (e : Edge) :
    entersInside.go p o (n + 1) e = (!p.leftIsBorder o.opposite e ||
      (decide (p.move o.opposite e = .turn) &&
        entersInside.go p o n (e.apply o.opposite .turn))) := by
  rw [entersInside.go]
  cases p.leftIsBorder o.opposite e <;> by_cases hm : p.move o.opposite e = .turn <;> simp [hm]

theorem entersInside_of_leftIsBorder_eq_false (h : p.leftIsBorder o e = false) :
    p.entersInside o e = true := by
  rw [entersInside, entersInside_go_succ, leftIsBorder_reverse, h]
  rfl

/-- Right after a step, looking back finds exactly the edge that the walk stands on. -/
theorem IsBoundary.entersInside_nextEdge (h : p.IsBoundary o e) (hm : p.move o e ≠ .turn) :
    p.entersInside o (p.nextEdge o e) = !p.leftIsBorder o (p.nextEdge o e) := by
  have hback : p.move o.opposite (p.nextEdge o e).reverse ≠ .turn := by
    rw [h.move_reverse]
    exact hm
  rw [entersInside, entersInside_go_succ, leftIsBorder_reverse, decide_eq_false hback]
  simp

/-- After a turn, looking back finds what it found before, and the edge that the turn led to. -/
theorem IsBoundary.entersInside_nextEdge_turn (h : p.IsBoundary o e) (hm : p.move o e = .turn) :
    p.entersInside o (p.nextEdge o e) =
      (p.entersInside o e || !p.leftIsBorder o (p.nextEdge o e)) := by
  have hback : p.move o.opposite (p.nextEdge o e).reverse = .turn := by
    rw [h.move_reverse, hm]
  have hundo : (p.nextEdge o e).reverse.apply o.opposite .turn = e.reverse := by
    rw [Picture.nextEdge, hm, Edge.apply_reverse_apply]
  rw [entersInside, entersInside_go_succ, leftIsBorder_reverse, hback, hundo]
  cases hborder : p.leftIsBorder o (p.nextEdge o e) with
  | false => simp
  | true =>
    -- The look back is one edge shorter now. Were that edge the only one inside, three more turns
    -- back would have led to it, and it would be the edge that the walk stands on.
    have hlast : ((e.reverse.apply o.opposite .turn).apply o.opposite .turn).apply o.opposite .turn =
        (p.nextEdge o e).reverse := by
      rw [← hundo, turn_turn_turn_turn]
    have hnone : entersInside.go p o 1 (p.nextEdge o e).reverse = false := by
      rw [entersInside_go_succ, leftIsBorder_reverse, hborder]
      simp [entersInside.go]
    have hthree : entersInside.go p o 3 e.reverse = entersInside.go p o 4 e.reverse := by
      rw [entersInside_go_succ 2, entersInside_go_succ 1, entersInside_go_succ 0,
        entersInside_go_succ 3, entersInside_go_succ 2, entersInside_go_succ 1, hlast, hnone,
        entersInside.go]
    simp [hthree, entersInside]

end Picture

namespace Walk

variable {p : Picture} {plan : Plan} {s : State}

theorem Plan.step_visible :
    (plan.step p s).visible =
      match p.move plan.orientation s.edge with
      | .diagonal => true
      | .ahead =>
        if plan.suppressBorder then
          !p.leftIsBorder plan.orientation (p.nextEdge plan.orientation s.edge)
        else s.visible
      | .turn =>
        s.visible || !p.leftIsBorder plan.orientation (p.nextEdge plan.orientation s.edge) := by
  simp only [step, Picture.nextEdge]
  split <;> rename_i hm <;> simp [hm]

/-- The points that a move adds: the pixel it leaves, if the visit is visible. -/
def pointsLeft (p : Picture) (o : Orientation) (e : Edge) (visible : Bool) : Array Point :=
  match p.move o e with
  | .diagonal => #[e.point]
  | .ahead => if visible then #[e.point] else #[]
  | .turn => #[]

theorem Plan.step_points :
    (plan.step p s).points = s.points ++ pointsLeft p plan.orientation s.edge s.visible := by
  cases hm : p.move plan.orientation s.edge with
  | diagonal => simp [step, pointsLeft, hm]
  | ahead => cases hv : s.visible <;> simp [step, pointsLeft, hm, hv]
  | turn => simp [step, pointsLeft, hm]

/-- The visit of the pixel of an edge shows up in the points, as far as the walk has come. -/
def Plan.shows (plan : Plan) (p : Picture) (e : Edge) : Bool :=
  !plan.suppressBorder || p.entersInside plan.orientation e

/-- A move keeps the memory of a walk in step with what it sees when it looks back. -/
theorem Plan.step_visible_eq (hsize : p.WordSized) (hedge : p.IsBoundary plan.orientation s.edge)
    (h : s.visible = plan.shows p s.edge) :
    (plan.step p s).visible = plan.shows p (plan.step p s).edge := by
  rw [step_visible, step_edge, h, shows, shows]
  obtain ⟨hm, hd⟩ | ⟨hm, -, -⟩ | ⟨hm, -, -⟩ := p.move_cases plan.orientation s.edge
  · have hinside := hedge.leftIsBorder_apply_diagonal hsize hd
    rw [hm, hedge.entersInside_nextEdge (by rw [hm]; decide), Picture.nextEdge, hm, hinside]
    simp
  · rw [hm, hedge.entersInside_nextEdge (by rw [hm]; decide)]
    cases plan.suppressBorder <;> simp
  · rw [hm, hedge.entersInside_nextEdge_turn hm]
    cases plan.suppressBorder <;> simp

/-- At every moment the picture tells whether the visit is visible, as it does for a start. -/
theorem Plan.visible_after (plan : Plan) (hsize : p.WordSized)
    (hstart : p.IsBoundary plan.orientation plan.start) (n : Nat) :
    (plan.after p n).visible =
      plan.shows p ((p.nextEdge plan.orientation)^[n] plan.start) := by
  rw [← after_edge]
  induction n with
  | zero => rfl
  | succ n ih =>
    rw [after_succ]
    refine step_visible_eq hsize ?_ ih
    rw [after_edge]
    exact hstart.iterate n

end Walk

end Perimeter
