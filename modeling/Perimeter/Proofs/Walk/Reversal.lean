import Mathlib.Data.Set.Function
import Perimeter.Proofs.Picture
import Perimeter.Walk

/-!
# The walk backwards

A move leads from a boundary edge to a boundary edge, and it can be undone: turn around, make the
move of the opposite orientation and turn around again. So no two boundary edges have the same
successor, which is what makes contours closed and disjoint.
-/

namespace Perimeter

/-! ## Turning twice, and turning around -/

namespace Heading

variable (o : Orientation) (h : Heading)

@[simp] theorem turnLeft_turnLeft : (h.turnLeft o).turnLeft o = h.reverse := by
  cases o <;> cases h <;> rfl

@[simp] theorem reverse_turnRight : (h.turnRight o).reverse = h.turnLeft o := by
  cases o <;> cases h <;> rfl

@[simp] theorem turnLeft_opposite_turnLeft : (h.turnLeft o).turnLeft o.opposite = h := by
  cases o <;> cases h <;> rfl

@[simp] theorem turnRight_opposite : h.turnRight o.opposite = h.turnLeft o := by
  cases o <;> cases h <;> rfl

end Heading

/-! ## What lies around an edge after a move -/

namespace Edge

variable (o : Orientation) (e : Edge)

theorem leftPoint_apply_diagonal : (e.apply o .diagonal).leftPoint o = e.leftPoint o := by
  simp only [apply, leftPoint, diagonalPoint, Heading.turnLeft_turnLeft, Heading.dx_reverse,
    Heading.dy_reverse, Point.mk.injEq]
  omega

theorem leftPoint_apply_ahead : (e.apply o .ahead).leftPoint o = e.diagonalPoint o := rfl

theorem leftPoint_apply_turn : (e.apply o .turn).leftPoint o = e.aheadPoint := by
  simp [apply, leftPoint, aheadPoint]

/-- Behind a diagonal step lies, diagonally, the pixel that it left. -/
theorem diagonalPoint_reverse_diagonal :
    (e.apply o .diagonal).reverse.diagonalPoint o.opposite = e.point := by
  simp only [apply, reverse, point, diagonalPoint, Heading.turnLeft_opposite_reverse,
    Heading.turnLeft_turnLeft, Heading.dx_reverse, Heading.dy_reverse, Point.mk.injEq]
  omega

/-- Behind a step ahead lies the pixel that it left. -/
theorem aheadPoint_reverse_ahead : (e.apply o .ahead).reverse.aheadPoint = e.point := by
  simp only [apply, reverse, point, aheadPoint, Heading.dx_reverse, Heading.dy_reverse,
    Point.mk.injEq]
  omega

/-- Diagonally behind a step ahead lies the bordering pixel of the edge that it left. -/
theorem diagonalPoint_reverse_ahead :
    (e.apply o .ahead).reverse.diagonalPoint o.opposite = e.leftPoint o := by
  simp only [apply, reverse, leftPoint, aheadPoint, diagonalPoint,
    Heading.turnLeft_opposite_reverse, Heading.dx_reverse, Heading.dy_reverse, Point.mk.injEq]
  omega

/-- After a turn on the spot, what was on the bordering side lies behind. -/
theorem aheadPoint_reverse_turn : (e.apply o .turn).reverse.aheadPoint = e.leftPoint o := by
  simp [apply, reverse, leftPoint, aheadPoint]

theorem diagonalPoint_reverse_turn :
    (e.apply o .turn).reverse.diagonalPoint o.opposite = e.diagonalPoint o := by
  simp only [apply, reverse, diagonalPoint, Heading.reverse_turnRight,
    Heading.turnLeft_opposite_turnLeft, Point.mk.injEq]
  omega

/-- Every kind of move is undone by the same kind of move of the opposite orientation. -/
theorem apply_reverse_apply (m : Move) :
    (e.apply o m).reverse.apply o.opposite m = e.reverse := by
  cases m with
  | diagonal =>
    simp only [apply, reverse, diagonalPoint, Heading.turnLeft_opposite_reverse,
      Heading.turnLeft_turnLeft, Heading.dx_reverse, Heading.dy_reverse, Edge.mk.injEq, and_true]
    omega
  | ahead =>
    simp only [apply, reverse, aheadPoint, Heading.dx_reverse, Heading.dy_reverse, Edge.mk.injEq,
      and_true]
    omega
  | turn => simp [apply, reverse]

end Edge

/-! ## The successor of a boundary edge -/

namespace Picture

variable {p : Picture} {o : Orientation} {e e' : Edge}

/-- What the three rules say of the pixels around an edge. -/
theorem move_cases (p : Picture) (o : Orientation) (e : Edge) :
    (p.move o e = .diagonal ∧ p.inkDiagonal o e = true) ∨
    (p.move o e = .ahead ∧ p.inkDiagonal o e = false ∧ p.inkAhead e = true) ∨
    (p.move o e = .turn ∧ p.inkDiagonal o e = false ∧ p.inkAhead e = false) := by
  cases hd : p.inkDiagonal o e <;> cases ha : p.inkAhead e <;> simp [move, hd, ha]

theorem move_ne_ahead (h : p.inkAhead e = false) : p.move o e ≠ .ahead := by
  rw [move, h]
  split <;> decide

theorem IsBoundary.contains (h : p.IsBoundary o e) : p.Contains e.x e.y :=
  contains_of_inkAt (q := e.point) h.1

theorem IsBoundary.wordSized (h : p.IsBoundary o e) (hfit : p.Fits) : p.WordSized := by
  obtain ⟨hx, hy, hw, hh⟩ := h.contains
  exact hfit.wordSized (by omega) (by omega)

/-- A move leads from a boundary edge to a boundary edge. -/
theorem IsBoundary.nextEdge (h : p.IsBoundary o e) : p.IsBoundary o (p.nextEdge o e) := by
  obtain ⟨hink, hleft⟩ := h
  obtain ⟨hm, hd⟩ | ⟨hm, hd, ha⟩ | ⟨hm, hd, ha⟩ := p.move_cases o e
  · rw [Picture.nextEdge, hm]
    refine ⟨hd, ?_⟩
    rw [inkLeft, e.leftPoint_apply_diagonal o]
    exact hleft
  · rw [Picture.nextEdge, hm]
    refine ⟨ha, ?_⟩
    rw [inkLeft, e.leftPoint_apply_ahead o]
    exact hd
  · rw [Picture.nextEdge, hm]
    refine ⟨hink, ?_⟩
    rw [inkLeft, e.leftPoint_apply_turn o]
    exact ha

/-- Turned around after a move, the walk of the opposite orientation makes the same kind of move. -/
theorem IsBoundary.move_reverse (h : p.IsBoundary o e) :
    p.move o.opposite (p.nextEdge o e).reverse = p.move o e := by
  obtain ⟨hink, hleft⟩ := h
  obtain ⟨hm, hd⟩ | ⟨hm, hd, ha⟩ | ⟨hm, hd, ha⟩ := p.move_cases o e
  · have hback : p.inkDiagonal o.opposite (e.apply o .diagonal).reverse = true := by
      rw [inkDiagonal, Edge.diagonalPoint_reverse_diagonal]
      exact hink
    rw [Picture.nextEdge, hm, move, if_pos hback]
  · have hback : p.inkDiagonal o.opposite (e.apply o .ahead).reverse = false := by
      rw [inkDiagonal, Edge.diagonalPoint_reverse_ahead]
      exact hleft
    have hbehind : p.inkAhead (e.apply o .ahead).reverse = true := by
      rw [inkAhead, Edge.aheadPoint_reverse_ahead]
      exact hink
    rw [Picture.nextEdge, hm, move]
    simp [hback, hbehind]
  · have hback : p.inkDiagonal o.opposite (e.apply o .turn).reverse = false := by
      rw [inkDiagonal, Edge.diagonalPoint_reverse_turn]
      exact hd
    have hbehind : p.inkAhead (e.apply o .turn).reverse = false := by
      rw [inkAhead, Edge.aheadPoint_reverse_turn]
      exact hleft
    rw [Picture.nextEdge, hm, move]
    simp [hback, hbehind]

/-- Turning around, one move of the opposite orientation and turning around again undo a move. -/
theorem IsBoundary.nextEdge_reverse (h : p.IsBoundary o e) :
    p.nextEdge o.opposite (p.nextEdge o e).reverse = e.reverse := by
  rw [Picture.nextEdge, h.move_reverse, Picture.nextEdge, Edge.apply_reverse_apply]

/-- No two boundary edges have the same successor. -/
theorem nextEdge_injOn (p : Picture) (o : Orientation) :
    Set.InjOn (p.nextEdge o) {e | p.IsBoundary o e} := by
  intro e he e' he' heq
  have hback : e.reverse = e'.reverse := by
    rw [← IsBoundary.nextEdge_reverse he, heq, IsBoundary.nextEdge_reverse he']
  rw [← e.reverse_reverse, hback, e'.reverse_reverse]

end Picture

end Perimeter
