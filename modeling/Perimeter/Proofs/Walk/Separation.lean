import Perimeter.Proofs.Geometry.Lattice
import Perimeter.Proofs.Region.Connected
import Perimeter.Proofs.Trace.Request
import Perimeter.Proofs.Walk.Length

/-!
# What lies on both sides of a walk

A walk has ink on one hand and background on the other, and it changes neither: every move stays on
the component of the pixel it leaves, and the bordering pixels before and after it are connected by
background around the same corner. So from one end of a walk to the other, whatever ends it, the pixels
belong to one component and the bordering pixels to one region of the plane.
-/

namespace Perimeter

open Function

/-! ## Pixels around an edge touch -/

theorem Point.touches_of_heading {a b : Point} (corners : Bool) (h : Heading)
    (hx : b.x - a.x = h.dx) (hy : b.y - a.y = h.dy) : a.Touches corners b := by
  rw [Touches, hx, hy]
  cases corners <;> cases h <;> decide

namespace Edge

variable (o : Orientation) (e : Edge)

theorem touches_aheadPoint (corners : Bool) : e.point.Touches corners e.aheadPoint := by
  refine Point.touches_of_heading corners e.heading ?_ ?_ <;> simp only [point, aheadPoint] <;> omega

theorem touches_leftPoint (corners : Bool) : e.point.Touches corners (e.leftPoint o) := by
  refine Point.touches_of_heading corners (e.heading.turnLeft o) ?_ ?_ <;>
    simp only [point, leftPoint] <;> omega

theorem touches_diagonalPoint : e.point.Touches true (e.diagonalPoint o) := by
  obtain ⟨hx, hy⟩ := e.heading.corner_offset o
  simp only [Point.Touches, if_true, point, diagonalPoint]
  omega

theorem leftPoint_touches_diagonalPoint (corners : Bool) :
    (e.leftPoint o).Touches corners (e.diagonalPoint o) := by
  refine Point.touches_of_heading corners e.heading ?_ ?_ <;>
    simp only [leftPoint, diagonalPoint] <;> omega

theorem diagonalPoint_touches_aheadPoint (corners : Bool) :
    (e.diagonalPoint o).Touches corners e.aheadPoint := by
  refine Point.touches_of_heading corners (e.heading.turnRight o) ?_ ?_ <;>
    simp only [aheadPoint, diagonalPoint, Heading.dx_turnRight, Heading.dy_turnRight] <;> omega

/-- A step leads to a neighbour. -/
theorem distance_apply {m : Move} (h : m ≠ .turn) : e.point.distance (e.apply o m).point = 1 := by
  cases m with
  | diagonal =>
    obtain ⟨hx, hy⟩ := e.heading.corner_offset o
    simp only [apply, point, diagonalPoint, Point.distance]
    omega
  | ahead =>
    have hoffset : max e.heading.dx.natAbs e.heading.dy.natAbs = 1 := by
      cases e.heading <;> decide
    simp only [apply, point, aheadPoint, Point.distance]
    omega
  | turn => exact absurd rfl h

end Edge

theorem exists_heading_of_mem_allOffsets (o : Orientation) {d : Int × Int} (h : d ∈ allOffsets) :
    ∃ h ∈ Heading.all, d = (h.dx, h.dy) ∨
      d = (h.dx + (h.turnLeft o).dx, h.dy + (h.turnLeft o).dy) := by
  revert d
  cases o <;> decide

/-- Every pixel around another one lies ahead or diagonally ahead for one of the headings. -/
theorem Point.Touches.exists_heading {a b : Point} (h : a.Touches true b) (hne : a ≠ b)
    (o : Orientation) :
    ∃ d, b = Edge.aheadPoint ⟨a.x, a.y, d⟩ ∨ b = Edge.diagonalPoint o ⟨a.x, a.y, d⟩ := by
  obtain ⟨d, -, hd⟩ := exists_heading_of_mem_allOffsets o (mem_offsetsOf_of_touches h hne)
  obtain ⟨x, y⟩ := b
  simp only [Prod.mk.injEq] at hd
  simp only [Edge.aheadPoint, Edge.diagonalPoint, mk.injEq]
  exact ⟨d, by omega⟩

/-! ## One move, and all of them -/

namespace Picture

variable {p : Picture} {o : Orientation} {e : Edge}

/-- A move stays on the component of the pixel. -/
theorem IsBoundary.joined_nextEdge (h : p.IsBoundary o e) :
    p.Joined e.point (p.nextEdge o e).point := by
  have hink : p.inkAt e.point = true := h.1
  obtain ⟨hm, hd⟩ | ⟨hm, -, ha⟩ | ⟨hm, -⟩ := p.move_cases o e
  · have hd' : p.inkAt (e.diagonalPoint o) = true := hd
    rw [Picture.nextEdge, hm]
    refine .single ⟨h.contains, contains_of_inkAt hd', hd'.trans hink.symm, ?_⟩
    rw [hink]
    exact e.touches_diagonalPoint o
  · have ha' : p.inkAt e.aheadPoint = true := ha
    rw [Picture.nextEdge, hm]
    exact .single ⟨h.contains, contains_of_inkAt ha', ha'.trans hink.symm, e.touches_aheadPoint _⟩
  · rw [Picture.nextEdge, hm]
    exact .refl

/-- The whole walk stays on the component of its first pixel. -/
theorem IsBoundary.joined_iterate (h : p.IsBoundary o e) (n : Nat) :
    p.Joined e.point ((p.nextEdge o)^[n] e).point := by
  induction n with
  | zero => exact .refl
  | succ n ih =>
    rw [iterate_succ_apply']
    exact ih.trans (h.iterate n).joined_nextEdge

theorem IsBoundary.connected_diagonalPoint (h : p.IsBoundary o e) (hd : p.inkDiagonal o e = false) :
    p.Connected (e.leftPoint o) (e.diagonalPoint o) :=
  .single ⟨hd.trans h.2.symm, e.leftPoint_touches_diagonalPoint o _⟩

theorem IsBoundary.connected_leftPoint_nextEdge (h : p.IsBoundary o e) :
    p.Connected (e.leftPoint o) ((p.nextEdge o e).leftPoint o) := by
  obtain ⟨hm, -⟩ | ⟨hm, hd, -⟩ | ⟨hm, hd, ha⟩ := p.move_cases o e
  · rw [Picture.nextEdge, hm, e.leftPoint_apply_diagonal o]
    exact .refl
  · rw [Picture.nextEdge, hm, e.leftPoint_apply_ahead o]
    exact h.connected_diagonalPoint hd
  · -- Around the corner of the pixel the background is diagonally ahead and then ahead.
    rw [Picture.nextEdge, hm, e.leftPoint_apply_turn o]
    exact (h.connected_diagonalPoint hd).tail
      ⟨ha.trans hd.symm, e.diagonalPoint_touches_aheadPoint o _⟩

/-- The whole walk keeps the bordering pixel in the region where it was at the start. -/
theorem IsBoundary.connected_leftPoint_iterate (h : p.IsBoundary o e) (n : Nat) :
    p.Connected (e.leftPoint o) (((p.nextEdge o)^[n] e).leftPoint o) := by
  induction n with
  | zero => exact .refl
  | succ n ih =>
    rw [iterate_succ_apply']
    exact ih.trans (h.iterate n).connected_leftPoint_nextEdge

/-- The edge has ink of the same component on the one hand as the start, and background of the same
region of the plane on the other. -/
structure Separates (p : Picture) (o : Orientation) (start e : Edge) : Prop where
  contains : p.Contains e.x e.y
  ink : p.inkAt e.point = true
  joined : p.Joined start.point e.point
  background : p.inkAt (e.leftPoint o) = false
  connected : p.Connected (start.leftPoint o) (e.leftPoint o)

theorem IsBoundary.separates_iterate (h : p.IsBoundary o e) (n : Nat) :
    p.Separates o e ((p.nextEdge o)^[n] e) where
  contains := (h.iterate n).contains
  ink := (h.iterate n).1
  joined := h.joined_iterate n
  background := (h.iterate n).2
  connected := h.connected_leftPoint_iterate n

end Picture

/-! ## Walks -/

namespace Walk

variable {p : Picture} {plan : Plan} {e : Edge}

/-- The walk stands on the edge before one of its moves, or at its end. -/
def Plan.StandsOn (plan : Plan) (p : Picture) (e : Edge) : Prop :=
  e ∈ plan.edges p ∨ e = (plan.run p).result.stop

theorem Plan.StandsOn.exists_iterate (h : plan.StandsOn p e)
    (hstart : p.IsBoundary plan.orientation plan.start) :
    ∃ n, e = (p.nextEdge plan.orientation)^[n] plan.start := by
  obtain ⟨n, -, hrun⟩ := plan.exists_runsTo hstart
  rcases h with hmem | hstop
  · rw [hrun.edges_eq hstart, List.mem_map] at hmem
    obtain ⟨j, -, rfl⟩ := hmem
    exact ⟨j, rfl⟩
  · rw [hrun.run_eq hstart] at hstop
    exact ⟨n + 1, by rw [hstop, finish, after_edge]⟩

/-- Whatever ends a walk, it separates what its start separates as long as it lasts. -/
theorem Plan.StandsOn.separates (h : plan.StandsOn p e)
    (hstart : p.IsBoundary plan.orientation plan.start) :
    p.Separates plan.orientation plan.start e := by
  obtain ⟨n, rfl⟩ := h.exists_iterate hstart
  exact hstart.separates_iterate n

end Walk

end Perimeter
