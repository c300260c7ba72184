import Perimeter.Proofs.Walk.Visibility

/-!
# Walks with and without border suppression

Border suppression changes the points of a walk and nothing else: the edges, the counters and the end
are the same. The points are those of the edges that the walk leaves by a step, as far as they show up.
-/

namespace Perimeter

namespace Picture

/-- The walk goes on from the edge by turning on the spot. -/
def turnsOn (p : Picture) (o : Orientation) (e : Edge) : Bool := decide (p.move o e = .turn)

end Picture

namespace Walk

variable {p : Picture} {plan : Plan}

/-- The same walk with border suppression, or without it. -/
def Plan.suppressing (plan : Plan) (on : Bool) : Plan := { plan with suppressBorder := on }

theorem Plan.RunsTo.suppressing {n : Nat} (h : plan.RunsTo p n) (on : Bool) :
    (plan.suppressing on).RunsTo p n := by
  have hends : ∀ i, (plan.suppressing on).EndsWith p i ↔ plan.EndsWith p i := by
    intro i
    rw [endsWith_iff, endsWith_iff]
    exact Iff.rfl
  exact ⟨fun i hi hend => h.goesOn i hi ((hends i).1 hend), (hends n).2 h.ends⟩

theorem Plan.edges_suppressing (plan : Plan) (hstart : p.IsBoundary plan.orientation plan.start)
    (on : Bool) : (plan.suppressing on).edges p = plan.edges p := by
  obtain ⟨n, -, hrun⟩ := plan.exists_runsTo hstart
  rw [hrun.edges_eq hstart, (hrun.suppressing on).edges_eq hstart]
  rfl

/-- The result of a walk does not depend on border suppression. -/
theorem Plan.result_run_suppressing (plan : Plan)
    (hstart : p.IsBoundary plan.orientation plan.start) (on : Bool) :
    ((plan.suppressing on).run p).result = (plan.run p).result := by
  obtain ⟨n, -, hrun⟩ := plan.exists_runsTo hstart
  rw [hrun.run_eq hstart, (hrun.suppressing on).run_eq hstart]
  simp only [finish, after_edge, after_length, after_turns]
  rfl

theorem Plan.pointsLeft_shows (hsize : p.WordSized) {e : Edge} (he : p.IsBoundary plan.orientation e) :
    (pointsLeft p plan.orientation e (plan.shows p e)).toList =
      if !p.turnsOn plan.orientation e && plan.shows p e then [e.point] else [] := by
  obtain ⟨hm, hd⟩ | ⟨hm, -⟩ | ⟨hm, -⟩ := p.move_cases plan.orientation e
  · -- Beside a diagonal step there is background inside the image.
    have hinside := he.leftIsBorder_eq_false hsize (he.contains_leftPoint hd)
    simp [pointsLeft, Picture.turnsOn, hm, shows, Picture.entersInside_of_leftIsBorder_eq_false hinside]
  · cases hshows : plan.shows p e <;> simp [pointsLeft, Picture.turnsOn, hm]
  · simp [pointsLeft, Picture.turnsOn, hm]

/-- The points that a walk along these edges makes: the pixels that it leaves by a step, as far as they
show up. -/
def Plan.shown (plan : Plan) (p : Picture) (edges : List Edge) : List Point :=
  (edges.filter fun e => !p.turnsOn plan.orientation e && plan.shows p e).map Edge.point

theorem Plan.shown_append (plan : Plan) (p : Picture) (l l' : List Edge) :
    plan.shown p (l ++ l') = plan.shown p l ++ plan.shown p l' := by
  rw [shown, List.filter_append, List.map_append]
  rfl

theorem Plan.shown_singleton (plan : Plan) (p : Picture) (e : Edge) :
    plan.shown p [e] =
      if !p.turnsOn plan.orientation e && plan.shows p e then [e.point] else [] := by
  rw [shown, List.filter_singleton]
  split_ifs with h <;> simp [h]

theorem Plan.points_after (plan : Plan) (hsize : p.WordSized)
    (hstart : p.IsBoundary plan.orientation plan.start) (n : Nat) :
    (plan.after p n).points.toList =
      plan.shown p ((List.range n).map fun i => (p.nextEdge plan.orientation)^[i] plan.start) := by
  induction n with
  | zero => rfl
  | succ n ih =>
    rw [after_succ, step_points, Array.toList_append, ih, plan.visible_after hsize hstart, after_edge,
      pointsLeft_shows hsize (hstart.iterate n), List.range_succ, List.map_append, shown_append,
      List.map_singleton, shown_singleton]

/-- A walk all of whose edges show up in spite of border suppression is the same without. -/
theorem Plan.run_suppressing_eq (hsize : p.WordSized)
    (hstart : p.IsBoundary plan.orientation plan.start)
    (hshows : ∀ n, p.entersInside plan.orientation
      ((p.nextEdge plan.orientation)^[n] plan.start) = true) (on : Bool) :
    (plan.suppressing on).run p = plan.run p := by
  have hall : ∀ on n, (plan.suppressing on).shows p
      ((p.nextEdge plan.orientation)^[n] plan.start) = true := by
    intro on n
    rw [shows]
    exact Bool.or_eq_true_iff.2 (.inr (hshows n))
  have hvisible : ∀ n, ((plan.suppressing on).after p n).visible = (plan.after p n).visible := by
    intro n
    rw [(plan.suppressing on).visible_after hsize hstart, plan.visible_after hsize hstart]
    exact (hall on n).trans (hall plan.suppressBorder n).symm
  have hpoints : ∀ n, ((plan.suppressing on).after p n).points = (plan.after p n).points := by
    intro n
    rw [← Array.toList_inj, (plan.suppressing on).points_after hsize hstart,
      plan.points_after hsize hstart]
    refine congrArg (List.map Edge.point) (List.filter_congr fun e he => ?_)
    obtain ⟨i, -, rfl⟩ := List.mem_map.1 he
    exact congrArg _ ((hall on i).trans (hall plan.suppressBorder i).symm)
  obtain ⟨n, -, hrun⟩ := plan.exists_runsTo hstart
  rw [hrun.run_eq hstart, (hrun.suppressing on).run_eq hstart]
  simp only [finish, after_edge, after_length, after_turns, hpoints, hvisible]
  rfl

end Walk

end Perimeter
