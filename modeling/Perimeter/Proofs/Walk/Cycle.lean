import Mathlib.Data.Set.Finite.Lattice
import Mathlib.Data.Set.Finite.Range
import Mathlib.Data.Finite.Prod
import Mathlib.Data.Int.Interval
import Mathlib.Dynamics.PeriodicPts.Defs
import Perimeter.Proofs.Walk.Reversal

/-!
# Contours are cycles

A picture has finitely many boundary edges and the successor is injective on them, so whoever
follows the boundary comes back to where they started. The number of moves of one round is the
minimal period of the start edge under `Picture.nextEdge`.
-/

namespace Perimeter

open Function

theorem Heading.mem_all (h : Heading) : h ∈ Heading.all := by
  cases h <;> decide

namespace Picture

variable {p : Picture} {o : Orientation} {e : Edge}

theorem finite_boundary (p : Picture) (o : Orientation) : {e | p.IsBoundary o e}.Finite := by
  have hbox : ((Set.Ico 0 p.width ×ˢ Set.Ico 0 p.height) ×ˢ {h | h ∈ Heading.all}).Finite :=
    ((Set.finite_Ico 0 p.width).prod (Set.finite_Ico 0 p.height)).prod (List.finite_toSet _)
  refine (hbox.image fun q => (⟨q.1.1, q.1.2, q.2⟩ : Edge)).subset ?_
  intro e he
  obtain ⟨hx, hy, hw, hh⟩ := IsBoundary.contains he
  exact ⟨((e.x, e.y), e.heading), ⟨⟨⟨hx, hw⟩, ⟨hy, hh⟩⟩, e.heading.mem_all⟩, rfl⟩

theorem mapsTo_boundary (p : Picture) (o : Orientation) :
    Set.MapsTo (p.nextEdge o) {e | p.IsBoundary o e} {e | p.IsBoundary o e} :=
  fun _ he => IsBoundary.nextEdge he

/-- Every number of moves leads from a boundary edge to a boundary edge. -/
theorem IsBoundary.iterate (h : p.IsBoundary o e) (n : Nat) :
    p.IsBoundary o ((p.nextEdge o)^[n] e) :=
  (p.mapsTo_boundary o).iterate n h

/-- Two edges that meet after equally many moves are the same. -/
theorem IsBoundary.iterate_cancel (h : p.IsBoundary o e) {i n : Nat}
    (heq : (p.nextEdge o)^[i + n] e = (p.nextEdge o)^[i] e) : (p.nextEdge o)^[n] e = e := by
  rw [iterate_add_apply] at heq
  exact (p.nextEdge_injOn o).iterate (p.mapsTo_boundary o) i (h.iterate n) h heq

/-- The walk from a boundary edge comes back to it. -/
theorem IsBoundary.mem_periodicPts (h : p.IsBoundary o e) : e ∈ periodicPts (p.nextEdge o) := by
  obtain ⟨i, -, j, -, hne, heq⟩ := Set.infinite_univ.exists_ne_map_eq_of_mapsTo
    (f := fun n : Nat => (p.nextEdge o)^[n] e) (fun n _ => h.iterate n) (p.finite_boundary o)
  -- Of two moments on the same edge, the later one is a whole number of rounds after the first.
  rcases Nat.lt_or_gt_of_ne hne with hlt | hlt
  · refine mk_mem_periodicPts (n := j - i) (by omega) (h.iterate_cancel (i := i) ?_)
    rw [Nat.add_sub_cancel' hlt.le]
    exact heq.symm
  · refine mk_mem_periodicPts (n := i - j) (by omega) (h.iterate_cancel (i := j) ?_)
    rw [Nat.add_sub_cancel' hlt.le]
    exact heq

/-- The number of moves of one round along the boundary. -/
noncomputable def round (p : Picture) (o : Orientation) (e : Edge) : Nat :=
  minimalPeriod (p.nextEdge o) e

theorem iterate_round (p : Picture) (o : Orientation) (e : Edge) :
    (p.nextEdge o)^[p.round o e] e = e :=
  iterate_minimalPeriod

theorem IsBoundary.round_pos (h : p.IsBoundary o e) : 0 < p.round o e :=
  minimalPeriod_pos_of_mem_periodicPts h.mem_periodicPts

/-- The round comes to every edge from the edge before. -/
theorem IsBoundary.exists_nextEdge_iterate (h : p.IsBoundary o e) :
    ∃ n, p.nextEdge o ((p.nextEdge o)^[n] e) = e := by
  refine ⟨p.round o e - 1, ?_⟩
  rw [← iterate_succ_apply' (p.nextEdge o), Nat.succ_eq_add_one, Nat.sub_add_cancel h.round_pos,
    iterate_round]

/-- A round starts anew on each of its edges and is of the same length from there. -/
theorem IsBoundary.round_iterate (h : p.IsBoundary o e) (n : Nat) :
    p.round o ((p.nextEdge o)^[n] e) = p.round o e :=
  minimalPeriod_apply_iterate h.mem_periodicPts n

/-- The edges of one round are different. -/
theorem iterate_inj {i j : Nat} (hi : i < p.round o e) (hj : j < p.round o e)
    (heq : (p.nextEdge o)^[i] e = (p.nextEdge o)^[j] e) : i = j :=
  (iterate_eq_iterate_iff_of_lt_minimalPeriod hi hj).1 heq

/-- From every edge of a round the moves lead to every other. -/
theorem iterate_of_iterate {k : Nat} (hk : k < p.round o e) (i : Nat) :
    (p.nextEdge o)^[i + (p.round o e - k)] ((p.nextEdge o)^[k] e) = (p.nextEdge o)^[i] e := by
  rw [← iterate_add_apply, Nat.add_assoc, Nat.sub_add_cancel hk.le, iterate_add_apply,
    iterate_round]

/-- Before a round is over the walk does not stand on its start. -/
theorem iterate_ne_self {n : Nat} (hpos : 0 < n) (hlt : n < p.round o e) :
    (p.nextEdge o)^[n] e ≠ e := by
  intro heq
  have h0 := iterate_inj (j := 0) hlt (hpos.trans hlt) heq
  omega

end Picture

end Perimeter
