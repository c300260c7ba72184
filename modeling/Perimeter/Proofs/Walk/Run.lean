import Mathlib.Algebra.Order.BigOperators.Group.Finset
import Perimeter.Proofs.Walk.Cycle

/-!
# Runs of a walk

A run is a number of moves from the start edge, up to the first move with which the walk ends.
`Plan.after` is the state after so many moves, and its counters are sums over the moves. A walk on a
boundary edge with a positive limit always ends, within the number of moves that `Plan.run` allows,
because four turns on the spot would bring it back to its start.
-/

namespace Perimeter

open Function Finset

namespace Move

/-- The number of steps from pixel to pixel that a move makes. -/
def steps : Move → Int
  | diagonal => 1
  | ahead => 1
  | turn => 0

/-- The number of quarter turns to the right that a move makes. -/
def quarters : Move → Int
  | diagonal => -1
  | ahead => 0
  | turn => 1

theorem steps_nonneg (m : Move) : 0 ≤ m.steps := by
  cases m <;> decide

theorem steps_le_one (m : Move) : m.steps ≤ 1 := by
  cases m <;> decide

theorem steps_eq_zero {m : Move} : m.steps = 0 ↔ m = .turn := by
  cases m <;> decide

end Move

/-! ## The moves along a boundary -/

namespace Picture

variable {p : Picture} {o : Orientation} {e : Edge}

/-- The move number `n`, counted from 0, of whoever follows the boundary from `e`. -/
def moveAt (p : Picture) (o : Orientation) (e : Edge) (n : Nat) : Move :=
  p.move o ((p.nextEdge o)^[n] e)

/-- The number of steps that the first `n` moves make. -/
def stepsIn (p : Picture) (o : Orientation) (e : Edge) (n : Nat) : Int :=
  ∑ i ∈ range n, (p.moveAt o e i).steps

/-- The net number of quarter turns to the right that the first `n` moves make. -/
def turnsIn (p : Picture) (o : Orientation) (e : Edge) (n : Nat) : Int :=
  ∑ i ∈ range n, (p.moveAt o e i).quarters

@[simp] theorem stepsIn_zero : p.stepsIn o e 0 = 0 := rfl
@[simp] theorem turnsIn_zero : p.turnsIn o e 0 = 0 := rfl

theorem stepsIn_succ (n : Nat) :
    p.stepsIn o e (n + 1) = p.stepsIn o e n + (p.moveAt o e n).steps :=
  sum_range_succ _ n

theorem turnsIn_succ (n : Nat) :
    p.turnsIn o e (n + 1) = p.turnsIn o e n + (p.moveAt o e n).quarters :=
  sum_range_succ _ n

theorem moveAt_iterate (i n : Nat) :
    p.moveAt o ((p.nextEdge o)^[i] e) n = p.moveAt o e (i + n) := by
  rw [moveAt, moveAt, ← iterate_add_apply, Nat.add_comm]

/-- The steps of a walk are those of its first part and those of the walk from there. -/
theorem stepsIn_add (i n : Nat) :
    p.stepsIn o e (i + n) = p.stepsIn o e i + p.stepsIn o ((p.nextEdge o)^[i] e) n := by
  simp only [stepsIn, moveAt_iterate, sum_range_add]

theorem turnsIn_add (i n : Nat) :
    p.turnsIn o e (i + n) = p.turnsIn o e i + p.turnsIn o ((p.nextEdge o)^[i] e) n := by
  simp only [turnsIn, moveAt_iterate, sum_range_add]

theorem stepsIn_nonneg (n : Nat) : 0 ≤ p.stepsIn o e n :=
  sum_nonneg fun _ _ => Move.steps_nonneg _

theorem stepsIn_eq_zero {n : Nat} : p.stepsIn o e n = 0 ↔ ∀ i < n, p.moveAt o e i = .turn := by
  rw [stepsIn, sum_eq_zero_iff_of_nonneg fun _ _ => Move.steps_nonneg _]
  simp only [mem_range, Move.steps_eq_zero]

theorem stepsIn_mono {n k : Nat} (h : n ≤ k) : p.stepsIn o e n ≤ p.stepsIn o e k := by
  obtain ⟨i, rfl⟩ := Nat.exists_eq_add_of_le h
  rw [stepsIn_add]
  have hpos := stepsIn_nonneg (p := p) (o := o) (e := (p.nextEdge o)^[n] e) i
  omega

theorem turn_turn_turn_turn (o : Orientation) (e : Edge) :
    (((e.apply o .turn).apply o .turn).apply o .turn).apply o .turn = e := by
  obtain ⟨x, y, h⟩ := e
  cases o <;> cases h <;> rfl

/-- Four moves without a step lead back to where they began. -/
theorem iterate_four_of_stepsIn_eq_zero (h : p.stepsIn o e 4 = 0) : (p.nextEdge o)^[4] e = e := by
  have hturn := stepsIn_eq_zero.1 h
  have hnext : ∀ i < 4, (p.nextEdge o)^[i + 1] e = ((p.nextEdge o)^[i] e).apply o .turn := by
    intro i hi
    rw [iterate_succ_apply', nextEdge]
    exact congrArg _ (hturn i hi)
  rw [hnext 3 (by omega), hnext 2 (by omega), hnext 1 (by omega), hnext 0 (by omega)]
  exact turn_turn_turn_turn o e

/-- Of four moves before the walk is back on its start, one is a step. -/
theorem IsBoundary.le_stepsIn (h : p.IsBoundary o e) (k : Nat)
    (hne : ∀ j, 0 < j → j ≤ 4 * k → (p.nextEdge o)^[j] e ≠ e) : k ≤ p.stepsIn o e (4 * k) := by
  induction k with
  | zero => simp
  | succ k ih =>
    have hprev := ih fun j hpos hj => hne j hpos (by omega)
    have hstep : p.stepsIn o ((p.nextEdge o)^[4 * k] e) 4 ≠ 0 := by
      intro hzero
      -- Without a step the walk would turn on its pixel for ever, and so would its start.
      have hround := iterate_four_of_stepsIn_eq_zero hzero
      rw [← iterate_add_apply, Nat.add_comm] at hround
      exact hne 4 (by omega) (by omega) (h.iterate_cancel hround)
    have hpos := stepsIn_nonneg (p := p) (o := o) (e := (p.nextEdge o)^[4 * k] e) 4
    rw [show 4 * (k + 1) = 4 * k + 4 by omega, stepsIn_add]
    omega

end Picture

/-! ## States -/

namespace Walk

variable {p : Picture} {plan : Plan} {s : State}

@[simp] theorem Plan.step_edge :
    (plan.step p s).edge = p.nextEdge plan.orientation s.edge := by
  simp only [step, Picture.nextEdge]
  split <;> rename_i hm <;> rw [hm]

@[simp] theorem Plan.step_length :
    (plan.step p s).length = s.length + (p.move plan.orientation s.edge).steps := by
  simp only [step]
  split <;> rename_i hm <;> simp [hm, Move.steps]

@[simp] theorem Plan.step_turns :
    (plan.step p s).turns = s.turns + (p.move plan.orientation s.edge).quarters := by
  simp only [step]
  split <;> rename_i hm <;> simp [hm, Move.quarters, Int.sub_eq_add_neg]

/-- The state after `n` moves. -/
def Plan.after (plan : Plan) (p : Picture) (n : Nat) : State :=
  (plan.step p)^[n] (plan.initial p)

@[simp] theorem Plan.after_zero : plan.after p 0 = plan.initial p := rfl

theorem Plan.after_succ (n : Nat) : plan.after p (n + 1) = plan.step p (plan.after p n) :=
  iterate_succ_apply' _ n _

@[simp] theorem Plan.after_edge (n : Nat) :
    (plan.after p n).edge = (p.nextEdge plan.orientation)^[n] plan.start := by
  induction n with
  | zero => rfl
  | succ n ih => rw [after_succ, step_edge, ih, iterate_succ_apply']

@[simp] theorem Plan.after_length (n : Nat) :
    (plan.after p n).length = p.stepsIn plan.orientation plan.start n := by
  induction n with
  | zero => rfl
  | succ n ih => rw [after_succ, step_length, ih, Picture.stepsIn_succ, after_edge, Picture.moveAt]

@[simp] theorem Plan.after_turns (n : Nat) :
    (plan.after p n).turns = p.turnsIn plan.orientation plan.start n := by
  induction n with
  | zero => rfl
  | succ n ih => rw [after_succ, step_turns, ih, Picture.turnsIn_succ, after_edge, Picture.moveAt]

/-! ## Where a run ends -/

/-- The walk ends with move number `n`, counted from 0, if it gets as far. -/
def Plan.EndsWith (plan : Plan) (p : Picture) (n : Nat) : Prop :=
  plan.halts (p.moveAt plan.orientation plan.start n) (plan.after p (n + 1)) = true

instance (n : Nat) : Decidable (plan.EndsWith p n) := inferInstanceAs (Decidable (_ = true))

/-- The walk ends with move number `n` and not before. -/
structure Plan.RunsTo (plan : Plan) (p : Picture) (n : Nat) : Prop where
  goesOn : ∀ i < n, ¬plan.EndsWith p i
  ends : plan.EndsWith p n

/-- A walk ends on its start, on its stop, or with the step that exhausts its limit. -/
theorem Plan.endsWith_iff {n : Nat} :
    plan.EndsWith p n ↔
      plan.endsOn ((p.nextEdge plan.orientation)^[n + 1] plan.start) = true ∨
      (p.moveAt plan.orientation plan.start n ≠ .turn ∧
        plan.limit ≤ p.stepsIn plan.orientation plan.start (n + 1)) := by
  simp only [EndsWith, halts, after_edge, after_length, Bool.or_eq_true, Bool.and_eq_true,
    bne_iff_ne, decide_eq_true_eq]

theorem Plan.endsOn_iff {e : Edge} :
    plan.endsOn e = true ↔ e = plan.start ∨ plan.stop = some e := by
  simp [endsOn]

/-- Before its end a walk has not used up its limit, and it has made no step at all if the limit
allows none. -/
theorem Plan.stepsIn_lt_max {n : Nat} (h : ∀ i < n, ¬plan.EndsWith p i) :
    p.stepsIn plan.orientation plan.start n < max plan.limit 1 := by
  induction n with
  | zero => rw [Picture.stepsIn_zero]; omega
  | succ n ih =>
    have hprev := ih fun i hi => h i (by omega)
    have hlast := h n (by omega)
    rw [endsWith_iff, not_or, not_and_or] at hlast
    rcases hlast.2 with hturn | hlt
    · have hzero := Move.steps_eq_zero.2 (not_not.1 hturn)
      rw [Picture.stepsIn_succ]
      omega
    · omega

theorem Plan.stepsIn_lt_limit {n : Nat} (hlimit : 1 ≤ plan.limit)
    (h : ∀ i < n, ¬plan.EndsWith p i) :
    p.stepsIn plan.orientation plan.start n < plan.limit := by
  have hlt := stepsIn_lt_max h
  omega

/-- A walk on the boundary ends, before every one of its steps has been preceded by four turns. -/
theorem Plan.exists_runsTo (plan : Plan) (hstart : p.IsBoundary plan.orientation plan.start) :
    ∃ n < plan.fuel, plan.RunsTo p n := by
  -- Of four moves in a row one is a step, so a walk that does not end exhausts its limit.
  have hends : ∃ n, n < 4 * (max plan.limit 1).toNat ∧ plan.EndsWith p n := by
    by_contra hnone
    have hgoes : ∀ i < 4 * (max plan.limit 1).toNat, ¬plan.EndsWith p i :=
      fun i hi h => hnone ⟨i, hi, h⟩
    have hlt := stepsIn_lt_max hgoes
    have hle := hstart.le_stepsIn (max plan.limit 1).toNat fun j hpos hj heq => by
      refine hgoes (j - 1) (by omega) (endsWith_iff.2 (.inl (endsOn_iff.2 (.inl ?_))))
      rwa [Nat.sub_add_cancel hpos]
    omega
  classical
  obtain ⟨hlt, hend⟩ := Nat.find_spec hends
  refine ⟨Nat.find hends, by rw [fuel]; omega, fun i hi hi' => ?_, hend⟩
  exact Nat.find_min hends hi ⟨by omega, hi'⟩

theorem Plan.go_after {n k i : Nat} (h : plan.RunsTo p n) (hn : i + k = n) :
    ∀ fuel, k < fuel → plan.go p fuel (plan.after p i) = plan.after p (n + 1) := by
  -- The induction is on the number of moves that are left.
  induction k generalizing i with
  | zero =>
    intro fuel hk
    obtain ⟨fuel, rfl⟩ := Nat.exists_eq_succ_of_ne_zero (by omega : fuel ≠ 0)
    obtain rfl : i = n := by omega
    have hend := h.ends
    rw [EndsWith, Picture.moveAt, ← after_edge, after_succ] at hend
    rw [go, if_pos hend, after_succ]
  | succ k ih =>
    intro fuel hk
    obtain ⟨fuel, rfl⟩ := Nat.exists_eq_succ_of_ne_zero (by omega : fuel ≠ 0)
    have hgo := h.goesOn i (by omega)
    rw [EndsWith, Picture.moveAt, ← after_edge, after_succ] at hgo
    rw [go, if_neg hgo, ← after_succ]
    exact ih (by omega) fuel (by omega)

theorem Plan.RunsTo.unique {n k : Nat} (hn : plan.RunsTo p n) (hk : plan.RunsTo p k) : n = k := by
  rcases Nat.lt_trichotomy n k with hlt | heq | hgt
  · exact absurd hn.ends (hk.goesOn n hlt)
  · exact heq
  · exact absurd hk.ends (hn.goesOn k hgt)

/-- A run is read off the state after its last move. -/
theorem Plan.RunsTo.run_eq {n : Nat} (h : plan.RunsTo p n)
    (hstart : p.IsBoundary plan.orientation plan.start) :
    plan.run p = plan.finish (plan.after p (n + 1)) := by
  obtain ⟨k, hk, hrun⟩ := plan.exists_runsTo hstart
  obtain rfl := h.unique hrun
  rw [run, ← after_zero, go_after h (i := 0) (k := n) (by omega) plan.fuel hk]

/-- A walk makes no more steps than its limit allows, or one. -/
theorem Plan.length_run_le (hstart : p.IsBoundary plan.orientation plan.start) :
    (plan.run p).result.length ≤ max plan.limit 1 := by
  obtain ⟨n, -, hrun⟩ := plan.exists_runsTo hstart
  have hbefore := stepsIn_lt_max hrun.goesOn
  have hlast := Move.steps_le_one (p.moveAt plan.orientation plan.start n)
  rw [hrun.run_eq hstart]
  simp only [finish, after_length, Picture.stepsIn_succ]
  split <;> omega

theorem Plan.edges_go_after {n k i : Nat} (h : plan.RunsTo p n) (hn : i + k = n) :
    ∀ fuel, k < fuel → edges.go plan p fuel (plan.after p i) =
      (List.range' i (k + 1)).map fun j => (p.nextEdge plan.orientation)^[j] plan.start := by
  induction k generalizing i with
  | zero =>
    intro fuel hk
    obtain ⟨fuel, rfl⟩ := Nat.exists_eq_succ_of_ne_zero (by omega : fuel ≠ 0)
    obtain rfl : i = n := by omega
    have hend := h.ends
    rw [EndsWith, Picture.moveAt, ← after_edge, after_succ] at hend
    rw [edges.go, if_pos hend, after_edge]
    rfl
  | succ k ih =>
    intro fuel hk
    obtain ⟨fuel, rfl⟩ := Nat.exists_eq_succ_of_ne_zero (by omega : fuel ≠ 0)
    have hgo := h.goesOn i (by omega)
    rw [EndsWith, Picture.moveAt, ← after_edge, after_succ] at hgo
    rw [edges.go, if_neg hgo, ← after_succ, ih (by omega) fuel (by omega), after_edge,
      List.range'_succ (s := i), List.map_cons]

/-- The walk stands on the edges along the boundary, one after the other. -/
theorem Plan.RunsTo.edges_eq {n : Nat} (h : plan.RunsTo p n)
    (hstart : p.IsBoundary plan.orientation plan.start) :
    plan.edges p =
      (List.range (n + 1)).map fun j => (p.nextEdge plan.orientation)^[j] plan.start := by
  obtain ⟨k, hk, hrun⟩ := plan.exists_runsTo hstart
  obtain rfl := h.unique hrun
  rw [edges, ← after_zero, edges_go_after h (i := 0) (k := n) (by omega) plan.fuel hk,
    List.range_eq_range']

/-! ## Closed walks -/

/-- The walk ends with move number `n` on the edge on which it began. -/
structure Plan.Closes (plan : Plan) (p : Picture) (n : Nat) : Prop where
  start : p.IsBoundary plan.orientation plan.start
  runsTo : plan.RunsTo p n
  back : (p.nextEdge plan.orientation)^[n + 1] plan.start = plan.start

theorem Plan.exists_closes (hstart : p.IsBoundary plan.orientation plan.start)
    (hclosed : (plan.run p).result.stop = plan.start) : ∃ n, plan.Closes p n := by
  obtain ⟨n, -, hrun⟩ := plan.exists_runsTo hstart
  refine ⟨n, hstart, hrun, ?_⟩
  rw [hrun.run_eq hstart] at hclosed
  rw [← after_edge]
  exact hclosed

theorem Plan.Closes.mem_edges {n : Nat} (h : plan.Closes p n) {e : Edge} :
    e ∈ plan.edges p ↔ ∃ i < n + 1, (p.nextEdge plan.orientation)^[i] plan.start = e := by
  rw [h.runsTo.edges_eq h.start, List.mem_map]
  simp only [List.mem_range]

/-- A closed walk has made one round. -/
theorem Plan.Closes.succ_eq_round {n : Nat} (h : plan.Closes p n) :
    n + 1 = p.round plan.orientation plan.start := by
  have hpos := h.start.round_pos
  have hle : p.round plan.orientation plan.start ≤ n + 1 :=
    IsPeriodicPt.minimalPeriod_le (Nat.succ_pos n) h.back
  by_contra hne
  refine h.runsTo.goesOn (p.round plan.orientation plan.start - 1) (by omega)
    (endsWith_iff.2 (.inl (endsOn_iff.2 (.inl ?_))))
  rw [Nat.sub_add_cancel hpos, Picture.iterate_round]

end Walk

end Perimeter
