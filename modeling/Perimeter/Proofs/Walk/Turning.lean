import Mathlib.Data.Prod.Lex
import Mathlib.Data.Finset.Max
import Perimeter.Proofs.Plane.Rotation
import Perimeter.Proofs.Walk.Run

/-!
# Once around

The midpoints of the sides that a contour passes form a closed path without crossings, so a contour
turns exactly once around: it makes four quarter turns more to one side than to the other. To which
side, the uppermost edge of the contour tells: whether the background lies above it or below.
-/

namespace Perimeter

open Function Finset Rotation

/-! ## Headings and strides -/

namespace Heading

variable (o : Orientation) (h : Heading)

theorem dx_turnRight : (h.turnRight o).dx = -(h.turnLeft o).dx := by
  cases o <;> cases h <;> rfl

theorem dy_turnRight : (h.turnRight o).dy = -(h.turnLeft o).dy := by
  cases o <;> cases h <;> rfl

theorem turnLeft_reverse : h.reverse.turnLeft o = (h.turnLeft o).reverse := by
  cases o <;> cases h <;> rfl

/-- Every heading is a number of quarter turns away from every other. -/
theorem eq_turned (h' : Heading) :
    h' = h ∨ h' = h.turnLeft o ∨ h' = h.turnRight o ∨ h' = h.reverse := by
  cases o <;> cases h <;> cases h' <;> decide

/-- Of two perpendicular headings one changes the column and one the row. -/
theorem odd_offset : (h.dx + (h.turnLeft o).dx) % 2 = 1 ∧ (h.dy + (h.turnLeft o).dy) % 2 = 1 := by
  cases o <;> cases h <;> decide

/-- The heading after a move. -/
def after : Move → Heading
  | .diagonal => h.turnLeft o
  | .ahead => h
  | .turn => h.turnRight o

/-- The way from the midpoint of the bordering side to that of the next one. -/
def stride : Move → Int × Int
  | .diagonal => (h.dx + (h.turnLeft o).dx, h.dy + (h.turnLeft o).dy)
  | .ahead => (2 * h.dx, 2 * h.dy)
  | .turn => (h.dx - (h.turnLeft o).dx, h.dy - (h.turnLeft o).dy)

theorem stride_mem_strides (m : Move) : h.stride o m ∈ strides := by
  cases o <;> cases h <;> cases m <;> decide

theorem isStraight_stride {m : Move} : IsStraight (h.stride o m) ↔ m = .ahead := by
  cases o <;> cases h <;> cases m <;> decide

/-- A walk does not turn back at once. -/
theorem stride_add_stride_ne_zero (m m' : Move) :
    h.stride o m + (h.after o m).stride o m' ≠ 0 := by
  cases o <;> cases h <;> cases m <;> cases m' <;> decide

end Heading

/-- The sense of a quarter turn to the right in an orientation, seen on the screen. -/
def Orientation.sense : Orientation → Int
  | clockwise => 1
  | counterclockwise => -1

/-- Half of the quarter turns of two moves lie between their strides. What they do to the number of
the stride, counted around the clock, is undone by the crossings of the axis. -/
theorem Heading.crossing_stride (o : Orientation) (h : Heading) (m m' : Move) :
    8 * (crossing (h.stride o m) (h.stride o m + (h.after o m).stride o m') +
        crossing (h.stride o m + (h.after o m).stride o m') ((h.after o m).stride o m')) =
      o.sense * (m.quarters + m'.quarters) -
        ((strides.idxOf ((h.after o m).stride o m') : Int) - strides.idxOf (h.stride o m)) := by
  cases o <;> cases h <;> cases m <;> cases m' <;> decide

/-- On the lowest edge of a path the background lies above or below, and that decides the sense. -/
theorem Heading.stride_at_lowest (o : Orientation) (h : Heading) (m m' : Move)
    (hprev : Rises (-h.stride o m)) (hnext : Rises ((h.after o m).stride o m')) :
    (((h.after o m).turnLeft o = .up ∨ (h.after o m).turnLeft o = .down)) ∧
    o.sense * (if 0 < ((h.after o m).stride o m').1 * (-h.stride o m).2 -
        ((h.after o m).stride o m').2 * (-h.stride o m).1 then 1 else -1) =
      if (h.after o m).turnLeft o = .up then 1 else -1 := by
  revert hprev hnext
  cases o <;> cases h <;> cases m <;> cases m' <;> decide

/-! ## The path through the midpoints -/

namespace Edge

/-- The midpoint of the bordering side, in half pixels. -/
def middle (o : Orientation) (e : Edge) : Int × Int :=
  (2 * e.x + (e.heading.turnLeft o).dx, 2 * e.y + (e.heading.turnLeft o).dy)

/-- The corner of the pixel in front on the bordering side, in half pixels. -/
def corner (o : Orientation) (e : Edge) : Int × Int :=
  (2 * e.x + e.heading.dx + (e.heading.turnLeft o).dx,
    2 * e.y + e.heading.dy + (e.heading.turnLeft o).dy)

theorem heading_apply (o : Orientation) (e : Edge) (m : Move) :
    (e.apply o m).heading = e.heading.after o m := by
  cases m <;> rfl

theorem middle_apply (o : Orientation) (e : Edge) (m : Move) :
    (e.apply o m).middle o = e.middle o + e.heading.stride o m := by
  cases m with
  | diagonal =>
    simp only [apply, middle, diagonalPoint, Heading.stride, Heading.turnLeft_turnLeft,
      Heading.dx_reverse, Heading.dy_reverse, Prod.mk_add_mk, Prod.mk.injEq]
    omega
  | ahead =>
    simp only [apply, middle, aheadPoint, Heading.stride, Prod.mk_add_mk, Prod.mk.injEq]
    omega
  | turn =>
    simp only [apply, middle, Heading.stride, Heading.turnLeft_turnRight, Prod.mk_add_mk,
      Prod.mk.injEq]
    omega

theorem middle_add_middle_ahead (o : Orientation) (e : Edge) :
    e.middle o + (e.apply o .ahead).middle o = e.corner o + e.corner o := by
  rw [middle_apply]
  simp only [middle, corner, Heading.stride, Prod.mk_add_mk, Prod.mk.injEq]
  omega

end Edge

namespace Picture

variable {p : Picture} {o : Orientation} {e e' : Edge}

theorem IsBoundary.not_ink_left (h : p.IsBoundary o e) :
    p.isInk (e.x + (e.heading.turnLeft o).dx) (e.y + (e.heading.turnLeft o).dy) = false :=
  h.2

theorem move_eq_diagonal (h : p.inkDiagonal o e = true) : p.move o e = .diagonal := by
  rw [move, if_pos h]

/-- A side of a pixel belongs to one boundary edge only: it has ink on one side and none on the
other. -/
theorem IsBoundary.eq_of_middle_eq (h : p.IsBoundary o e) (h' : p.IsBoundary o e')
    (heq : e.middle o = e'.middle o) : e = e' := by
  obtain ⟨x, y, d⟩ := e
  obtain ⟨x', y', d'⟩ := e'
  have hodd := d.odd_offset o
  have hleft := h.not_ink_left
  have hleft' := h'.not_ink_left
  simp only [Edge.middle, Prod.mk.injEq] at heq hleft hleft'
  obtain rfl | rfl | rfl | rfl := d.eq_turned o d'
  · obtain ⟨rfl, rfl⟩ : x = x' ∧ y = y' := by omega
    rfl
  · simp only [Heading.turnLeft_turnLeft, Heading.dx_reverse, Heading.dy_reverse] at heq
    omega
  · simp only [Heading.turnLeft_turnRight] at heq
    omega
  · -- The other side of the same segment: the two pixels change places.
    simp only [Heading.turnLeft_reverse, Heading.dx_reverse, Heading.dy_reverse] at heq
    rw [show x + (d.turnLeft o).dx = x' by omega, show y + (d.turnLeft o).dy = y' by omega] at hleft
    exact absurd h'.1 (by simp [hleft])

/-- Two boundary edges run into the same corner only where two ink pixels touch by it. -/
theorem IsBoundary.eq_or_of_corner_eq (h : p.IsBoundary o e) (h' : p.IsBoundary o e')
    (heq : e.corner o = e'.corner o) :
    e = e' ∨ (p.move o e = .diagonal ∧ p.move o e' = .diagonal ∧
      e'.heading = e.heading.reverse) := by
  obtain ⟨x, y, d⟩ := e
  obtain ⟨x', y', d'⟩ := e'
  have hink := h.1
  have hink' := h'.1
  have hleft := h.not_ink_left
  have hleft' := h'.not_ink_left
  simp only [Edge.corner, Prod.mk.injEq] at heq hink hink' hleft hleft'
  obtain rfl | rfl | rfl | rfl := d.eq_turned o d'
  · obtain ⟨rfl, rfl⟩ : x = x' ∧ y = y' := by omega
    exact .inl rfl
  · simp only [Heading.turnLeft_turnLeft, Heading.dx_reverse, Heading.dy_reverse] at heq hleft'
    rw [show x' + -d.dx = x by omega, show y' + -d.dy = y by omega, hink] at hleft'
    cases hleft'
  · simp only [Heading.turnLeft_turnRight, Heading.dx_turnRight, Heading.dy_turnRight] at heq
    rw [show x + (d.turnLeft o).dx = x' by omega, show y + (d.turnLeft o).dy = y' by omega,
      hink'] at hleft
    cases hleft
  · simp only [Heading.turnLeft_reverse, Heading.dx_reverse, Heading.dy_reverse] at heq
    refine .inr ⟨move_eq_diagonal ?_, move_eq_diagonal ?_, rfl⟩
    · rw [inkDiagonal, inkAt, Edge.diagonalPoint]
      rw [show x' = x + d.dx + (d.turnLeft o).dx by omega,
        show y' = y + d.dy + (d.turnLeft o).dy by omega] at hink'
      exact hink'
    · rw [inkDiagonal, inkAt, Edge.diagonalPoint]
      simp only [Heading.turnLeft_reverse, Heading.dx_reverse, Heading.dy_reverse]
      rw [show x = x' + -d.dx + -(d.turnLeft o).dx by omega,
        show y = y' + -d.dy + -(d.turnLeft o).dy by omega] at hink
      exact hink

/-- The midpoints of the sides along the boundary. -/
def path (p : Picture) (o : Orientation) (e : Edge) (i : Nat) : Int × Int :=
  ((p.nextEdge o)^[i] e).middle o

/-- The heading before move number `i`. -/
def headingAt (p : Picture) (o : Orientation) (e : Edge) (i : Nat) : Heading :=
  ((p.nextEdge o)^[i] e).heading

theorem headingAt_succ (p : Picture) (o : Orientation) (e : Edge) (i : Nat) :
    p.headingAt o e (i + 1) = (p.headingAt o e i).after o (p.moveAt o e i) := by
  rw [headingAt, iterate_succ_apply', nextEdge, Edge.heading_apply]
  rfl

theorem path_succ_sub (p : Picture) (o : Orientation) (e : Edge) (i : Nat) :
    p.path o e (i + 1) - p.path o e i = (p.headingAt o e i).stride o (p.moveAt o e i) := by
  rw [path, iterate_succ_apply', nextEdge, Edge.middle_apply, path, add_sub_cancel_left]
  rfl

/-- A step ahead passes the corner half way. -/
theorem path_add_path_succ {i : Nat} (hm : p.moveAt o e i = .ahead) :
    p.path o e i + p.path o e (i + 1) =
      ((p.nextEdge o)^[i] e).corner o + ((p.nextEdge o)^[i] e).corner o := by
  rw [moveAt] at hm
  rw [path, path, iterate_succ_apply', nextEdge, hm, Edge.middle_add_middle_ahead]

/-- The path through the midpoints of a contour is closed and does not meet itself. -/
theorem IsBoundary.isLoop (h : p.IsBoundary o e) : IsLoop (p.path o e) (p.round o e) := by
  have hclosed := p.iterate_round o e
  have hagain : (p.nextEdge o)^[p.round o e + 1] e = p.nextEdge o e := by
    rw [iterate_succ_apply', hclosed]
  refine ⟨?_, ?_, ?_, ?_, ?_, ?_⟩
  -- One stride does not lead back to where it began, and neither do two.
  · have hpos := h.round_pos
    have hone : p.round o e ≠ 1 := by
      intro hr
      rw [hr] at hclosed
      have hzero := p.path_succ_sub o e 0
      rw [path, hclosed, path, iterate_zero_apply, sub_self] at hzero
      have hmem := (p.headingAt o e 0).stride_mem_strides o (p.moveAt o e 0)
      rw [← hzero] at hmem
      exact absurd hmem (by decide)
    have htwo : p.round o e ≠ 2 := by
      intro hr
      rw [hr] at hclosed
      have hfirst := p.path_succ_sub o e 0
      have hsecond := p.path_succ_sub o e 1
      rw [headingAt_succ] at hsecond
      refine (p.headingAt o e 0).stride_add_stride_ne_zero o (p.moveAt o e 0) (p.moveAt o e 1) ?_
      rw [← hfirst, ← hsecond, add_comm, sub_add_sub_cancel]
      rw [path, path, hclosed, iterate_zero_apply, sub_self]
    omega
  · rw [path, hclosed]
    rfl
  · rw [path, hagain]
    rfl
  · intro i
    rw [path_succ_sub]
    exact Heading.stride_mem_strides o _ _
  · intro i j hij hj heq
    have hsame := (h.iterate i).eq_of_middle_eq (h.iterate j) heq
    have hlt := iterate_inj (by omega) hj hsame
    omega
  · intro i j hij hj hi' hj' heq
    rw [path_succ_sub, Heading.isStraight_stride] at hi' hj'
    -- Two steps ahead that cross would run into the same corner.
    have hcorner : ((p.nextEdge o)^[i] e).corner o = ((p.nextEdge o)^[j] e).corner o := by
      rw [path_add_path_succ hi', path_add_path_succ hj', Prod.ext_iff] at heq
      simp only [Prod.fst_add, Prod.snd_add] at heq
      exact Prod.ext (by omega) (by omega)
    rcases (h.iterate i).eq_or_of_corner_eq (h.iterate j) hcorner with hsame | ⟨hdiag, -, -⟩
    · have hlt := iterate_inj (by omega) hj hsame
      omega
    · rw [← moveAt, hi'] at hdiag
      cases hdiag

/-! ## Turns of one round -/

theorem chord_path_succ (p : Picture) (o : Orientation) (e : Edge) (i : Nat) :
    chord (p.path o e) i (i + 1) = (p.headingAt o e i).stride o (p.moveAt o e i) :=
  p.path_succ_sub o e i

/-- What the moves so far have done to the number of the stride is what the crossings of the axis
leave of their quarter turns. -/
theorem eight_mul_tangentCrossings (p : Picture) (o : Orientation) (e : Edge) (n : Nat) :
    8 * tangentCrossings (p.path o e) n =
      o.sense * (2 * p.turnsIn o e n + (p.moveAt o e n).quarters - (p.moveAt o e 0).quarters) -
        ((strides.idxOf (chord (p.path o e) n (n + 1)) : Int) -
          strides.idxOf (chord (p.path o e) 0 1)) := by
  induction n with
  | zero => simp [tangentCrossings]
  | succ n ih =>
    have hsum : chord (p.path o e) n (n + 2) =
        chord (p.path o e) n (n + 1) + chord (p.path o e) (n + 1) (n + 2) := by
      simp only [chord]
      abel
    have hstep := (p.headingAt o e n).crossing_stride o (p.moveAt o e n) (p.moveAt o e (n + 1))
    rw [← headingAt_succ, ← chord_path_succ, ← chord_path_succ, ← hsum] at hstep
    rw [tangentCrossings, sum_range_succ, ← tangentCrossings, turnsIn_succ]
    simp only [front, back, Nat.add_assoc, Nat.reduceAdd] at hstep ⊢
    cases o <;> simp only [Orientation.sense] at hstep ih ⊢ <;> omega

/-- One round of the tangent crosses the axis once for every four quarter turns. -/
theorem four_mul_tangentCrossings (p : Picture) (o : Orientation) (e : Edge) :
    4 * tangentCrossings (p.path o e) (p.round o e) = o.sense * p.turnsIn o e (p.round o e) := by
  have hround := p.eight_mul_tangentCrossings o e (p.round o e)
  have hclosed := p.iterate_round o e
  have hmove : p.moveAt o e (p.round o e) = p.moveAt o e 0 := by
    rw [moveAt, hclosed]
    rfl
  have hheading : p.headingAt o e (p.round o e) = p.headingAt o e 0 := by
    rw [headingAt, hclosed]
    rfl
  rw [chord_path_succ, chord_path_succ p o e 0, hmove, hheading] at hround
  cases o <;> simp only [Orientation.sense] at hround ⊢ <;> omega

/-- A round has the same turns from wherever it starts. -/
theorem turnsIn_iterate_round (p : Picture) (o : Orientation) (e : Edge) (k : Nat) :
    p.turnsIn o ((p.nextEdge o)^[k] e) (p.round o e) = p.turnsIn o e (p.round o e) := by
  have hfirst := turnsIn_add (p := p) (o := o) (e := e) k (p.round o e)
  have hsecond := turnsIn_add (p := p) (o := o) (e := e) (p.round o e) k
  rw [iterate_round, Nat.add_comm] at hsecond
  omega

/-- The edge is the first of its contour from above, and from the left among those: no side along the
boundary lies above it. -/
def IsTop (p : Picture) (o : Orientation) (e : Edge) : Prop :=
  IsLowest (p.path o e) (p.round o e)

/-- From its top edge a contour makes four quarter turns to the right if the background lies above,
and four to the left if it lies below. -/
theorem IsBoundary.turnsIn_of_isTop (h : p.IsBoundary o e) (htop : p.IsTop o e) :
    (e.heading.turnLeft o = .up ∨ e.heading.turnLeft o = .down) ∧
    p.turnsIn o e (p.round o e) = if e.heading.turnLeft o = .up then 4 else -4 := by
  have hloop := h.isLoop
  have hthree := hloop.three_le
  obtain ⟨k, hk⟩ := Nat.exists_eq_add_of_lt h.round_pos
  have hlast : p.round o e - 1 = k := by omega
  have hnext : chord (p.path o e) 0 1 = (p.headingAt o e 0).stride o (p.moveAt o e 0) :=
    p.chord_path_succ o e 0
  have hclosed : (p.nextEdge o)^[k + 1] e = e := by
    rw [show k + 1 = p.round o e by omega, iterate_round]
  -- The stride that leads to the first point is the last one, and its heading the one before the first.
  have hprev : chord (p.path o e) 0 k = -(p.headingAt o e k).stride o (p.moveAt o e k) := by
    rw [← p.chord_path_succ o e k, chord, chord, neg_sub, path, path, path, hclosed]
    rfl
  have hheading : p.headingAt o e 0 = (p.headingAt o e k).after o (p.moveAt o e k) := by
    rw [← headingAt_succ, headingAt, headingAt, hclosed]
    rfl
  have hrises : Rises (chord (p.path o e) 0 1) := htop.rises (by omega) (by omega)
  have hrises' : Rises (chord (p.path o e) 0 k) := htop.rises (by omega) (by omega)
  have hcross := hloop.tangentCrossings_of_isLowest htop
  have hturns := p.four_mul_tangentCrossings o e
  rw [hlast, hnext, hprev, hheading] at hcross
  rw [hnext, hheading] at hrises
  rw [hprev] at hrises'
  obtain ⟨hside, hsense⟩ := Heading.stride_at_lowest o _ _ _ hrises' hrises
  rw [← hheading] at hside hsense
  rw [← hheading] at hcross
  rw [← hcross] at hsense
  refine ⟨hside, ?_⟩
  change _ = if (p.headingAt o e 0).turnLeft o = .up then 4 else -4
  cases o <;> simp only [Orientation.sense] at hsense hturns <;> split_ifs at hsense ⊢ <;> omega

/-- Every contour has a top edge. -/
theorem IsBoundary.exists_isTop (h : p.IsBoundary o e) :
    ∃ k < p.round o e, p.IsTop o ((p.nextEdge o)^[k] e) := by
  obtain ⟨k, hk, hmin⟩ := exists_min_image (range (p.round o e))
    (fun i => toLex ((p.path o e i).2, (p.path o e i).1)) ⟨0, mem_range.2 h.round_pos⟩
  have hk := mem_range.1 hk
  refine ⟨k, hk, ?_⟩
  intro i hpos hi
  rw [h.round_iterate] at hi
  have hmod : (k + i) % p.round o e < p.round o e := Nat.mod_lt _ h.round_pos
  have hpath : p.path o ((p.nextEdge o)^[k] e) i = p.path o e ((k + i) % p.round o e) := by
    rw [path, path, ← iterate_add_apply, Nat.add_comm i, round, iterate_mod_minimalPeriod_eq]
  have hne : p.path o e k ≠ p.path o e ((k + i) % p.round o e) := by
    intro heq
    have hsame := iterate_inj hk hmod ((h.iterate _).eq_of_middle_eq (h.iterate _) heq)
    rcases Nat.lt_or_ge (k + i) (p.round o e) with hlt | hge
    · rw [Nat.mod_eq_of_lt hlt] at hsame
      omega
    · rw [Nat.mod_eq_sub_mod hge, Nat.mod_eq_of_lt (by omega)] at hsame
      omega
  have hle := hmin _ (mem_range.2 hmod)
  rw [Prod.Lex.toLex_le_toLex] at hle
  rw [hpath]
  change (p.path o e k).2 < _ ∨ (p.path o e k).2 = _ ∧ (p.path o e k).1 < _
  rw [Ne, Prod.ext_iff] at hne
  omega

/-- One round along the boundary makes four quarter turns more to one side than to the other. -/
theorem IsBoundary.turnsIn_round (h : p.IsBoundary o e) :
    p.turnsIn o e (p.round o e) = 4 ∨ p.turnsIn o e (p.round o e) = -4 := by
  obtain ⟨k, -, htop⟩ := h.exists_isTop
  obtain ⟨-, hturns⟩ := (h.iterate k).turnsIn_of_isTop htop
  rw [h.round_iterate, turnsIn_iterate_round] at hturns
  split_ifs at hturns
  · exact .inl hturns
  · exact .inr hturns

end Picture

end Perimeter
