import Perimeter.Chain
import Perimeter.Proofs.Geometry.Straighten
import Perimeter.Proofs.Geometry.Thinning

/-!
# Moved outlines

Compressing an outline, its area and thinning it look at differences of coordinates only, or at sums in
which a common offset cancels. So they commute with moving all points by an offset.
-/

namespace Perimeter

variable {dx dy : Int}

namespace Point

variable {a b : Point}

@[simp] theorem shift_x (a : Point) (dx dy : Int) : (a.shift dx dy).x = a.x + dx := rfl
@[simp] theorem shift_y (a : Point) (dx dy : Int) : (a.shift dx dy).y = a.y + dy := rfl

theorem shift_neg_shift (a : Point) (dx dy : Int) : (a.shift (-dx) (-dy)).shift dx dy = a := by
  obtain ⟨x, y⟩ := a
  simp [shift]

theorem shift_shift_neg (a : Point) (dx dy : Int) : (a.shift dx dy).shift (-dx) (-dy) = a := by
  obtain ⟨x, y⟩ := a
  simp [shift]

theorem shift_injective (dx dy : Int) : Function.Injective fun a : Point => a.shift dx dy := by
  intro a b heq
  obtain ⟨x, y⟩ := a
  obtain ⟨x', y'⟩ := b
  simpa [shift] using heq

end Point

/-! ## Compression -/

theorem stepCode_shift (a b : Point) : stepCode (a.shift dx dy) (b.shift dx dy) = stepCode a b := by
  simp only [stepCode, Point.shift_x, Point.shift_y, Int.add_sub_add_right]

namespace Chain

/-- A chain whose points are moved. -/
def shift (c : Chain) (dx dy : Int) : Chain :=
  { c with
    kept := c.kept.map fun a => a.shift dx dy
    head :=
      match c.head with
      | .none => .none
      | .one p => .one (p.shift dx dy)
      | .two p q => .two (p.shift dx dy) (q.shift dx dy)
    last := c.last.shift dx dy }

theorem extend_shift (c : Chain) (q : Point) (dx dy : Int) :
    (c.shift dx dy).extend (q.shift dx dy) = (c.extend q).shift dx dy := by
  by_cases hends : stepCode c.last q ≠ c.direction ∨ stepCode c.last q = 0
  · simp only [extend, shift, stepCode_shift, if_pos hends, Array.map_push]
  · simp only [extend, shift, stepCode_shift, if_neg hends]

theorem push_shift (c : Chain) (q : Point) :
    (c.shift dx dy).push (q.shift dx dy) = (c.push q).shift dx dy := by
  cases hhead : c.head with
  | none => simp [push, shift, hhead]
  | one p =>
    have hextend := extend_shift { c with head := .two p q } q dx dy
    simpa [push, shift, hhead] using hextend
  | two p p' =>
    have hextend := extend_shift c q dx dy
    simpa [push, shift, hhead] using hextend

theorem foldl_push_shift (l : List Point) (c : Chain) :
    (l.map fun a => a.shift dx dy).foldl push (c.shift dx dy) = (l.foldl push c).shift dx dy := by
  induction l generalizing c with
  | nil => rfl
  | cons q l ih => rw [List.map_cons, List.foldl_cons, List.foldl_cons, push_shift, ih]

theorem closesStraight_shift (c : Chain) : (c.shift dx dy).closesStraight = c.closesStraight := by
  cases hhead : c.head <;> simp only [closesStraight, shift, hhead, stepCode_shift]

theorem close_shift (c : Chain) : (c.shift dx dy).close = c.close.shift dx dy := by
  have hpush : ∀ p : Point, { c.shift dx dy with
      closed := true, startRedundant := (c.shift dx dy).closesStraight }.push (p.shift dx dy) =
        ({ c with closed := true, startRedundant := c.closesStraight }.push p).shift dx dy := by
    intro p
    rw [closesStraight_shift, ← push_shift]
    rfl
  have hclosed : (c.shift dx dy).closed = c.closed := rfl
  by_cases hc : c.closed = true
  · rw [close, close, hclosed, if_pos hc, if_pos hc]
  · rw [close, close, hclosed, if_neg hc, if_neg hc]
    cases hhead : c.head with
    | none => simp [shift, hhead]
    | one p => simpa [shift, hhead] using hpush p
    | two p q => simpa [shift, hhead] using hpush p

/-- The first point of a chain takes the place of the last one, whatever that was. -/
theorem ofPoints_map_shift {l : List Point} (hl : l ≠ []) :
    ofPoints (l.map fun a => a.shift dx dy) = (ofPoints l).shift dx dy := by
  cases l with
  | nil => exact absurd rfl hl
  | cons q l =>
    have hfirst : empty.push (q.shift dx dy) = (empty.push q).shift dx dy := by simp [push, shift, empty]
    rw [ofPoints, List.map_cons, List.foldl_cons, hfirst, foldl_push_shift, close_shift]
    rfl

/-- Compressing a moved contour is moving the compressed one. -/
theorem simplify_map_shift (l : List Point) (dropStart : Bool) :
    simplify (l.map fun a => a.shift dx dy) dropStart =
      ((simplify l dropStart).1.map fun a => a.shift dx dy, (simplify l dropStart).2) := by
  rcases eq_or_ne l [] with rfl | hl
  · cases dropStart <;> rfl
  · simp only [simplify, ofPoints_map_shift hl]
    simp only [shift, Array.toList_map, ← List.map_drop]
    split_ifs <;> rfl

end Chain

/-! ## Area -/

/-- An offset adds to the area under a path what the ends of the path make of it. -/
theorem sweep_map_shift (a b : Point) (l : List Point) (dx dy : Int) :
    sweep ((a :: l ++ [b]).map fun q => q.shift dx dy) =
      sweep (a :: l ++ [b]) + dx * (b.y - a.y) - dy * (b.x - a.x) := by
  induction l generalizing a with
  | nil =>
    simp only [List.cons_append, List.nil_append, List.map_cons, List.map_nil, sweep, Point.shift_x,
      Point.shift_y]
    ring
  | cons c l ih =>
    have hrest := ih c
    simp only [List.cons_append, List.map_cons, sweep, Point.shift_x, Point.shift_y] at hrest ⊢
    rw [hrest]
    ring

theorem shoelace_map_shift (l : List Point) :
    shoelace (l.map fun q => q.shift dx dy) = shoelace l := by
  cases l with
  | nil => rfl
  | cons a l =>
    have hsweep := sweep_map_shift a a l dx dy
    rw [Int.sub_self, Int.sub_self, Int.mul_zero, Int.mul_zero, Int.add_zero, Int.sub_zero,
      List.map_append, List.map_cons, List.map_singleton] at hsweep
    rw [List.map_cons, shoelace_eq_sweep, shoelace_eq_sweep, hsweep]

theorem polygonArea_map_shift (l : List Point) :
    polygonArea (l.map fun q => q.shift dx dy) = polygonArea l := by
  rw [polygonArea_eq_abs, polygonArea_eq_abs, shoelace_map_shift]

/-! ## Thinning -/

namespace Polyline

theorem lineDistance_shift (p a b : Point) :
    lineDistance (p.shift dx dy) (a.shift dx dy) (b.shift dx dy) = lineDistance p a b := by
  simp only [lineDistance, lineDistanceIn, Point.shift_x, Point.shift_y, Int.add_sub_add_right]

section

variable {δ : Type} [LT δ] [DecidableLT δ]

theorem argmax_congr {f g : Nat → δ} {n i best : Nat} (hbest : best < i + n)
    (h : ∀ k < i + n, f k = g k) : argmax f n i best = argmax g n i best := by
  induction n generalizing i best with
  | zero => rfl
  | succ n ih =>
    rw [argmax, argmax, h best hbest, h i (by omega)]
    exact ih (by split <;> omega) fun k hk => h k (by omega)

theorem farthest_congr {f g : Nat → δ} {a b : Nat} (hab : a + 1 < b) (h : ∀ k < b, f k = g k) :
    farthest f a b = farthest g a b :=
  argmax_congr (by omega) fun k hk => h k (by omega)

/-- Distances matter only between points of the outline. -/
theorem between_congr {d d' : Nat → Nat → Nat → δ} {N : Nat} (tolerance : δ)
    (h : ∀ i < N, ∀ a < N, ∀ b < N, d i a b = d' i a b) (n : Nat) {a b : Nat} (hb : b < N) :
    between d tolerance n a b = between d' tolerance n a b := by
  induction n generalizing a b with
  | zero => rfl
  | succ n ih =>
    rw [between, between]
    split
    case isTrue => rfl
    case isFalse hab =>
      have hsame := farthest_congr (f := fun i => d i a b) (g := fun i => d' i a b) (a := a) (b := b)
        (by omega) fun k hk => h k (by omega) a (by omega) b hb
      obtain ⟨-, hm⟩ := lt_farthest_lt (f := fun i => d' i a b) (a := a) (b := b) (by omega)
      simp only [hsame, h _ (show farthest (fun i => d' i a b) a b < N by omega) a (by omega) b hb]
      rw [ih (a := a) (by omega), ih hb]

theorem keptIndices_congr {d d' : Nat → Nat → Nat → δ} {n : Nat} (hn : 0 < n) (tolerance : δ)
    (h : ∀ i < n, ∀ a < n, ∀ b < n, d i a b = d' i a b) :
    keptIndices d tolerance n = keptIndices d' tolerance n := by
  rw [keptIndices, keptIndices, between_congr tolerance h n (by omega)]

/-- Thinning commutes with moving the points, if the distance does not change with them. -/
theorem thin_map_shift {distance : Point → Point → Point → δ}
    (h : ∀ p a b, distance (p.shift dx dy) (a.shift dx dy) (b.shift dx dy) = distance p a b)
    (tolerance : δ) {l : List Point} (hl : 0 < l.length) :
    thin distance tolerance (l.map fun q => q.shift dx dy) =
      (thin distance tolerance l).map fun q => q.shift dx dy := by
  -- Beyond the outline both look at the same default, so only its own points are moved.
  have hpoint : ∀ i < l.length, (l.map fun q => q.shift dx dy).toArray.getD i ⟨0, 0⟩ =
      (l.toArray.getD i ⟨0, 0⟩).shift dx dy := by
    intro i hi
    simp [Array.getD_eq_getD_getElem?, hi]
  have hkept : keptIndices (fun i a b => distance
        ((l.map fun q => q.shift dx dy).toArray.getD i ⟨0, 0⟩)
        ((l.map fun q => q.shift dx dy).toArray.getD a ⟨0, 0⟩)
        ((l.map fun q => q.shift dx dy).toArray.getD b ⟨0, 0⟩)) tolerance l.length =
      keptIndices (fun i a b => distance (l.toArray.getD i ⟨0, 0⟩) (l.toArray.getD a ⟨0, 0⟩)
        (l.toArray.getD b ⟨0, 0⟩)) tolerance l.length := by
    refine keptIndices_congr hl tolerance fun i hi a ha b hb => ?_
    rw [hpoint i hi, hpoint a ha, hpoint b hb, h]
  simp only [thin, List.length_map, hkept, List.map_map]
  exact List.map_congr_left fun i hi => hpoint i (keptIndices_lt hl i hi)

end

/-- Thinning a moved outline is moving the thinned one. -/
theorem simplify_map_shift (l : List Point) (tolerance : Float) :
    simplify (l.map fun q => q.shift dx dy) tolerance =
      (simplify l tolerance).map fun q => q.shift dx dy := by
  by_cases hshort : (l.length ≤ 3 || tolerance ≤ 0) = true
  · rw [simplify, simplify, simplifyBy, simplifyBy, List.length_map, if_pos hshort, if_pos hshort]
  · have hlength : 3 < l.length := by
      by_contra hle
      simp [Nat.le_of_not_lt hle] at hshort
    rw [simplify, simplify, simplifyBy, simplifyBy, List.length_map, if_neg hshort, if_neg hshort]
    exact thin_map_shift lineDistance_shift tolerance (by omega)

end Polyline

end Perimeter
