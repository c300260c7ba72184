import Mathlib.Logic.Relation
import Perimeter.Geometry.Plane
import Perimeter.Proofs.Geometry.Hull

/-!
# Straighter paths

A path is straightened by leaving out points between their neighbours. Neither the signed area under the
path nor the hull of its points changes.
-/

namespace Perimeter

/-- One point between its neighbours is left out of a path. -/
inductive Straighter : List Point → List Point → Prop where
  | drop {a m b : Point} (front back : List Point) (h : Between a m b) :
    Straighter (front ++ a :: m :: b :: back) (front ++ a :: b :: back)

/-- Any number of points between their neighbours is left out of a path, one after the other. -/
abbrev Straightens : List Point → List Point → Prop := Relation.ReflTransGen Straighter

variable {l l' : List Point} {a m b : Point}

namespace Straightens

theorem cons (p : Point) (h : Straightens l l') : Straightens (p :: l) (p :: l') := by
  refine h.lift (p :: ·) ?_
  rintro _ _ ⟨front, back, hbetween⟩
  exact Straighter.drop (p :: front) back hbetween

theorem subset (h : Straightens l l') : ∀ p ∈ l', p ∈ l := by
  induction h with
  | refl => exact fun _ hp => hp
  | tail _ hstep ih =>
    obtain ⟨front, back, -⟩ := hstep
    refine fun p hp => ih p ?_
    simp only [List.mem_append, List.mem_cons] at hp ⊢
    tauto

end Straightens

/-! ## The area under a path -/

/-- Twice the area that a path sweeps as seen from the origin. -/
def sweep : List Point → Int
  | a :: b :: rest => a.x * b.y - b.x * a.y + sweep (b :: rest)
  | _ => 0

theorem sweep_append_cons (front back : List Point) (a : Point) :
    sweep (front ++ a :: back) = sweep (front ++ [a]) + sweep (a :: back) := by
  induction front with
  | nil => simp [sweep]
  | cons p front ih =>
    cases front with
    | nil => simp [sweep]
    | cons q front =>
      simp only [List.cons_append, sweep] at ih ⊢
      omega

theorem sweep_drop (h : Between a m b) (back : List Point) :
    sweep (a :: m :: b :: back) = sweep (a :: b :: back) := by
  have hflat := h.turn_eq_zero
  simp only [turn, det, Point.toward] at hflat
  simp only [sweep]
  linarith

theorem Straightens.sweep_eq (h : Straightens l l') : sweep l' = sweep l := by
  induction h with
  | refl => rfl
  | tail _ hstep ih =>
    obtain ⟨front, back, hbetween⟩ := hstep
    rw [← ih, sweep_append_cons, sweep_append_cons front (_ :: _ :: back), sweep_drop hbetween]

/-- The area of a polygon is the one under the path once around it. -/
theorem shoelace_eq_sweep (p : Point) (rest : List Point) :
    shoelace (p :: rest) = wrap64 (sweep (p :: rest ++ [p])) := by
  have hsum : ∀ q, ((p :: rest).zip (rest ++ [q])).foldr
      (fun z n => z.1.x * z.2.y - z.2.x * z.1.y + n) 0 = sweep (p :: rest ++ [q]) := by
    intro q
    induction rest generalizing p with
    | nil => simp [sweep]
    | cons r rest ih =>
      have hrest := ih r
      simp only [List.cons_append, List.zip_cons_cons, List.foldr_cons, sweep] at hrest ⊢
      rw [hrest]
  exact congrArg wrap64 (hsum p)

theorem shoelace_eq_zero (h : l.length < 3) : shoelace l = 0 := by
  match l, h with
  | [], _ => rfl
  | [p], _ =>
    have hflat : sweep [p, p] = 0 := by
      simp only [sweep]
      ring
    rw [shoelace_eq_sweep, List.singleton_append, hflat]
    rfl
  | [p, q], _ =>
    have hflat : sweep [p, q, p] = 0 := by
      simp only [sweep]
      ring
    rw [shoelace_eq_sweep, List.cons_append, List.singleton_append, hflat]
    rfl

/-- Fewer than three points are no exception for the area. -/
theorem polygonArea_eq_abs (l : List Point) : polygonArea l = (Float.ofInt (shoelace l)).abs / 2 := by
  rw [polygonArea]
  split
  case isFalse => rfl
  case isTrue hshort =>
    rw [shoelace_eq_zero hshort]
    rfl

/-! ## Hulls -/

theorem Straightens.convexHull_eq (h : Straightens l l') (hl : ∀ p ∈ l, p.Small) :
    convexHull l' = convexHull l := by
  induction h with
  | refl => rfl
  | @tail l₁ l₂ hstraight hstep ih =>
    have hsmall : ∀ p ∈ l₁, p.Small := fun p hp => hl p (Straightens.subset hstraight p hp)
    obtain ⟨front, back, hbetween⟩ := hstep
    rw [← ih]
    refine (convexHull_eq_of_between hsmall (fun x => ?_) ?_ ?_ hbetween).symm
    · simp only [List.mem_append, List.mem_cons]
      tauto
    · simp
    · simp

end Perimeter
