import Mathlib.Analysis.InnerProductSpace.PiL2
import Perimeter.Proofs.Chain.Legs
import Perimeter.Proofs.Geometry.Thinning
import Perimeter.Proofs.Geometry.Turn
import Perimeter.Trace

/-!
# How far thinning goes

In real numbers the distance that thinning looks at is the distance from a line. So every point of an
outline is within the tolerance of the line through two neighbours on the thinned one, and within the
tolerance of the segment between them unless it lies beyond an end. Beyond the ends nothing holds: the
outline of a row goes out and back along one line, and is cut down to its first and last point.
-/

namespace Perimeter

open AffineMap (lineMap)

/-- The pixel as a point of the real plane. -/
noncomputable def Point.inPlane (p : Point) : EuclideanSpace ℝ (Fin 2) := !₂[(p.x : ℝ), (p.y : ℝ)]

@[simp] theorem Point.inPlane_zero (p : Point) : p.inPlane 0 = p.x := rfl

@[simp] theorem Point.inPlane_one (p : Point) : p.inPlane 1 = p.y := rfl

/-- The inner product of two vectors. -/
def dot (u v : Point) : Int := u.x * v.x + u.y * v.y

namespace Polyline

variable {p a b : Point} {δ ε : ℝ}

/-! ## The distance from a line -/

/-- The distance that thinning looks at, in real numbers. -/
noncomputable def realDistance : Point → Point → Point → ℝ :=
  lineDistanceIn (fun n => (n : ℝ)) abs fun x y => √(x ^ 2 + y ^ 2)

/-- Where on the line from `a` to `b` the point nearest to `p` is. -/
noncomputable def foot (p a b : Point) : ℝ :=
  dot (a.toward p) (a.toward b) / dot (a.toward b) (a.toward b)

theorem dist_lineMap (p a b : Point) (t : ℝ) :
    dist p.inPlane (lineMap a.inPlane b.inPlane t) =
      √(((a.toward p).x - t * (a.toward b).x) ^ 2 + ((a.toward p).y - t * (a.toward b).y) ^ 2) := by
  have hcoordinate : ∀ i,
      lineMap a.inPlane b.inPlane t i = a.inPlane i + t * (b.inPlane i - a.inPlane i) :=
    fun i => by simp [AffineMap.lineMap_apply, add_comm]
  rw [EuclideanSpace.dist_eq, Fin.sum_univ_two, hcoordinate, hcoordinate]
  simp only [Real.dist_eq, sq_abs, Point.inPlane_zero, Point.inPlane_one, sub_add_eq_sub_sub,
    Point.toward, Int.cast_sub]

theorem dot_toward_eq_zero_iff : dot (a.toward b) (a.toward b) = 0 ↔ a = b := by
  obtain ⟨ax, ay⟩ := a
  obtain ⟨bx, by'⟩ := b
  rw [dot, add_eq_zero_iff_of_nonneg (mul_self_nonneg _) (mul_self_nonneg _), mul_self_eq_zero,
    mul_self_eq_zero]
  simp only [Point.toward, Point.mk.injEq]
  omega

theorem realDistance_eq (hp : p.Wide) (ha : a.Wide) (hb : b.Wide) :
    realDistance p a b =
      if a = b then √(((a.toward p).x : ℝ) ^ 2 + ((a.toward p).y : ℝ) ^ 2)
      else
        |((det (a.toward p) (a.toward b) : Int) : ℝ)| /
          √((dot (a.toward b) (a.toward b) : Int) : ℝ) := by
  obtain ⟨hpx, hpy⟩ := hp
  obtain ⟨hax, hay⟩ := ha
  obtain ⟨hbx, hby⟩ := hb
  have hzero : (((b.x - a.x : Int) : ℝ) == 0 && ((b.y - a.y : Int) : ℝ) == 0) = true ↔ a = b := by
    rw [← dot_toward_eq_zero_iff, dot, add_eq_zero_iff_of_nonneg (mul_self_nonneg _) (mul_self_nonneg _)]
    simp only [Bool.and_eq_true, beq_iff_eq, Int.cast_eq_zero, mul_self_eq_zero, Point.toward]
  simp only [realDistance, lineDistanceIn]
  rw [wrap64_sub_eq hbx hax, wrap64_sub_eq hby hay, wrap64_sub_eq hpx hax, wrap64_sub_eq hpy hay]
  refine if_congr hzero rfl ?_
  simp only [det, dot, Point.toward, Int.cast_sub, Int.cast_add, Int.cast_mul, pow_two]

/-- What is left of a vector without its part along another one. -/
theorem sqrt_residue {ux uy vx vy : ℝ} (hv : vx * vx + vy * vy ≠ 0) :
    √((ux - (ux * vx + uy * vy) / (vx * vx + vy * vy) * vx) ^ 2 +
        (uy - (ux * vx + uy * vy) / (vx * vx + vy * vy) * vy) ^ 2) =
      |ux * vy - uy * vx| / √(vx * vx + vy * vy) := by
  have hsquare : (ux - (ux * vx + uy * vy) / (vx * vx + vy * vy) * vx) ^ 2 +
      (uy - (ux * vx + uy * vy) / (vx * vx + vy * vy) * vy) ^ 2 =
        (ux * vy - uy * vx) ^ 2 / (vx * vx + vy * vy) := by
    rw [← pow_two, ← pow_two] at hv
    field_simp
    ring
  rw [hsquare, Real.sqrt_div (sq_nonneg _), Real.sqrt_sq_eq_abs]

/-- The nearest point of the line is as far away as thinning takes it to be. -/
theorem dist_foot (hp : p.Wide) (ha : a.Wide) (hb : b.Wide) :
    dist p.inPlane (lineMap a.inPlane b.inPlane (foot p a b)) = realDistance p a b := by
  rw [dist_lineMap, realDistance_eq hp ha hb, foot]
  split_ifs with hab
  · rw [dot_toward_eq_zero_iff.2 hab]
    simp
  · have hne : ((dot (a.toward b) (a.toward b) : Int) : ℝ) ≠ 0 :=
      Int.cast_ne_zero.2 (mt dot_toward_eq_zero_iff.1 hab)
    simp only [dot, det, Int.cast_add, Int.cast_sub, Int.cast_mul] at hne ⊢
    exact sqrt_residue hne

/-! ## Points near a line -/

/-- Neither beyond `a` nor beyond `b` on the way between the two. -/
def Abreast (p a b : Point) : Prop :=
  0 ≤ dot (a.toward p) (a.toward b) ∧ 0 ≤ dot (b.toward p) (b.toward a)

instance (p a b : Point) : Decidable (Abreast p a b) := inferInstanceAs (Decidable (_ ∧ _))

theorem foot_mem_Icc (h : Abreast p a b) : foot p a b ∈ Set.Icc 0 1 := by
  obtain ⟨ha, hb⟩ := h
  have hle : dot (a.toward p) (a.toward b) ≤ dot (a.toward b) (a.toward b) := by
    simp only [dot, Point.toward] at hb ⊢
    linarith
  have hnonneg : 0 ≤ dot (a.toward b) (a.toward b) := ha.trans hle
  exact ⟨div_nonneg (Int.cast_nonneg ha) (Int.cast_nonneg hnonneg),
    div_le_one_of_le₀ (Int.cast_le.2 hle) (Int.cast_nonneg hnonneg)⟩

/-- A point of the line near `p`, on the segment if `p` is beyond neither end. -/
structure NearLine (δ : ℝ) (p a b : Point) : Prop where
  line : ∃ q ∈ line[ℝ, a.inPlane, b.inPlane], dist p.inPlane q ≤ δ
  segment : Abreast p a b → ∃ q ∈ segment ℝ a.inPlane b.inPlane, dist p.inPlane q ≤ δ

theorem nearLine_of_realDistance (hp : p.Wide) (ha : a.Wide) (hb : b.Wide)
    (h : realDistance p a b ≤ δ) : NearLine δ p a b := by
  have hfoot : dist p.inPlane (lineMap a.inPlane b.inPlane (foot p a b)) ≤ δ := by
    rwa [dist_foot hp ha hb]
  refine ⟨⟨_, AffineMap.lineMap_mem_affineSpan_pair _ _ _, hfoot⟩, fun habreast => ⟨_, ?_, hfoot⟩⟩
  rw [segment_eq_image_lineMap]
  exact Set.mem_image_of_mem _ (foot_mem_Icc habreast)

/-! ## What thinning drops -/

theorem realDistance_left (ha : a.Wide) (hb : b.Wide) : realDistance a a b = 0 := by
  rw [realDistance_eq ha ha hb]
  simp [det, Point.toward]

theorem realDistance_right (ha : a.Wide) (hb : b.Wide) : realDistance b a b = 0 := by
  rw [realDistance_eq hb ha hb]
  split_ifs with hab
  · simp [hab, Point.toward]
  · simp [det, mul_comm]

/-- An outline all on the line through its ends is thinned to its ends, however far it goes beyond
them. -/
theorem simplifyBy_eq_ends {l : List Point} (hl : 2 ≤ l.length) (hε : 0 < ε) (ha : a.Wide) (hb : b.Wide)
    (hwide : ∀ p ∈ l, p.Wide) (hab : a ≠ b) (h : ∀ p ∈ l, turn a b p = 0) :
    simplifyBy realDistance (a :: (l ++ [b])) ε = [a, b] := by
  have hlong : 3 < (a :: (l ++ [b])).length := by
    simp only [List.length_cons, List.length_append, List.length_nil]
    omega
  rw [simplifyBy_eq_thin hlong hε]
  refine thin_eq_ends fun p hp => ?_
  have hdet : det (a.toward p) (a.toward b) = 0 := by
    have hturn := h p hp
    simp only [turn, det] at hturn ⊢
    linarith
  rw [realDistance_eq (hwide p hp) ha hb, if_neg hab, hdet]
  simpa using hε.le

/-- A segment whose ends are more than `δ` to the left of a point is more than `δ` away from it. -/
theorem lt_dist_of_mem_segment (hδ : 0 ≤ δ) (ha : a.x + δ < p.x) (hb : b.x + δ < p.x)
    {q : EuclideanSpace ℝ (Fin 2)} (hq : q ∈ segment ℝ a.inPlane b.inPlane) : δ < dist p.inPlane q := by
  rw [segment_eq_image_lineMap] at hq
  obtain ⟨t, ⟨ht, ht'⟩, rfl⟩ := hq
  rw [dist_lineMap, Real.lt_sqrt hδ]
  simp only [Point.toward, Int.cast_sub]
  -- The point of the segment that is farthest to the right is one of its ends.
  have hx : δ < p.x - a.x - t * (b.x - a.x) := by
    obtain hab | hba := le_total (a.x : ℝ) b.x
    · linarith [mul_nonneg (sub_nonneg.2 ht') (sub_nonneg.2 hab)]
    · linarith [mul_nonneg ht (sub_nonneg.2 hba)]
  nlinarith [sq_nonneg ((p.y : ℝ) - a.y - t * (b.y - a.y))]

/-- Thinning with a distance that is off by `η` at most. Every point of the outline is within `ε + η` of
the line through two neighbours on the thinned outline, and within `ε + η` of the segment between them
if it is beyond neither end. -/
theorem simplifyBy_near_line {distance : Point → Point → Point → ℝ} {l : List Point} {ε η : ℝ}
    (hl : 3 < l.length) (hε : 0 < ε) (hwide : ∀ p ∈ l, p.Wide)
    (hη : ∀ p ∈ l, ∀ a ∈ l, ∀ b ∈ l, |distance p a b - realDistance p a b| ≤ η) :
    ∀ p ∈ l, ∃ a b, [a, b] <:+: simplifyBy distance l ε ∧ NearLine (ε + η) p a b := by
  intro p hp
  rw [simplifyBy_eq_thin hl hε]
  obtain ⟨a, b, hpair, hnear⟩ : ∃ a b, [a, b] <:+: thin distance ε l ∧ _ :=
    exists_thin_around (by omega) hp
  -- Thinning keeps points of the outline, so the bound on the error is about them, too.
  have hkept : ∀ q ∈ [a, b], q ∈ l := fun q hq =>
    mem_of_mem_thin (List.ne_nil_of_mem hp) (hpair.subset hq)
  have ha : a ∈ l := hkept a (by simp)
  have hb : b ∈ l := hkept b (by simp)
  have hoff := hη p hp a ha b hb
  refine ⟨a, b, hpair, nearLine_of_realDistance (hwide p hp) (hwide a ha) (hwide b hb) ?_⟩
  obtain rfl | rfl | hnear := hnear
  · rw [realDistance_left (hwide p hp) (hwide b hb)]
    linarith [abs_nonneg (distance p p b - realDistance p p b)]
  · rw [realDistance_right (hwide a ha) (hwide p hp)]
    linarith [abs_nonneg (distance p a p - realDistance p a p)]
  · linarith [(abs_le.1 hoff).1]

/-- The outline of a square, with exact distances. -/
theorem simplifyBy_near_line_square :
    let l : List Point := [⟨0, 0⟩, ⟨1, 0⟩, ⟨2, 0⟩, ⟨2, 1⟩, ⟨2, 2⟩, ⟨1, 2⟩, ⟨0, 2⟩, ⟨0, 1⟩]
    3 < l.length ∧ (0 : ℝ) < 1 / 2 ∧ (∀ p ∈ l, p.Wide) ∧
      (∀ p ∈ l, ∀ a ∈ l, ∀ b ∈ l, |realDistance p a b - realDistance p a b| ≤ 0) ∧
      ∀ p ∈ l, ∃ a b, [a, b] <:+: simplifyBy realDistance l (1 / 2) ∧ NearLine (1 / 2 + 0) p a b := by
  intro l
  have hwide : ∀ p ∈ l, p.Wide := by decide
  have hexact : ∀ p ∈ l, ∀ a ∈ l, ∀ b ∈ l, |realDistance p a b - realDistance p a b| ≤ 0 :=
    fun p _ a _ b _ => by simp
  exact ⟨by decide, by norm_num, hwide, hexact,
    simplifyBy_near_line (by decide) (by norm_num) hwide hexact⟩

/-- A row of five pixels is thinned to the first two, and the fifth is more than the tolerance away from
the segment between them. -/
theorem simplifyBy_row :
    let l : List Point := [⟨0, 0⟩, ⟨1, 0⟩, ⟨2, 0⟩, ⟨3, 0⟩, ⟨4, 0⟩, ⟨3, 0⟩, ⟨2, 0⟩, ⟨1, 0⟩]
    (∃ out, Trace.run ⟨5, 1, fun _ _ => true⟩ ⟨0, 0, .auto⟩ {} = .ok out ∧ out.points.toList = l) ∧
      ⟨4, 0⟩ ∈ l ∧ simplifyBy realDistance l 1 = [⟨0, 0⟩, ⟨1, 0⟩] ∧
      ∀ a ∈ simplifyBy realDistance l 1, ∀ b ∈ simplifyBy realDistance l 1,
        ∀ q ∈ segment ℝ a.inPlane b.inPlane, 1 < dist (Point.inPlane ⟨4, 0⟩) q := by
  intro l
  have hends : simplifyBy realDistance l 1 = [⟨0, 0⟩, ⟨1, 0⟩] :=
    simplifyBy_eq_ends (l := [⟨1, 0⟩, ⟨2, 0⟩, ⟨3, 0⟩, ⟨4, 0⟩, ⟨3, 0⟩, ⟨2, 0⟩]) (by decide) one_pos
      (by decide) (by decide) (by decide) (by decide) (by decide)
  refine ⟨⟨_, rfl, by decide⟩, by decide, hends, ?_⟩
  rw [hends]
  have hleft : ∀ v ∈ [(⟨0, 0⟩ : Point), ⟨1, 0⟩], (v.x : ℝ) + 1 < ((⟨4, 0⟩ : Point).x : ℝ) := by
    norm_num [List.forall_mem_cons]
  exact fun a ha b hb q hq => lt_dist_of_mem_segment zero_le_one (hleft a ha) (hleft b hb) hq

end Polyline

end Perimeter
