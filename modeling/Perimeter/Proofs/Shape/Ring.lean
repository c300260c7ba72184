import Mathlib.Data.Int.ConditionallyCompleteOrder
import Mathlib.Data.Int.Interval
import Mathlib.Data.Set.Card
import Perimeter.Proofs.Blob.Find
import Perimeter.Proofs.Raster.Layouts
import Perimeter.Proofs.Region.Lines
import Perimeter.Shape

/-!
# Rings

A ring is a square frame with a pixel of ink in the middle of its hole. Its ink falls into two
components, the frame and the island, and its background is one region between them, which is the only
hole.
-/

namespace Perimeter

/-- The pixels of a square, from one number up to before another in columns and rows alike. -/
def Point.block (l m : Int) : Set Point := {b | l ≤ b.x ∧ b.x < m ∧ l ≤ b.y ∧ b.y < m}

theorem Point.block_eq_image (l m : Int) :
    Point.block l m =
      (fun z : Int × Int => (⟨z.1, z.2⟩ : Point)) '' (Finset.Ico l m ×ˢ Finset.Ico l m : Finset _) := by
  ext ⟨x, y⟩
  simp [Point.block, and_assoc]

theorem Point.finite_block (l m : Int) : (Point.block l m).Finite := by
  rw [block_eq_image]
  exact (Finset.finite_toSet _).image _

theorem Point.ncard_block {l m : Int} (h : l ≤ m) :
    ((Point.block l m).ncard : Int) = (m - l) * (m - l) := by
  have hinjective : Function.Injective fun z : Int × Int => (⟨z.1, z.2⟩ : Point) := by
    rintro ⟨x, y⟩ ⟨x', y'⟩ heq
    simpa using heq
  rw [block_eq_image, Set.ncard_image_of_injective _ hinjective, Set.ncard_coe_finset,
    Finset.card_product, Int.card_Ico, Int.natCast_mul, Int.toNat_of_nonneg (by omega)]

/-- The rectangle around pixels of a square, among them two opposite corners. -/
theorem Region.Encloses.bounds_eq {r : Region} {s : Set Point} {l m : Int} (h : r.Encloses s)
    (hs : s ⊆ Point.block l m) (hlow : ⟨l, l⟩ ∈ s) (hhigh : ⟨m - 1, m - 1⟩ ∈ s) :
    (⟨r.minX, r.minY, r.maxX, r.maxY⟩ : Bounds) = ⟨l, l, m - 1, m - 1⟩ := by
  have hminX : IsLeast (Point.x '' s) l :=
    ⟨⟨_, hlow, rfl⟩, Set.forall_mem_image.2 fun _ hb => (hs hb).1⟩
  have hminY : IsLeast (Point.y '' s) l :=
    ⟨⟨_, hlow, rfl⟩, Set.forall_mem_image.2 fun _ hb => (hs hb).2.2.1⟩
  have hmaxX : IsGreatest (Point.x '' s) (m - 1) :=
    ⟨⟨_, hhigh, rfl⟩, Set.forall_mem_image.2 fun _ hb => Int.le_sub_one_of_lt (hs hb).2.1⟩
  have hmaxY : IsGreatest (Point.y '' s) (m - 1) :=
    ⟨⟨_, hhigh, rfl⟩, Set.forall_mem_image.2 fun _ hb => Int.le_sub_one_of_lt (hs hb).2.2.2⟩
  rw [h.minX.unique hminX, h.minY.unique hminY, h.maxX.unique hmaxX, h.maxY.unique hmaxY]

/-- What a contour tells of a region that lies between two corners of a square. -/
theorem Blob.Config.describe_record {p : Picture} {a : Point} {s : Set Point} {l m size : Int}
    {rank label : Nat} {polarity : Polarity} {cfg : Blob.Config} {out : Walk.Outcome} {c : Blob.Contour}
    (hc : c = cfg.describe out rank polarity (p.record a)) (hrank : rank = label)
    (ha : p.Contains a.x a.y) (hregion : p.region a = s) (hsize : (s.ncard : Int) = size)
    (hs : s ⊆ Point.block l m) (hlow : ⟨l, l⟩ ∈ s) (hhigh : ⟨m - 1, m - 1⟩ ∈ s) :
    (c.polarity, c.label, c.pixels, c.bounds) =
      (polarity, (label : Int), size, ⟨l, l, m - 1, m - 1⟩) := by
  have hencloses := Picture.encloses_record ha
  rw [hregion] at hencloses
  simp only [hc, describe, hrank, Picture.count_record ha, hregion, hsize,
    hencloses.bounds_eq hs hlow hhigh]

namespace Shape

variable {p : Picture} {n t : Int} {b c : Point}

/-- The pixel in the middle of a square. -/
def center (n : Int) : Point := ⟨n / 2, n / 2⟩

/-- The pixels of a square less those of a smaller one in its middle. -/
def frame (n t : Int) : Set Point := Point.block 0 n \ Point.block t (n - t)

/-- The pixels between the frame and the island. -/
def gap (n t : Int) : Set Point := Point.block t (n - t) \ {center n}

/-- The picture is a ring of this size and thickness whose hole has room for an island. -/
structure IsRing (p : Picture) (n t : Int) : Prop where
  thick : 1 ≤ t
  room : 3 ≤ n - 2 * t
  width : p.width = n
  height : p.height = n
  ink : ∀ b, p.inkAt b = true ↔ b ∈ frame n t ∨ b = center n

theorem mem_frame : b ∈ frame n t ↔
    (0 ≤ b.x ∧ b.x < n ∧ 0 ≤ b.y ∧ b.y < n) ∧ (b.x < t ∨ n - t ≤ b.x ∨ b.y < t ∨ n - t ≤ b.y) := by
  simp only [frame, Point.block, Set.mem_sdiff, Set.mem_ofPred_eq]
  omega

theorem mem_gap : b ∈ gap n t ↔
    (t ≤ b.x ∧ b.x < n - t ∧ t ≤ b.y ∧ b.y < n - t) ∧ (b.x ≠ n / 2 ∨ b.y ≠ n / 2) := by
  obtain ⟨x, y⟩ := b
  simp only [gap, Point.block, center, Set.mem_sdiff, Set.mem_ofPred_eq, Set.mem_singleton_iff,
    Point.mk.injEq]
  omega

namespace IsRing

theorem contains_iff (h : IsRing p n t) :
    p.Contains b.x b.y ↔ 0 ≤ b.x ∧ b.x < n ∧ 0 ≤ b.y ∧ b.y < n := by
  rw [Picture.Contains, h.width, h.height]
  omega

theorem shade_frame (h : IsRing p n t) (hb : b ∈ frame n t) : p.Shade true b :=
  ⟨h.contains_iff.2 (mem_frame.1 hb).1, (h.ink b).2 (.inl hb)⟩

theorem shade_gap_iff (h : IsRing p n t) : p.Shade false b ↔ b ∈ gap n t := by
  have hthick := h.thick
  have hroom := h.room
  obtain ⟨x, y⟩ := b
  have hcenter : (⟨x, y⟩ : Point) = center n ↔ x = n / 2 ∧ y = n / 2 := by
    rw [center, Point.mk.injEq]
  rw [Picture.Shade, h.contains_iff, ← Bool.not_eq_true, h.ink, mem_frame, mem_gap, hcenter]
  dsimp only
  omega

/-- All of the frame is led to from its first pixel, along a side and then across. -/
theorem joined_frame (h : IsRing p n t) (hb : b ∈ frame n t) : p.Joined ⟨0, 0⟩ b := by
  have hthick := h.thick
  obtain ⟨⟨hx, hxn, hy, hyn⟩, hside⟩ := mem_frame.1 hb
  have hframe : ∀ x y : Int, 0 ≤ x → x < n → 0 ≤ y → y < n →
      (x < t ∨ n - t ≤ x ∨ y < t ∨ n - t ≤ y) → p.Shade true ⟨x, y⟩ :=
    fun x y h₁ h₂ h₃ h₄ h₅ => h.shade_frame (mem_frame.2 ⟨⟨h₁, h₂, h₃, h₄⟩, h₅⟩)
  by_cases hcol : b.x < t ∨ n - t ≤ b.x
  · -- The column of the pixel is all ink, and so is the uppermost row.
    refine (Picture.joined_row true hx fun z hz hz' => ?_).trans
      (Picture.joined_column true hy fun z hz hz' => ?_)
    · exact hframe z 0 hz (by omega) (by omega) (by omega) (by omega)
    · exact hframe b.x z hx hxn hz (by omega) (by omega)
  · refine (Picture.joined_column true hy fun z hz hz' => ?_).trans
      (Picture.joined_row true hx fun z hz hz' => ?_)
    · exact hframe 0 z (by omega) (by omega) hz (by omega) (by omega)
    · exact hframe z b.y hz (by omega) hy hyn (by omega)

/-- All of the gap is led to from its first pixel: the first row and the first column are free, and the
island blocks only one way. -/
theorem joined_gap (h : IsRing p n t) (hb : b ∈ gap n t) : p.Joined ⟨t, t⟩ b := by
  have hthick := h.thick
  have hroom := h.room
  obtain ⟨⟨hx, hxn, hy, hyn⟩, hne⟩ := mem_gap.1 hb
  have hgap : ∀ x y : Int, t ≤ x → x < n - t → t ≤ y → y < n - t → (x ≠ n / 2 ∨ y ≠ n / 2) →
      p.Shade false ⟨x, y⟩ :=
    fun x y h₁ h₂ h₃ h₄ h₅ => h.shade_gap_iff.2 (mem_gap.2 ⟨⟨h₁, h₂, h₃, h₄⟩, h₅⟩)
  by_cases hcol : b.x ≠ n / 2
  · refine (Picture.joined_row false hx fun z hz hz' => ?_).trans
      (Picture.joined_column false hy fun z hz hz' => ?_)
    · exact hgap z t hz (by omega) (by omega) (by omega) (by omega)
    · exact hgap b.x z hx hxn hz (by omega) (by omega)
  · refine (Picture.joined_column false hy fun z hz hz' => ?_).trans
      (Picture.joined_row false hx fun z hz hz' => ?_)
    · exact hgap t z (by omega) (by omega) hz (by omega) (by omega)
    · exact hgap z b.y hz (by omega) hy hyn (by omega)

theorem not_touches_center (h : IsRing p n t) (hb : b ∈ frame n t) : ¬b.Touches true (center n) := by
  have hthick := h.thick
  have hroom := h.room
  have hside := (mem_frame.1 hb).2
  -- A hole three wide has a pixel of background between the frame and the island on every side.
  simp only [Point.Touches, if_true, center]
  omega

/-! ## Regions -/

theorem region_frame (h : IsRing p n t) : p.region ⟨0, 0⟩ = frame n t := by
  have hthick := h.thick
  have hroom := h.room
  refine Picture.region_eq (mem_frame.2 (by dsimp only; omega)) (fun b => h.joined_frame) ?_
  intro b hb c hlink
  have hink := (h.shade_frame hb).2
  rcases (h.ink c).1 (hlink.colour.trans hink) with hc | rfl
  · exact hc
  · exact absurd (hink ▸ hlink.touches) (h.not_touches_center hb)

theorem region_center (h : IsRing p n t) : p.region (center n) = {center n} := by
  refine Picture.region_eq rfl (fun b hb => hb ▸ .refl) ?_
  rintro _ rfl c hlink
  have hink := (h.ink (center n)).2 (.inr rfl)
  rcases (h.ink c).1 (hlink.colour.trans hink) with hc | hc
  · exact absurd (hink ▸ hlink.touches).symm (h.not_touches_center hc)
  · exact hc

theorem region_gap (h : IsRing p n t) : p.region ⟨t, t⟩ = gap n t := by
  have hroom := h.room
  refine Picture.region_eq (mem_gap.2 (by dsimp only; omega)) (fun b => h.joined_gap) ?_
  intro b hb c hlink
  have hshade := h.shade_gap_iff.2 hb
  exact h.shade_gap_iff.1 ⟨hlink.right, hlink.colour.trans hshade.2⟩

theorem isFirst_frame (h : IsRing p n t) : p.IsFirst ⟨0, 0⟩ := by
  have hthick := h.thick
  have hroom := h.room
  refine ⟨h.contains_iff.2 (by dsimp only; omega), fun b hb => ?_⟩
  have hmem : b ∈ frame n t := h.region_frame ▸ hb
  have hin := (mem_frame.1 hmem).1
  obtain ⟨x, y⟩ := b
  simp only [Point.Before, Point.mk.injEq] at hin ⊢
  omega

theorem isFirst_center (h : IsRing p n t) : p.IsFirst (center n) := by
  have hthick := h.thick
  have hroom := h.room
  refine ⟨h.contains_iff.2 (by simp only [center]; omega), fun b hb => .inl ?_⟩
  have hmem : b ∈ ({center n} : Set Point) := h.region_center ▸ hb
  exact hmem

theorem isFirst_gap (h : IsRing p n t) : p.IsFirst ⟨t, t⟩ := by
  have hroom := h.room
  have hfirst : (⟨t, t⟩ : Point) ∈ gap n t := mem_gap.2 (by dsimp only; omega)
  refine ⟨(h.shade_gap_iff.2 hfirst).1, fun b hb => ?_⟩
  have hmem : b ∈ gap n t := h.region_gap ▸ hb
  have hin := (mem_gap.1 hmem).1
  obtain ⟨x, y⟩ := b
  simp only [Point.Before, Point.mk.injEq] at hin ⊢
  omega

theorem firsts_ink (h : IsRing p n t) : p.firsts true = [⟨0, 0⟩, center n] := by
  have hthick := h.thick
  have hroom := h.room
  have hcorner : (⟨0, 0⟩ : Point) ∈ frame n t := mem_frame.2 (by dsimp only; omega)
  refine Picture.firsts_eq ?_ ?_ ?_
  · rw [List.pairwise_pair, Point.Before, center]
    dsimp only
    omega
  · simp only [List.forall_mem_cons, List.not_mem_nil, false_imp_iff, implies_true, and_true]
    exact ⟨⟨(h.shade_frame hcorner).2, h.isFirst_frame⟩, (h.ink _).2 (.inr rfl), h.isFirst_center⟩
  · intro b _ hink
    rcases (h.ink b).1 hink with hb | rfl
    · exact ⟨_, List.mem_cons_self, h.joined_frame hb⟩
    · exact ⟨_, List.mem_cons_of_mem _ List.mem_cons_self, .refl⟩

theorem firsts_background (h : IsRing p n t) : p.firsts false = [⟨t, t⟩] := by
  have hroom := h.room
  have hcorner : (⟨t, t⟩ : Point) ∈ gap n t := mem_gap.2 (by dsimp only; omega)
  refine Picture.firsts_eq (List.pairwise_singleton _ _) ?_ ?_
  · rw [List.forall_mem_singleton]
    exact ⟨(h.shade_gap_iff.2 hcorner).2, h.isFirst_gap⟩
  · intro b hb hink
    exact ⟨_, List.mem_singleton_self _, h.joined_gap (h.shade_gap_iff.1 ⟨hb, hink⟩)⟩

/-! ## Components and holes -/

theorem enclosed_gap (h : IsRing p n t) : p.Enclosed ⟨t, t⟩ := by
  have hthick := h.thick
  intro b hb
  have hmem : b ∈ gap n t := h.region_gap ▸ hb
  have hin := (mem_gap.1 hmem).1
  rw [Point.OnBorder, h.width, h.height]
  omega

theorem holesByOwner_eq (h : IsRing p n t) : Blob.holesByOwner p 1 = [⟨t, t⟩] := by
  -- The pixel above the first one of the gap is ink of the frame, which owns the hole.
  have hfirst : ⟨t, t⟩ ∈ p.firsts false := h.firsts_background ▸ List.mem_singleton_self _
  have habove : p.inkAt (Point.above ⟨t, t⟩) = true :=
    h.isFirst_gap.inkAt_above_eq_true (Picture.mem_firsts.1 hfirst).1 h.enclosed_gap.row_ne_zero
  have hpixels : (1 : Int) ≤ (p.region (Point.above ⟨t, t⟩)).ncard := by
    exact_mod_cast Picture.one_le_ncard_region (Picture.contains_of_inkAt habove)
  have hholes : p.holes 1 = [⟨t, t⟩] := by
    rw [Picture.holes, h.firsts_background]
    refine List.filter_eq_self.2 fun b hb => ?_
    obtain rfl := List.mem_singleton.1 hb
    simp only [decide_eq_true_eq]
    exact ⟨h.enclosed_gap, hpixels⟩
  rw [Blob.holesByOwner, hholes, List.mergeSort_singleton]

theorem rank_frame (h : IsRing p n t) (hb : b ∈ frame n t) : p.rank b = 1 := by
  rw [Picture.rank, h.isFirst_frame.firstOf_eq_of_joined (h.joined_frame hb), h.firsts_ink]
  simp

theorem rank_center (h : IsRing p n t) : p.rank (center n) = 2 := by
  have hthick := h.thick
  have hroom := h.room
  have hne : (⟨0, 0⟩ : Point) ≠ center n := by
    rw [center, ne_eq, Point.mk.injEq]
    omega
  rw [Picture.rank, h.isFirst_center.firstOf_eq, h.firsts_ink]
  simp [hne]

theorem ncard_frame (h : IsRing p n t) :
    ((frame n t).ncard : Int) = n * n - (n - 2 * t) * (n - 2 * t) := by
  have hthick := h.thick
  have hroom := h.room
  have hsub : Point.block t (n - t) ⊆ Point.block 0 n := by
    rintro b ⟨h₁, h₂, h₃, h₄⟩
    exact ⟨by omega, by omega, by omega, by omega⟩
  have hsize : n - t - t = n - 2 * t := by omega
  have hle := Set.ncard_le_ncard hsub (Point.finite_block 0 n)
  rw [frame, Set.ncard_sdiff hsub (Point.finite_block _ _), Int.natCast_sub hle,
    Point.ncard_block (by omega), Point.ncard_block (by omega), hsize, Int.sub_zero]

theorem ncard_gap (h : IsRing p n t) :
    ((gap n t).ncard : Int) = (n - 2 * t) * (n - 2 * t) - 1 := by
  have hroom := h.room
  have hmem : center n ∈ Point.block t (n - t) := by
    simp only [Point.block, center, Set.mem_ofPred_eq]
    omega
  have hsize : n - t - t = n - 2 * t := by omega
  have hpos := (Set.ncard_pos (Point.finite_block t (n - t))).2 ⟨_, hmem⟩
  rw [gap, Set.ncard_sdiff_singleton_of_mem hmem, Int.natCast_sub hpos,
    Point.ncard_block (by omega), hsize, Int.natCast_one]

/-- What is found in a ring: the frame, the island and the gap. -/
theorem contours_eq (h : IsRing p n t) (cfg : Blob.Config) (hmin : cfg.minPixels = 1)
    (hholes : cfg.holes = true) :
    (cfg.contours p).map (fun c => (c.polarity, c.label, c.pixels, c.bounds)) =
      [(.outer, 1, n * n - (n - 2 * t) * (n - 2 * t), ⟨0, 0, n - 1, n - 1⟩),
        (.outer, 2, 1, ⟨n / 2, n / 2, n / 2, n / 2⟩),
        (.hole, 1, (n - 2 * t) * (n - 2 * t) - 1, ⟨t, t, n - t - 1, n - t - 1⟩)] := by
  have hthick := h.thick
  have hroom := h.room
  have hcorner : (⟨0, 0⟩ : Point) ∈ frame n t := mem_frame.2 (by dsimp only; omega)
  have habove : (⟨t, t⟩ : Point).above ∈ frame n t :=
    mem_frame.2 (by simp only [Point.above]; omega)
  have hframe := Blob.Config.describe_record (c := cfg.outerContour p ⟨0, 0⟩) rfl (h.rank_frame hcorner)
    h.isFirst_frame.contains h.region_frame h.ncard_frame Set.sdiff_subset hcorner
    (mem_frame.2 (by dsimp only; omega))
  have hisland := Blob.Config.describe_record (c := cfg.outerContour p (center n))
    (l := n / 2) (m := n / 2 + 1) rfl h.rank_center h.isFirst_center.contains h.region_center
    (congrArg Nat.cast (Set.ncard_singleton _))
    (Set.singleton_subset_iff.2 (by simp [Point.block, center])) rfl (by simp [center])
  have hgap := Blob.Config.describe_record (c := cfg.holeContour p ⟨t, t⟩) rfl (h.rank_frame habove)
    h.isFirst_gap.contains h.region_gap h.ncard_gap Set.sdiff_subset
    (mem_gap.2 (by dsimp only; omega)) (mem_gap.2 (by dsimp only; omega))
  rw [Int.add_sub_cancel] at hisland
  rw [Blob.Config.contours, hmin, hholes, if_pos rfl, Picture.blobs_eq_firsts (Int.le_refl 1),
    h.firsts_ink, h.holesByOwner_eq]
  exact List.cons_eq_cons.2 ⟨hframe, List.cons_eq_cons.2 ⟨hisland, List.cons_eq_cons.2 ⟨hgap, rfl⟩⟩⟩

end IsRing

/-- The ring that is drawn is one, as long as its pixels can be counted by a word. -/
theorem isRing_ring (ht : 1 ≤ t) (hk : 3 ≤ n - 2 * t) (hfits : FitsWord (n * n)) :
    IsRing (ring n t).picture n t := by
  -- What the drawing computes from the size and the thickness does not wrap.
  have hword : FitsWord n := by
    have hsquare : n * 1 ≤ n * n := Int.mul_le_mul_of_nonneg_left (by omega) (by omega)
    simp only [FitsWord] at hfits ⊢
    omega
  have hisland : wrap64 (n - wrap64 (2 * t)) = n - 2 * t := by
    have htwo : wrap64 (2 * t) = 2 * t := by
      refine wrap64_eq_self ?_
      simp only [FitsWord] at hword ⊢
      omega
    rw [htwo]
    refine wrap64_eq_self ?_
    simp only [FitsWord] at hword ⊢
    omega
  let drawn : Picture :=
    ⟨n, n, fun x y => decide (min (min x y) (min (n - 1 - x) (n - 1 - y)) < t)
      || (decide (3 ≤ wrap64 (n - wrap64 (2 * t))) && x == n / 2 && y == n / 2)⟩
  have hshows : (ring n t).Shows drawn :=
    Raster.shows_ofInk (p := drawn) (by show 0 ≤ n; omega) (by show 0 ≤ n; omega) hfits
  refine ⟨ht, hk, hshows.width, hshows.height, fun b => ?_⟩
  have hink : (ring n t).picture.inkAt b = drawn.inkAt b := Raster.isInk_picture (hshows.get_eq b.x b.y)
  have hcontains : drawn.Contains b.x b.y ↔ 0 ≤ b.x ∧ 0 ≤ b.y ∧ b.x < n ∧ b.y < n := Iff.rfl
  obtain ⟨x, y⟩ := b
  rw [hink, mem_frame, center, Picture.inkAt, Picture.isInk, Bool.and_eq_true, decide_eq_true_eq,
    hcontains]
  simp only [drawn, hisland, Bool.and_eq_true, Bool.or_eq_true, decide_eq_true_eq, beq_iff_eq,
    min_lt_iff, Point.mk.injEq]
  omega

/-- Rings of every size have the parts they are drawn for. Finding blobs gives two components, the frame
and the island in the middle, and one hole, which is the gap between them. -/
theorem find_ring (ht : 1 ≤ t) (hk : 3 ≤ n - 2 * t) (hfits : FitsWord (n * n)) :
    let k := n - 2 * t
    ∃ res, Blob.find (ring n t).picture {} = .ok res ∧ res.components = 2 ∧
      res.contourList.map (fun c => (c.polarity, c.label, c.pixels, c.bounds)) =
        [(.outer, 1, n * n - k * k, ⟨0, 0, n - 1, n - 1⟩),
          (.outer, 2, 1, ⟨n / 2, n / 2, n / 2, n / 2⟩),
          (.hole, 1, k * k - 1, ⟨t, t, n - t - 1, n - t - 1⟩)] := by
  have h := isRing_ring ht hk hfits
  refine ⟨_, Blob.find_eq ?_ ?_ (by decide) (by decide), ?_, ?_⟩
  · rw [h.width]
    omega
  · rw [h.height]
    omega
  · rw [Picture.blobs_eq_firsts (Int.le_refl 1), h.firsts_ink]
    rfl
  · rw [Blob.contourList_nonempty?]
    exact h.contours_eq {} rfl rfl

/-- A thick ring of even size, in which the island is off the middle. -/
theorem find_ring_thick :
    (1 ≤ (2 : Int) ∧ 3 ≤ (8 : Int) - 2 * 2 ∧ FitsWord (8 * 8)) ∧
    ∃ res, Blob.find (ring 8 2).picture {} = .ok res ∧ res.components = 2 ∧
      res.contourList.map (fun c => (c.polarity, c.label, c.pixels, c.bounds)) =
        [(.outer, 1, 48, ⟨0, 0, 7, 7⟩), (.outer, 2, 1, ⟨4, 4, 4, 4⟩), (.hole, 1, 15, ⟨2, 2, 5, 5⟩)] :=
  ⟨by decide, find_ring (n := 8) (t := 2) (by decide) (by decide) (by decide)⟩

end Shape

end Perimeter
