import Mathlib.Order.Bounds.Basic
import Perimeter.Proofs.Region.Connected

/-!
# Records of regions

What a flood records of a region does not depend on the order in which it comes to the pixels: their
number, the rectangle that encloses them and whether one of them lies at the border of the image. So
a region has one record, which `Picture.record` reads off its pixels in raster order.
-/

namespace Perimeter

/-- The pixel lies in an outermost row or column of an image of this size. -/
def Point.OnBorder (width height : Int) (q : Point) : Prop :=
  q.x = 0 ∨ q.y = 0 ∨ q.x = width - 1 ∨ q.y = height - 1

namespace Region

variable {width height : Int} {a : Point} {l l' : List Point}

theorem add_add_comm (r : Region) (q q' : Point) :
    (r.add width height q).add width height q' = (r.add width height q').add width height q := by
  simp only [add, Region.mk.injEq, true_and]
  refine ⟨min_right_comm _ _ _, min_right_comm _ _ _, max_right_comm _ _ _, max_right_comm _ _ _, ?_⟩
  grind

/-- The record of the listed pixels, of which `a` is the first in raster order. -/
def ofList (width height : Int) (a : Point) (l : List Point) : Region :=
  l.foldr (fun q r => r.add width height q) (.startingAt a)

theorem ofList_cons (q : Point) :
    ofList width height a (q :: l) = (ofList width height a l).add width height q := rfl

theorem ofList_perm (h : l.Perm l') : ofList width height a l = ofList width height a l' :=
  h.foldr_eq' (fun q _ q' _ r => add_add_comm r q q') _

theorem count_ofList : (ofList width height a l).count = l.length := by
  induction l with
  | nil => rfl
  | cons q l ih =>
    rw [ofList_cons, add, ih]
    rfl

theorem first_ofList : (ofList width height a l).first = a := by
  induction l with
  | nil => rfl
  | cons q l ih =>
    rw [ofList_cons, add, ih]

theorem touchesBorder_ofList :
    (ofList width height a l).touchesBorder = true ↔ ∃ q ∈ l, q.OnBorder width height := by
  induction l with
  | nil => simp [ofList, startingAt]
  | cons q l ih =>
    simp only [ofList_cons, add, Bool.or_eq_true, beq_iff_eq, ih, Point.OnBorder]
    grind

/-- The pixels of a list with one more in front. -/
theorem image_mem_cons (f : Point → Int) (q : Point) :
    f '' {b | b ∈ a :: q :: l} = insert (f q) (f '' {b | b ∈ a :: l}) := by
  rw [← Set.image_insert_eq]
  congr 1
  ext b
  simp only [List.mem_cons, Set.mem_ofPred_eq, Set.mem_insert_iff]
  exact or_left_comm

theorem isLeast_foldr (f : Point → Int) :
    IsLeast (f '' {b | b ∈ a :: l}) (l.foldr (fun q m => min m (f q)) (f a)) := by
  induction l with
  | nil => simp [isLeast_singleton]
  | cons q l ih =>
    rw [image_mem_cons, List.foldr_cons, min_comm]
    exact ih.insert (f q)

theorem isGreatest_foldr (f : Point → Int) :
    IsGreatest (f '' {b | b ∈ a :: l}) (l.foldr (fun q m => max m (f q)) (f a)) := by
  induction l with
  | nil => simp [isGreatest_singleton]
  | cons q l ih =>
    rw [image_mem_cons, List.foldr_cons, max_comm]
    exact ih.insert (f q)

/-- The rectangle encloses the pixels, and no smaller one does. -/
structure Encloses (r : Region) (s : Set Point) : Prop where
  minX : IsLeast (Point.x '' s) r.minX
  minY : IsLeast (Point.y '' s) r.minY
  maxX : IsGreatest (Point.x '' s) r.maxX
  maxY : IsGreatest (Point.y '' s) r.maxY

/-- Each side of the rectangle is the least or greatest coordinate that was met. -/
theorem sides_ofList (width height : Int) (a : Point) (l : List Point) :
    (ofList width height a l).minX = l.foldr (fun q m => min m q.x) a.x ∧
    (ofList width height a l).minY = l.foldr (fun q m => min m q.y) a.y ∧
    (ofList width height a l).maxX = l.foldr (fun q m => max m q.x) a.x ∧
    (ofList width height a l).maxY = l.foldr (fun q m => max m q.y) a.y := by
  induction l with
  | nil => exact ⟨rfl, rfl, rfl, rfl⟩
  | cons q l ih =>
    obtain ⟨h₁, h₂, h₃, h₄⟩ := ih
    rw [ofList_cons]
    simp only [add, h₁, h₂, h₃, h₄, List.foldr_cons, and_self]

theorem encloses_ofList : (ofList width height a l).Encloses {b | b ∈ a :: l} := by
  obtain ⟨h₁, h₂, h₃, h₄⟩ := sides_ofList width height a l
  constructor
  · rw [h₁]
    exact isLeast_foldr Point.x
  · rw [h₂]
    exact isLeast_foldr Point.y
  · rw [h₃]
    exact isGreatest_foldr Point.x
  · rw [h₄]
    exact isGreatest_foldr Point.y

end Region

namespace Picture

variable {p : Picture} {a b : Point}

open Classical in
/-- The pixels of a region in raster order. -/
noncomputable def regionList (p : Picture) (a : Point) : List Point :=
  p.pixels.filter fun b => p.Joined a b

/-- What there is to record of the region of a pixel. -/
noncomputable def record (p : Picture) (a : Point) : Region :=
  .ofList p.width p.height a (p.regionList a)

theorem mem_regionList (ha : p.Contains a.x a.y) : b ∈ p.regionList a ↔ p.Joined a b := by
  simp only [regionList, List.mem_filter, decide_eq_true_eq, mem_pixels, and_iff_right_iff_imp]
  intro hjoined
  exact hjoined.contains ha

theorem nodup_regionList (p : Picture) (a : Point) : (p.regionList a).Nodup := by
  rw [regionList, pixels_eq]
  exact (List.nodup_range.map p.pixel_injective).filter _

theorem count_record (ha : p.Contains a.x a.y) : (p.record a).count = (p.region a).ncard := by
  have hset : p.region a = {b | b ∈ p.regionList a} := by
    ext b
    exact (mem_regionList ha).symm
  rw [record, Region.count_ofList, hset, ← List.toFinset_card_of_nodup (p.nodup_regionList a),
    ← Set.ncard_coe_finset, List.coe_toFinset]

/-- A region has at least the pixel that it is the region of. -/
theorem one_le_ncard_region (ha : p.Contains a.x a.y) : 1 ≤ (p.region a).ncard := by
  have hmem : a ∈ p.regionList a := (mem_regionList ha).2 .refl
  rw [← count_record ha, record, Region.count_ofList]
  exact List.length_pos_of_mem hmem

theorem first_record (p : Picture) (a : Point) : (p.record a).first = a := Region.first_ofList

theorem encloses_record (ha : p.Contains a.x a.y) : (p.record a).Encloses (p.region a) := by
  have hset : p.region a = {b | b ∈ a :: p.regionList a} := by
    ext b
    simp only [region, Set.mem_ofPred_eq, List.mem_cons, mem_regionList ha, iff_or_self]
    rintro rfl
    exact .refl
  rw [hset]
  exact Region.encloses_ofList

theorem touchesBorder_record (ha : p.Contains a.x a.y) :
    (p.record a).touchesBorder = true ↔ ∃ b ∈ p.region a, b.OnBorder p.width p.height := by
  rw [record, Region.touchesBorder_ofList]
  simp only [mem_regionList ha]
  rfl

end Picture

end Perimeter
