import Mathlib.Algebra.Order.Ring.Int
import Mathlib.Data.List.Pairwise
import Perimeter.Picture

/-!
# Facts about pictures

Sizes that fit a machine word, and the numbers of pixels: row by row, as in a buffer that holds one
entry for each pixel, so that the raster order of pixels is the order of their numbers.
-/

namespace Perimeter

/-- The pixel comes before another one in raster order. -/
def Point.Before (a b : Point) : Prop := a.y < b.y ∨ a.y = b.y ∧ a.x < b.x

/-- The pixel above. -/
def Point.above (a : Point) : Point := ⟨a.x, a.y - 1⟩

/-- Of two pixels one comes first. -/
theorem Point.before_trichotomy (a b : Point) : a.Before b ∨ a = b ∨ b.Before a := by
  obtain ⟨x, y⟩ := a
  obtain ⟨x', y'⟩ := b
  simp only [Before, mk.injEq]
  omega

theorem Point.Before.asymm {a b : Point} (h : a.Before b) : ¬b.Before a := by
  simp only [Before] at h ⊢
  omega

instance : Std.Irrefl Point.Before := ⟨fun _ h => h.asymm h⟩

instance : Std.Antisymm Point.Before := ⟨fun _ _ h h' => absurd h' h.asymm⟩

namespace Picture

variable {p : Picture} {a b : Point} {k : Nat}

/-- Ink lies inside the image. -/
theorem contains_of_inkAt {q : Point} (h : p.inkAt q = true) : p.Contains q.x q.y := by
  by_contra hc
  rw [inkAt, isInk_eq_false_of_not_contains hc] at h
  cases h

/-! ## Sizes -/

/-- The size of the picture fits a machine word, with room for its upper limit. -/
def Fits (p : Picture) : Prop := FitsWord (p.width * p.height + p.width + p.height)

instance : Decidable p.Fits := inferInstanceAs (Decidable (FitsWord _))

theorem Fits.upperLimit_eq (h : p.Fits) :
    upperLimit p.width p.height = p.width * p.height + p.width + p.height :=
  wrap64_eq_self h

theorem Fits.one_le_upperLimit (h : p.Fits) (hw : 0 < p.width) (hh : 0 < p.height) :
    1 ≤ upperLimit p.width p.height := by
  rw [h.upperLimit_eq]
  have hpos := mul_pos hw hh
  omega

/-- The number of pixels leaves room to be rounded up to a buffer size. A sum of the sides too small
for that comes with few pixels. -/
theorem Fits.fitsWord_pixels (h : p.Fits) (hw : 0 < p.width) (hh : 0 < p.height) :
    FitsWord (p.width * p.height + 1023) := by
  have hpos := mul_pos hw hh
  have hfit := h
  simp only [Fits, FitsWord] at hfit ⊢
  by_cases hsides : p.width + p.height < 1023
  · have hfew : p.width * p.height ≤ 1023 * 1023 :=
      mul_le_mul (by omega) (by omega) hh.le (by decide)
    omega
  · omega

/-- Width and height of the picture are machine words, whatever comes of their product. -/
def WordSized (p : Picture) : Prop := FitsWord p.width ∧ FitsWord p.height

instance : Decidable p.WordSized := inferInstanceAs (Decidable (_ ∧ _))

theorem Fits.wordSized (h : p.Fits) (hw : 0 < p.width) (hh : 0 < p.height) : p.WordSized := by
  have hpos := mul_pos hw hh
  have hfit := h
  simp only [Fits, WordSized, FitsWord] at hfit ⊢
  omega

/-! ## Pixel numbers -/

/-- The number of pixels. -/
def size (p : Picture) : Nat := p.width.toNat * p.height.toNat

/-- The pixel with a number. -/
def pixel (p : Picture) (k : Nat) : Point := ⟨(k % p.width.toNat : Nat), (k / p.width.toNat : Nat)⟩

/-- The number of a pixel. -/
def number (p : Picture) (a : Point) : Nat := (a.y * p.width.toNat + a.x).toNat

theorem number_lt (h : p.Contains a.x a.y) : p.number a < p.size := by
  obtain ⟨hx, hy, hw, hh⟩ := h
  obtain ⟨x, hxn⟩ := Int.eq_ofNat_of_zero_le hx
  obtain ⟨y, hyn⟩ := Int.eq_ofNat_of_zero_le hy
  rw [number, size, hxn, hyn]
  have hrow : (y + 1) * p.width.toNat ≤ p.height.toNat * p.width.toNat :=
    Nat.mul_le_mul_right _ (by omega)
  rw [Nat.add_mul, Nat.one_mul, Nat.mul_comm p.height.toNat] at hrow
  have hnum : ((y : Int) * p.width.toNat + x).toNat = y * p.width.toNat + x := by norm_cast
  rw [hnum]
  omega

theorem pixel_number (h : p.Contains a.x a.y) : p.pixel (p.number a) = a := by
  obtain ⟨hx, hy, hw, hh⟩ := h
  obtain ⟨x, y⟩ := a
  obtain ⟨x, rfl⟩ := Int.eq_ofNat_of_zero_le hx
  obtain ⟨y, rfl⟩ := Int.eq_ofNat_of_zero_le hy
  have hnum : p.number ⟨x, y⟩ = x + p.width.toNat * y := by
    rw [number, Nat.mul_comm, Nat.add_comm]
    norm_cast
  have hlt : x < p.width.toNat := by simp only at hw; omega
  rw [pixel, hnum, Nat.add_mul_mod_self_left, Nat.mod_eq_of_lt hlt,
    Nat.add_mul_div_left _ _ (by omega), Nat.div_eq_of_lt hlt, Nat.zero_add]

theorem contains_pixel (hk : k < p.size) : p.Contains (p.pixel k).x (p.pixel k).y := by
  have hw : 0 < p.width.toNat := by
    rcases Nat.eq_zero_or_pos p.width.toNat with hzero | hpos
    · rw [size, hzero, Nat.zero_mul] at hk
      omega
    · exact hpos
  have hmod := Nat.mod_lt k hw
  have hdiv : k / p.width.toNat < p.height.toNat := by
    rw [Nat.div_lt_iff_lt_mul hw, Nat.mul_comm]
    exact hk
  have hcol : (0 : Int) ≤ (k % p.width.toNat : Nat) := Int.natCast_nonneg _
  have hrow : (0 : Int) ≤ (k / p.width.toNat : Nat) := Int.natCast_nonneg _
  simp only [Contains, pixel]
  omega

theorem number_pixel (k : Nat) : p.number (p.pixel k) = k := by
  have hnum : p.number (p.pixel k) = k / p.width.toNat * p.width.toNat + k % p.width.toNat := by
    simp only [number, pixel]
    norm_cast
  rw [hnum, Nat.mul_comm, Nat.div_add_mod]

theorem pixel_injective (p : Picture) : Function.Injective p.pixel := by
  intro k j heq
  rw [← p.number_pixel k, heq, number_pixel]

theorem number_lt_of_before (ha : p.Contains a.x a.y) (hb : p.Contains b.x b.y) (h : a.Before b) :
    p.number a < p.number b := by
  obtain ⟨hx, hy, hw, -⟩ := ha
  obtain ⟨hx', hy', -, -⟩ := hb
  have hwidth : (p.width.toNat : Int) = p.width := Int.toNat_of_nonneg (by omega)
  rw [number, number, hwidth]
  rcases h with hrow | ⟨hrow, hcol⟩
  · have hrows : (a.y + 1) * p.width ≤ b.y * p.width :=
      Int.mul_le_mul_of_nonneg_right (by omega) (by omega)
    have hpos : 0 ≤ a.y * p.width := Int.mul_nonneg hy (by omega)
    rw [Int.add_mul, Int.one_mul] at hrows
    omega
  · have hpos : 0 ≤ a.y * p.width := Int.mul_nonneg hy (by omega)
    rw [← hrow]
    omega

/-- Numbers follow the raster. -/
theorem number_lt_number (ha : p.Contains a.x a.y) (hb : p.Contains b.x b.y) :
    p.number a < p.number b ↔ a.Before b := by
  refine ⟨fun hlt => ?_, number_lt_of_before ha hb⟩
  rcases a.before_trichotomy b with hbefore | rfl | hafter
  · exact hbefore
  · omega
  · have hgt := number_lt_of_before hb ha hafter
    omega

/-- Row by row the pixels come in the order of their numbers. -/
theorem pixels_eq (p : Picture) : p.pixels = (List.range p.size).map p.pixel := by
  have hrows : ∀ w n : Nat,
      ((List.range n).flatMap fun (y : Nat) =>
        (List.range w).map fun (x : Nat) => (⟨x, y⟩ : Point)) =
      (List.range (w * n)).map fun (k : Nat) => ⟨(k % w : Nat), (k / w : Nat)⟩ := by
    intro w n
    induction n with
    | zero => simp
    | succ n ih =>
      -- One more row takes up the next numbers, as many as there are columns.
      rw [List.range_succ, List.flatMap_append, ih, Nat.mul_succ, List.range_add, List.map_append,
        List.flatMap_singleton, List.map_map]
      congr 1
      refine List.map_congr_left fun x hx => ?_
      have hlt := List.mem_range.1 hx
      simp only [Function.comp_apply]
      rw [Nat.mul_add_mod, Nat.mod_eq_of_lt hlt, Nat.mul_add_div (by omega), Nat.div_eq_of_lt hlt,
        Nat.add_zero]
  exact hrows _ _

theorem mem_pixels : a ∈ p.pixels ↔ p.Contains a.x a.y := by
  rw [pixels_eq, List.mem_map]
  constructor
  · rintro ⟨k, hk, rfl⟩
    exact contains_pixel (List.mem_range.1 hk)
  · intro ha
    exact ⟨p.number a, List.mem_range.2 (number_lt ha), pixel_number ha⟩

theorem pairwise_before_pixels (p : Picture) : p.pixels.Pairwise Point.Before := by
  rw [pixels_eq, List.pairwise_map]
  refine List.pairwise_lt_range.imp_of_mem fun {i j} hi hj hlt => ?_
  rw [← number_lt_number (contains_pixel (List.mem_range.1 hi))
    (contains_pixel (List.mem_range.1 hj)), number_pixel, number_pixel]
  exact hlt

end Picture

end Perimeter
