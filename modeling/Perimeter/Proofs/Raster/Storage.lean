import Mathlib.Algebra.Order.Ring.Int
import Perimeter.Proofs.Picture
import Perimeter.Raster.Basic

/-!
# What a buffer holds

A layout reads a buffer as a row of pixels, one a byte or eight a byte. As long as the buffer covers the
rows of a raster, the place of every pixel is exact and lies inside, and reading the pixel is reading
the buffer at that place.
-/

namespace Perimeter

/-! ## Bits of a byte -/

/-- The byte with a single bit set. -/
def bitMask (i : Nat) : UInt8 := 1 <<< UInt8.ofNat i

theorem testBit_bitMask {i j : Nat} (hi : i < 8) (hj : j < 8) :
    (bitMask i).toNat.testBit j = decide (i = j) := by
  have hall : ∀ i j : Fin 8, (bitMask i.val).toNat.testBit j.val = decide (i.val = j.val) := by decide
  exact hall ⟨i, hi⟩ ⟨j, hj⟩

/-- Two bytes with the same eight bits are the same. -/
theorem byte_ext {b c : UInt8} (h : ∀ j < 8, b.toNat.testBit j = c.toNat.testBit j) : b = c :=
  UInt8.eq_iff_toBitVec_eq.2 (BitVec.eq_of_getLsbD_eq h)

namespace Raster

variable {r : Raster} {x y : Int}

/-- The pixel at a place of a buffer, counted in pixels. -/
def Layout.stored (l : Layout) (buffer : Array UInt8) (i : Nat) : Option Bool :=
  match l with
  | .bytes => buffer[i]?.map fun b => b != 0
  | .threshold level => buffer[i]?.map fun b => decide (level < b)
  | .bits => buffer[i / 8]?.map fun b => b.toNat.testBit (i % 8)

/-- Reading a place is reading its byte. -/
theorem Layout.stored_eq_map (l : Layout) (i : Nat) :
    l.stored r.buffer i = (r.byte? (l.byteIndex i)).map (l.inkIn i) := by
  have hbyte : ∀ k : Nat, r.byte? k = r.buffer[k]? := fun k => if_pos (Int.natCast_nonneg k)
  cases l with
  | bytes => exact congrArg (Option.map _) (hbyte i).symm
  | threshold level => exact congrArg (Option.map _) (hbyte i).symm
  | bits => exact congrArg (Option.map _) (hbyte (i / 8)).symm

/-- The number of pixels of the buffer that the rows take up. -/
def span (r : Raster) : Int := (r.height - 1) * r.stride + r.width

/-- Rows without padding take up as many pixels as there are. -/
theorem span_eq_mul (h : r.stride = r.width) : r.span = r.width * r.height := by
  rw [span, h, Int.sub_mul, Int.one_mul, Int.sub_add_cancel, Int.mul_comm]

/-- The rows do not overlap and lie inside the buffer, at places that are machine words. -/
structure Covered (r : Raster) : Prop where
  stride : r.width ≤ r.stride
  capacity : r.span ≤ r.layout.capacity r.buffer
  words : FitsWord r.span

instance : Decidable r.Covered :=
  decidable_of_iff (r.width ≤ r.stride ∧ r.span ≤ r.layout.capacity r.buffer ∧ FitsWord r.span)
    ⟨fun ⟨hs, hc, hw⟩ => ⟨hs, hc, hw⟩, fun ⟨hs, hc, hw⟩ => ⟨hs, hc, hw⟩⟩

/-- The place of a pixel, counted exactly. -/
def place (r : Raster) (x y : Int) : Nat := (y * r.stride + x).toNat

theorem Covered.place_eq (h : r.Covered) (hin : r.Contains x y) :
    (r.place x y : Int) = y * r.stride + x := by
  obtain ⟨hx, hy, hw, -⟩ := hin
  have hrow : 0 ≤ y * r.stride := Int.mul_nonneg hy (by have := h.stride; omega)
  rw [place, Int.toNat_of_nonneg (by omega)]

theorem Covered.place_lt (h : r.Covered) (hin : r.Contains x y) : (r.place x y : Int) < r.span := by
  obtain ⟨hx, hy, hw, hh⟩ := id hin
  have hstride := h.stride
  have hrows : y * r.stride ≤ (r.height - 1) * r.stride :=
    Int.mul_le_mul_of_nonneg_right (by omega) (by omega)
  rw [h.place_eq hin, span]
  omega

theorem Covered.index_eq (h : r.Covered) (hin : r.Contains x y) : r.index x y = r.place x y := by
  have hlt := h.place_lt hin
  have hwords := h.words
  rw [index, ← h.place_eq hin]
  refine wrap64_eq_self ?_
  simp only [FitsWord] at hwords ⊢
  omega

/-- A pixel inside is read from its place. -/
theorem Covered.get_eq (h : r.Covered) (hin : r.Contains x y) {ink : Bool}
    (hstored : r.layout.stored r.buffer (r.place x y) = some ink) : r.get x y = .ok ink := by
  rw [Layout.stored_eq_map, Option.map_eq_some_iff] at hstored
  obtain ⟨b, hbyte, hink⟩ := hstored
  simp only [get, if_pos hin, h.index_eq hin, hbyte, hink]

/-- Rows without padding are covered too. -/
theorem Covered.fits (h : r.Covered) (hw : 0 ≤ r.width) (hh : 1 ≤ r.height) :
    FitsWord (r.width * r.height) := by
  have hwords := h.words
  have hrows : (r.height - 1) * r.width ≤ (r.height - 1) * r.stride :=
    Int.mul_le_mul_of_nonneg_left h.stride (by omega)
  have hpos : 0 ≤ r.width * r.height := Int.mul_nonneg hw (by omega)
  rw [Int.sub_mul, Int.one_mul, Int.mul_comm] at hrows
  simp only [span, FitsWord] at hwords ⊢
  omega

/-- The picture of a raster has the ink that is read from it. -/
theorem isInk_picture {ink : Bool} (h : r.get x y = .ok ink) : r.picture.isInk x y = ink := by
  by_cases hin : r.Contains x y
  · have hin' : r.picture.Contains x y := hin
    have hpicture : r.picture.ink x y = ink := by simp only [picture, h]
    rw [Picture.isInk, decide_eq_true hin', Bool.true_and, hpicture]
  · rw [get, if_neg hin, Except.ok.injEq] at h
    rw [← h]
    exact Picture.isInk_eq_false_of_not_contains hin

/-- A raster whose buffer covers its rows passes the check of its layout. -/
theorem Covered.ofBuffer_eq (h : r.Covered) (hw : 1 ≤ r.width) (hh : 1 ≤ r.height) :
    ofBuffer r.layout r.buffer r.width r.height r.stride = .ok r := by
  obtain ⟨hstride, hcapacity, hwords⟩ := h
  have hcheck : checkLayout r.layout (r.layout.capacity r.buffer) r.width r.height r.stride =
      .ok () := by
    rw [checkLayout, if_neg (by omega), if_neg (by omega)]
    exact if_neg (by rw [← span, wrap64_eq_self hwords]; omega)
  rw [ofBuffer, hcheck]
  rfl

end Raster

end Perimeter
