import Perimeter.Proofs.Raster.Storage

/-!
# Staying inside the buffer

A buffer that covers the rows of a raster has the place of every pixel, and it still has after any number
of writes. The check that a raster passes lets just these buffers through as long as the number of pixels
that the rows take up is a machine word. Beyond that the number wraps, the check compares the buffer with
something else, and some pixel lies outside.
-/

namespace Perimeter.Raster

variable {r r' : Raster} {l : Layout} {buffer : Array UInt8} {width height stride : Int} {x y : Int}

/-- The buffer has the pixel at an index. -/
def Holds (r : Raster) (i : Int) : Prop := 0 ≤ i ∧ i < r.layout.capacity r.buffer

/-- Reading, writing and counting pixels stay inside the buffer. -/
structure Safe (r : Raster) : Prop where
  get : ∀ x y, ∃ on, r.get x y = .ok on
  set : ∀ x y on, ∃ r', r.set x y on = .ok r'
  count : r.layout = .bytes → ∃ n, r.count = .ok n

/-- Writes pixels one after the other. -/
def setAll (r : Raster) (writes : List (Point × Bool)) : Except Misuse Raster :=
  writes.foldlM (fun r w => r.set w.1.x w.1.y w.2) r

/-! ## Single pixels -/

theorem Layout.capacity_nonneg (l : Layout) (buffer : Array UInt8) : 0 ≤ l.capacity buffer := by
  cases l <;> simp only [capacity] <;> omega

theorem exists_byte?_iff (i : Int) : (∃ b, r.byte? (r.layout.byteIndex i) = some b) ↔ r.Holds i := by
  have hbyte : ∀ k, (∃ b, r.byte? k = some b) ↔ 0 ≤ k ∧ k < r.buffer.size := by
    intro k
    rw [← Option.isSome_iff_exists, byte?]
    by_cases hk : 0 ≤ k
    · rw [if_pos hk, isSome_getElem?]
      omega
    · simp [hk]
  rw [hbyte, Holds]
  cases r.layout with
  | bytes => rfl
  | threshold _ => rfl
  | bits =>
    simp only [Layout.byteIndex, Layout.capacity]
    omega

theorem exists_get_iff : (∃ on, r.get x y = .ok on) ↔ (r.Contains x y → r.Holds (r.index x y)) := by
  rw [get, ← exists_byte?_iff]
  by_cases hin : r.Contains x y
  · cases hbyte : r.byte? (r.layout.byteIndex (r.index x y)) <;> simp [hin, hbyte]
  · simp [hin]

theorem exists_set_iff {on : Bool} :
    (∃ r', r.set x y on = .ok r') ↔ (r.Contains x y → r.Holds (r.index x y)) := by
  rw [set, ← exists_byte?_iff]
  by_cases hin : r.Contains x y
  · cases hbyte : r.byte? (r.layout.byteIndex (r.index x y)) <;> simp [hin, hbyte]
  · simp [hin]

/-- A write changes bytes of the buffer and nothing else. -/
theorem exists_buffer_of_set {on : Bool} (hset : r.set x y on = .ok r') :
    ∃ buffer : Array UInt8, buffer.size = r.buffer.size ∧ r' = { r with buffer } := by
  simp only [set] at hset
  split at hset
  · split at hset
    · exact ⟨_, Array.size_setIfInBounds, (Except.ok.inj hset).symm⟩
    · cases hset
  · exact ⟨r.buffer, rfl, (Except.ok.inj hset).symm⟩

/-! ## Buffers that cover the rows -/

theorem Covered.holds_index (h : r.Covered) (hin : r.Contains x y) : r.Holds (r.index x y) := by
  rw [h.index_eq hin]
  exact ⟨Int.natCast_nonneg _, Int.lt_of_lt_of_le (h.place_lt hin) h.capacity⟩

/-- Only the size of the buffer counts. -/
theorem Covered.of_size_eq (h : r.Covered) (hsize : buffer.size = r.buffer.size) :
    Covered { r with buffer } := by
  obtain ⟨hstride, hcapacity, hwords⟩ := h
  refine ⟨hstride, ?_, hwords⟩
  cases hlayout : r.layout <;> simpa [hlayout, Layout.capacity, span, hsize] using hcapacity

theorem Covered.exists_set (h : r.Covered) (x y : Int) (on : Bool) :
    ∃ r', r.set x y on = .ok r' ∧ r'.Covered ∧ r'.width = r.width := by
  obtain ⟨r', hset⟩ : ∃ r', r.set x y on = .ok r' := exists_set_iff.2 h.holds_index
  obtain ⟨buffer, hsize, rfl⟩ := exists_buffer_of_set hset
  exact ⟨_, hset, h.of_size_eq hsize, rfl⟩

/-- Writing goes on to the end. -/
theorem Covered.exists_setAll (h : r.Covered) (writes : List (Point × Bool)) :
    ∃ r', r.setAll writes = .ok r' ∧ r'.Covered ∧ r'.width = r.width := by
  induction writes generalizing r with
  | nil => exact ⟨r, rfl, h, rfl⟩
  | cons w writes ih =>
    obtain ⟨next, hset, hcovered, hwidth⟩ := h.exists_set w.1.x w.1.y w.2
    obtain ⟨r', hall, hcovered', hwidth'⟩ := ih hcovered
    refine ⟨r', ?_, hcovered', hwidth'.trans hwidth⟩
    rw [setAll, List.foldlM_cons, hset]
    exact hall

/-- A row of bytes lies inside the buffer, with its end. -/
theorem Covered.row (h : r.Covered) (hw : 1 ≤ r.width) (hbytes : r.layout = .bytes) {y : Nat}
    (hy : y < r.height) :
    0 ≤ r.index 0 y ∧ r.index 0 y ≤ r.index r.width y ∧ r.index r.width y ≤ r.buffer.size := by
  have hfirst : r.Contains 0 y := ⟨Int.le_refl 0, Int.natCast_nonneg y, by omega, hy⟩
  have hlast : r.Contains (r.width - 1) y := ⟨by omega, Int.natCast_nonneg y, by omega, hy⟩
  have hplace := h.place_eq hfirst
  have hplace' := h.place_eq hlast
  have hlt := h.place_lt hlast
  have hcapacity := h.capacity
  have hwords := h.words
  simp only [hbytes, Layout.capacity] at hcapacity
  -- The end of the row is the place behind its last pixel.
  have hend : r.index r.width y = y * r.stride + r.width :=
    wrap64_eq_self (by simp only [FitsWord] at hwords ⊢; omega)
  rw [hend, h.index_eq hfirst]
  omega

theorem Covered.exists_count (h : r.Covered) (hw : 1 ≤ r.width) (hbytes : r.layout = .bytes) :
    ∃ n, r.count = .ok n := by
  have hgo : ∀ n y total, (y + n : Nat) ≤ r.height.toNat → ∃ m, count.go r n y total = .ok m := by
    intro n
    induction n with
    | zero => exact fun _ total _ => ⟨total, rfl⟩
    | succ n ih =>
      intro y total hn
      obtain ⟨hfirst, hle, hlast⟩ := h.row hw hbytes (y := y) (by omega)
      rw [count.go, if_neg (by omega)]
      exact ih _ _ (by omega)
  exact hgo _ 0 0 (by omega)

theorem Covered.safe (h : r.Covered) (hw : 1 ≤ r.width) : r.Safe where
  get _ _ := exists_get_iff.2 h.holds_index
  set _ _ _ := exists_set_iff.2 h.holds_index
  count := h.exists_count hw

/-! ## The check of a layout -/

theorem checkLayout_eq_ok {size : Int} :
    checkLayout l size width height stride = .ok () ↔
      1 ≤ width ∧ 1 ≤ height ∧ width ≤ stride ∧ wrap64 ((height - 1) * stride + width) ≤ size := by
  rw [checkLayout]
  split
  · simp only [reduceCtorEq, false_iff]
    omega
  · split
    · simp only [reduceCtorEq, false_iff]
      omega
    · dsimp only
      split <;> simp <;> omega

theorem ofBuffer_eq_ok :
    ofBuffer l buffer width height stride = .ok r ↔
      (1 ≤ width ∧ 1 ≤ height ∧ width ≤ stride ∧
        wrap64 ((height - 1) * stride + width) ≤ l.capacity buffer) ∧
      r = ⟨l, buffer, stride, width, height⟩ := by
  rw [← checkLayout_eq_ok (l := l), ofBuffer]
  cases checkLayout l (l.capacity buffer) width height stride <;>
    simp [bind, Except.bind, pure, Except.pure, eq_comm]

/-- Some pixel lies a row or less behind any number of pixels that the rows exceed. -/
theorem exists_beyond (hw : 1 ≤ r.width) (hh : 1 ≤ r.height) (hstride : r.width ≤ r.stride) {c : Int}
    (hc : 0 ≤ c) (hspan : c < r.span) :
    ∃ x y, r.Contains x y ∧ c ≤ y * r.stride + x ∧ y * r.stride + x < c + r.stride := by
  have hdiv := Int.mul_ediv_add_emod (c + r.stride - 1) r.stride
  have hmod := Int.emod_nonneg (c + r.stride - 1) (show r.stride ≠ 0 by omega)
  have hmod' := Int.emod_lt_of_pos (c + r.stride - 1) (show 0 < r.stride by omega)
  have hrow : 0 ≤ (c + r.stride - 1) / r.stride := Int.ediv_nonneg (by omega) (by omega)
  rw [Int.mul_comm] at hdiv
  by_cases hlast : (c + r.stride - 1) / r.stride < r.height
  · -- The first pixel of the first row that starts there or later.
    exact ⟨0, (c + r.stride - 1) / r.stride, ⟨by omega, hrow, by omega, hlast⟩, by omega, by omega⟩
  · -- No row does, so it is a pixel of the last row.
    have hrows : r.height * r.stride ≤ (c + r.stride - 1) / r.stride * r.stride :=
      Int.mul_le_mul_of_nonneg_right (by omega) (by omega)
    rw [span, Int.sub_mul, Int.one_mul] at hspan
    refine ⟨c - (r.height - 1) * r.stride, r.height - 1, ⟨?_, by omega, ?_, by omega⟩, by omega,
      by omega⟩ <;>
      rw [Int.sub_mul, Int.one_mul] <;> omega

/-- An index behind the buffer stays outside when it wraps. -/
theorem not_holds_wrap64 {i : Int} (hle : r.layout.capacity r.buffer ≤ i) (hlt : i < wordModulus) :
    ¬r.Holds (wrap64 i) := by
  rw [Holds, wrap64]
  split
  · omega
  · have hfits : ¬FitsWord i := ‹_›
    have hpos := r.layout.capacity_nonneg r.buffer
    simp only [FitsWord, wordModulus, Int.bmod] at hfits hlt ⊢
    omega

/-- Where the rows take up more pixels than a word counts, no buffer has them all. -/
theorem exists_not_holds (hw : 1 ≤ r.width) (hh : 1 ≤ r.height) (hstride : r.width ≤ r.stride)
    (hword : FitsWord r.stride) (hbuffer : FitsWord (r.layout.capacity r.buffer))
    (hspan : ¬FitsWord r.span) : ∃ x y, r.Contains x y ∧ ¬r.Holds (r.index x y) := by
  have hrows : 0 ≤ (r.height - 1) * r.stride := Int.mul_nonneg (by omega) (by omega)
  have hpos : 0 ≤ r.span := by
    rw [span]
    omega
  simp only [FitsWord] at hword hbuffer hspan
  obtain ⟨x, y, hin, hle, hnear⟩ :=
    exists_beyond hw hh hstride (r.layout.capacity_nonneg r.buffer) (by omega)
  exact ⟨x, y, hin, not_holds_wrap64 hle (by simp only [wordModulus]; omega)⟩

/-- A raster that passed the check is read, written and counted inside its buffer, whatever was written
before, exactly if the number of pixels that its rows take up is a word. -/
theorem ofBuffer_safe_iff (hok : ofBuffer l buffer width height stride = .ok r)
    (hstride : FitsWord stride) (hbuffer : FitsWord (l.capacity buffer)) :
    (∀ writes, ∃ r', r.setAll writes = .ok r' ∧ r'.Safe) ↔ FitsWord ((height - 1) * stride + width) := by
  obtain ⟨⟨hw, hh, hle, hneeded⟩, rfl⟩ := ofBuffer_eq_ok.1 hok
  constructor
  · intro hsafe
    by_contra hspan
    obtain ⟨x, y, hin, hout⟩ := exists_not_holds (r := ⟨l, buffer, stride, width, height⟩) hw hh hle
      hstride hbuffer hspan
    obtain ⟨r', hnone, hget, -, -⟩ := hsafe []
    cases hnone
    exact hout (exists_get_iff.1 (hget x y) hin)
  · intro hspan writes
    rw [wrap64_eq_self hspan] at hneeded
    have hcovered : Covered ⟨l, buffer, stride, width, height⟩ := ⟨hle, hneeded, hspan⟩
    obtain ⟨r', hall, hcovered', hwidth⟩ := hcovered.exists_setAll writes
    exact ⟨r', hall, hcovered'.safe (hwidth ▸ hw)⟩

/-- Rows of bits whose stride is not a whole number of bytes. -/
theorem ofBuffer_safe_iff_padded :
    let r : Raster := ⟨.bits, #[253, 245], 9, 3, 2⟩
    ofBuffer .bits #[253, 245] 3 2 9 = .ok r ∧ FitsWord 9 ∧ FitsWord (Layout.bits.capacity #[253, 245]) ∧
      ∃ r', r.setAll [(⟨2, 1⟩, false), (⟨-1, 5⟩, true), (⟨0, 0⟩, true)] = .ok r' ∧ r'.Safe := by
  intro r
  have hok : ofBuffer .bits #[253, 245] 3 2 9 = .ok r := rfl
  exact ⟨hok, by decide, by decide, (ofBuffer_safe_iff hok (by decide) (by decide)).2 (by decide) _⟩

/-- Five rows of one pixel, so far apart that they take up one pixel more than a word counts, pass the
check of a buffer of one byte, and the second row lies outside. -/
theorem ofBuffer_wraps :
    ∃ r, ofBuffer .bytes #[1] 1 5 4611686018427387904 = .ok r ∧ r.Contains 0 1 ∧
      r.get 0 1 = .error (.outsideBuffer 4611686018427387904) ∧
      r.set 0 1 true = .error (.outsideBuffer 4611686018427387904) ∧
      r.count = .error (.outsideBuffer 4611686018427387905) :=
  ⟨_, rfl, by decide, rfl, rfl, by decide⟩

end Perimeter.Raster
