import Mathlib.Data.List.Induction
import Perimeter.Proofs.Raster.Safety

/-!
# Writing single pixels

What a buffer holds is counted in pixels: whole bytes of a layout with one byte a pixel, single bits of
one with eight. Writing a pixel puts its value in its own place and leaves all others as they were,
also the bits of other pixels in the same byte, which may belong to another row, and the padding
between the rows. Distinct pixels have distinct places, so each pixel is read as it was last written.
-/

namespace Perimeter

/-- The bits that a complement has are those that the byte lacks. -/
theorem testBit_complement (b : UInt8) {j : Nat} (hj : j < 8) :
    (~~~b).toNat.testBit j = !b.toNat.testBit j := by
  change (~~~b).toBitVec.getLsbD j = !b.toBitVec.getLsbD j
  rw [UInt8.toBitVec_not, BitVec.getLsbD_not, decide_eq_true hj, Bool.true_and]

namespace Raster

variable {r : Raster} {x y u v : Int} {on : Bool} {i : Nat}

/-! ## Places -/

/-- The value at a place of a buffer, counted in pixels: a byte of a layout with one byte a pixel, a
bit of one with eight. -/
def Layout.unit (l : Layout) (buffer : Array UInt8) (i : Nat) : Option Nat :=
  match l with
  | .bits => buffer[i / 8]?.map fun b => (b.toNat.testBit (i % 8)).toNat
  | _ => buffer[i]?.map UInt8.toNat

/-- A value counts as ink. -/
def Layout.reads (l : Layout) (n : Nat) : Bool :=
  match l with
  | .threshold level => decide (level.toNat < n)
  | _ => n != 0

/-- Reading a place is reading the value there. -/
theorem Layout.stored_eq_unit (l : Layout) (buffer : Array UInt8) (i : Nat) :
    l.stored buffer i = (l.unit buffer i).map l.reads := by
  cases l with
  | bytes =>
    have hzero : ∀ b : UInt8, (b != 0) = (b.toNat != 0) := fun b => by
      rw [Bool.eq_iff_iff, bne_iff_ne, bne_iff_ne, ne_eq, ne_eq, ← UInt8.toNat_inj]
      rfl
    simp [stored, unit, reads, Function.comp_def, hzero]
  | threshold level => simp [stored, unit, reads, Function.comp_def, UInt8.lt_iff_toNat_lt]
  | bits => simp [stored, unit, reads, Function.comp_def]

/-- In the layouts that are written, what is written as ink is read as ink. -/
theorem reads_toNat (hwritable : r.isReadOnly = false) (on : Bool) : r.layout.reads on.toNat = on := by
  cases hlayout : r.layout with
  | threshold level => simp [isReadOnly, hlayout] at hwritable
  | bytes => cases on <;> rfl
  | bits => cases on <;> rfl

/-- Writing a pixel changes one bit of its byte. -/
theorem Layout.testBit_write (b : UInt8) {j : Nat} (hj : j < 8) :
    (Layout.bits.write i b on).toNat.testBit j = if i % 8 = j then on else b.toNat.testBit j := by
  have hbit := testBit_bitMask (Nat.mod_lt i (by decide : 0 < 8)) hj
  have hmod : ((i : Int) % 8).toNat = i % 8 := by omega
  cases on with
  | true =>
    have hwrite : Layout.bits.write i b true = b ||| bitMask (i % 8) := by
      simp only [write, hmod, if_true, bitMask]
    rw [hwrite, UInt8.toNat_or, Nat.testBit_or, hbit]
    by_cases heq : i % 8 = j <;> simp [heq]
  | false =>
    have hwrite : Layout.bits.write i b false = b &&& ~~~bitMask (i % 8) := by
      simp only [write, hmod, Bool.false_eq_true, if_false, bitMask]
    rw [hwrite, UInt8.toNat_and, Nat.testBit_and, testBit_complement _ hj, hbit]
    by_cases heq : i % 8 = j <;> simp [heq]

/-- A layout with one byte a pixel writes the whole byte. -/
theorem map_toNat_setIfInBounds {buffer : Array UInt8} (hlt : i < buffer.size) (on : Bool) (k : Nat) :
    (buffer.setIfInBounds i (if on then 1 else 0))[k]?.map UInt8.toNat =
      if k = i then some on.toNat else buffer[k]?.map UInt8.toNat := by
  rw [Array.getElem?_setIfInBounds]
  by_cases heq : i = k
  · rw [if_pos heq, if_pos hlt, if_pos heq.symm]
    cases on <;> rfl
  · rw [if_neg heq, if_neg (Ne.symm heq)]

/-- Writing the byte of a place puts the value there and leaves all other places as they were. -/
theorem Layout.unit_setIfInBounds (l : Layout) {buffer : Array UInt8} {b : UInt8} (k : Nat)
    (hbyte : buffer[(l.byteIndex i).toNat]? = some b) :
    l.unit (buffer.setIfInBounds (l.byteIndex i).toNat (l.write i b on)) k =
      if k = i then some on.toNat else l.unit buffer k := by
  have hlt := (Array.getElem?_eq_some_iff.1 hbyte).1
  cases l with
  | bytes => exact map_toNat_setIfInBounds hlt on k
  | threshold level => exact map_toNat_setIfInBounds hlt on k
  | bits =>
    have hindex : (Layout.bits.byteIndex i).toNat = i / 8 := by
      simp only [byteIndex]
      omega
    rw [hindex] at hbyte hlt ⊢
    simp only [unit, Array.getElem?_setIfInBounds, if_pos hlt]
    by_cases hsame : i / 8 = k / 8
    · -- The byte of the pixel, whose other bits stay.
      have hplace : i % 8 = k % 8 ↔ k = i := by omega
      rw [if_pos hsame, ← hsame, hbyte, Option.map_some, Option.map_some,
        testBit_write b (Nat.mod_lt k (by decide))]
      simp only [hplace]
      split <;> rfl
    · rw [if_neg hsame, if_neg fun h => hsame (by rw [h])]

/-- Rows that do not overlap give each pixel a place of its own. -/
theorem Covered.place_inj (h : r.Covered) (hin : r.Contains x y) (hin' : r.Contains u v)
    (heq : r.place x y = r.place u v) : x = u ∧ y = v := by
  have hsum : y * r.stride + x = v * r.stride + u := by
    rw [← h.place_eq hin, ← h.place_eq hin', heq]
  have hstride := h.stride
  have hcolumn : ∀ a b, 0 ≤ a → a < r.stride → (b * r.stride + a) % r.stride = a := by
    intro a b hpos hlt
    rw [Int.add_comm, Int.add_mul_emod_self_right, Int.emod_eq_of_lt hpos hlt]
  obtain ⟨hx, -, hxw, -⟩ := hin
  obtain ⟨hu, -, huw, -⟩ := hin'
  have hxu : x = u := by
    rw [← hcolumn x y hx (by omega), hsum, hcolumn u v hu (by omega)]
  have hrow : y * r.stride = v * r.stride := by omega
  exact ⟨hxu, Int.eq_of_mul_eq_mul_right (by omega) hrow⟩

/-- A pixel inside is what the value at its place is read as. -/
theorem Covered.get_eq_unit (h : r.Covered) (hin : r.Contains x y) :
    r.get x y = ((r.layout.unit r.buffer (r.place x y)).map r.layout.reads).elim
      (.error (.outsideBuffer (r.place x y))) .ok := by
  rw [← Layout.stored_eq_unit, Layout.stored_eq_map]
  simp only [get, if_pos hin, h.index_eq hin]
  cases r.byte? (r.layout.byteIndex (r.place x y)) <;> rfl

/-! ## One write -/

/-- Writing outside the image changes nothing. -/
theorem set_of_not_contains (hout : ¬r.Contains x y) (on : Bool) : r.set x y on = .ok r := by
  rw [set, if_neg hout]

/-- Writing a pixel puts its value at its place of the buffer and changes nothing else. -/
theorem Covered.exists_set_unit (h : r.Covered) (hin : r.Contains x y) (on : Bool) :
    ∃ buffer : Array UInt8, buffer.size = r.buffer.size ∧ r.set x y on = .ok { r with buffer } ∧
      ∀ i, r.layout.unit buffer i =
        if i = r.place x y then some on.toNat else r.layout.unit r.buffer i := by
  have hholds : r.Holds (r.place x y) := h.index_eq hin ▸ h.holds_index hin
  obtain ⟨b, hbyte⟩ := (exists_byte?_iff _).2 hholds
  have hindex : 0 ≤ r.layout.byteIndex (r.place x y) := by
    by_contra hneg
    rw [byte?, if_neg hneg] at hbyte
    cases hbyte
  have hset : r.set x y on = .ok
      { r with
        buffer := r.buffer.setIfInBounds (r.layout.byteIndex (r.place x y)).toNat
          (r.layout.write (r.place x y) b on) } := by
    simp only [set, if_pos hin, h.index_eq hin, hbyte]
  rw [byte?, if_pos hindex] at hbyte
  exact ⟨_, Array.size_setIfInBounds, hset, fun i => r.layout.unit_setIfInBounds i hbyte⟩

/-- The pixel is read as `on`, and nothing else was changed: neither what is read of other pixels, nor
the buffer at other places, nor the geometry. -/
structure ChangesOnly (r r' : Raster) (x y : Int) (on : Bool) : Prop where
  frame : r' = { r with buffer := r'.buffer }
  size : r'.buffer.size = r.buffer.size
  get_eq : r'.get x y = .ok on
  get_of_ne : ∀ u v, (u, v) ≠ (x, y) → r'.get u v = r.get u v
  unit_of_ne : ∀ i, i ≠ r.place x y → r.layout.unit r'.buffer i = r.layout.unit r.buffer i

theorem Covered.exists_changesOnly (h : r.Covered) (hwritable : r.isReadOnly = false)
    (hin : r.Contains x y) (on : Bool) : ∃ r', r.set x y on = .ok r' ∧ r.ChangesOnly r' x y on := by
  obtain ⟨buffer, hsize, hset, hunit⟩ := h.exists_set_unit hin on
  have hcovered : Covered { r with buffer } := h.of_size_eq hsize
  have hplace : ∀ u v, place { r with buffer } u v = r.place u v := fun _ _ => rfl
  refine ⟨_, hset, rfl, hsize, ?_, fun u v hne => ?_, fun i hne => ?_⟩
  · rw [hcovered.get_eq_unit hin, hplace, hunit, if_pos rfl, Option.map_some,
      reads_toNat hwritable, Option.elim_some]
  · by_cases hin' : r.Contains u v
    · have hplaces : r.place u v ≠ r.place x y := fun heq => hne <| by
        obtain ⟨rfl, rfl⟩ := h.place_inj hin' hin heq
        rfl
      rw [hcovered.get_eq_unit hin', h.get_eq_unit hin', hplace, hunit, if_neg hplaces]
    · have hout : ¬Contains { r with buffer } u v := hin'
      rw [get, get, if_neg hin', if_neg hout]
  · rw [hunit, if_neg hne]

/-! ## Any number of writes -/

/-- The rows do not overlap and lie inside the buffer, and a word counts the pixels that it holds. -/
structure Roomy (r : Raster) : Prop where
  stride : r.width ≤ r.stride
  capacity : r.span ≤ r.layout.capacity r.buffer
  words : FitsWord (r.layout.capacity r.buffer)

instance : Decidable r.Roomy :=
  decidable_of_iff (r.width ≤ r.stride ∧ r.span ≤ r.layout.capacity r.buffer ∧
    FitsWord (r.layout.capacity r.buffer))
    ⟨fun ⟨hs, hc, hw⟩ => ⟨hs, hc, hw⟩, fun ⟨hs, hc, hw⟩ => ⟨hs, hc, hw⟩⟩

/-- An image with a pixel has rows that take up some of the buffer. -/
theorem Roomy.covered (h : r.Roomy) (hin : r.Contains x y) : r.Covered := by
  obtain ⟨hstride, hcapacity, hwords⟩ := h
  obtain ⟨hx, hy, hxw, hyh⟩ := hin
  have hrows : 0 ≤ (r.height - 1) * r.stride := Int.mul_nonneg (by omega) (by omega)
  refine ⟨hstride, hcapacity, ?_⟩
  simp only [FitsWord, span] at hwords hcapacity ⊢
  omega

/-- The last value that was written to a pixel, if any was. -/
def lastWrite (writes : List (Point × Bool)) (q : Point) : Option Bool :=
  (writes.reverse.find? fun w => w.1 == q).map (·.2)

theorem lastWrite_concat (writes : List (Point × Bool)) (w : Point × Bool) (q : Point) :
    lastWrite (writes ++ [w]) q = if w.1 = q then some w.2 else lastWrite writes q := by
  rw [lastWrite, List.reverse_append, List.reverse_singleton, List.singleton_append, List.find?_cons]
  by_cases heq : w.1 = q
  · rw [beq_iff_eq.2 heq, if_pos heq, Option.map_some]
  · rw [beq_eq_false_iff_ne.2 heq, if_neg heq, lastWrite]

/-- After some writes each pixel is read as it was last written, and as before if it was not; the
padding is what it was. -/
structure Remembers (r r' : Raster) (writes : List (Point × Bool)) : Prop where
  frame : r' = { r with buffer := r'.buffer }
  size : r'.buffer.size = r.buffer.size
  get_eq : ∀ q : Point, r.Contains q.x q.y →
    r'.get q.x q.y = (lastWrite writes q).elim (r.get q.x q.y) .ok
  padding : ∀ i, (∀ x y, r.Contains x y → r.place x y ≠ i) →
    r.layout.unit r'.buffer i = r.layout.unit r.buffer i

theorem Roomy.exists_remembers (h : r.Roomy) (hwritable : r.isReadOnly = false)
    (writes : List (Point × Bool)) : ∃ r', r.setAll writes = .ok r' ∧ r.Remembers r' writes := by
  induction writes using List.reverseRecOn with
  | nil => exact ⟨r, rfl, rfl, rfl, fun _ _ => rfl, fun _ _ => rfl⟩
  | append_singleton writes w ih =>
    obtain ⟨next, hall, hnext⟩ := ih
    obtain ⟨buffer, rfl⟩ : ∃ buffer, next = { r with buffer } := ⟨_, hnext.frame⟩
    have hrun : r.setAll (writes ++ [w]) = set { r with buffer } w.1.x w.1.y w.2 := by
      rw [setAll, List.foldlM_append, ← setAll, hall]
      exact bind_pure (set { r with buffer } w.1.x w.1.y w.2)
    by_cases hin : r.Contains w.1.x w.1.y
    · obtain ⟨r', hset, hchanges⟩ := ((h.covered hin).of_size_eq hnext.size).exists_changesOnly
        hwritable hin w.2
      refine ⟨r', hrun.trans hset, hchanges.frame, hchanges.size.trans hnext.size, fun q hq => ?_,
        fun i hi => ?_⟩
      · rw [lastWrite_concat]
        split
        next heq => exact heq ▸ hchanges.get_eq
        next hne =>
          have hpixel : (q.x, q.y) ≠ (w.1.x, w.1.y) := fun heq =>
            hne (by rw [Point.mk.injEq, ← Prod.mk.injEq, heq])
          rw [hchanges.get_of_ne _ _ hpixel, hnext.get_eq q hq]
      · exact (hchanges.unit_of_ne i (hi _ _ hin).symm).trans (hnext.padding i hi)
    · have hskip := set_of_not_contains (r := { r with buffer }) hin w.2
      refine ⟨_, hrun.trans hskip, rfl, hnext.size, fun q hq => ?_, hnext.padding⟩
      have hne : w.1 ≠ q := fun heq => hin (heq ▸ hq)
      rw [lastWrite_concat, if_neg hne, hnext.get_eq q hq]

/-- Writing a pixel touches that pixel only. In the layouts that are written, a pixel inside is read as
written, every other pixel and every other byte or bit of the buffer stays, and a pixel outside is
ignored; so after any number of writes each pixel is read as it was last written. -/
theorem set_touches_one_pixel (h : r.Roomy) (hwritable : r.isReadOnly = false) :
    (∀ x y on, r.Contains x y → ∃ r', r.set x y on = .ok r' ∧ r.ChangesOnly r' x y on) ∧
      (∀ x y on, ¬r.Contains x y → r.set x y on = .ok r) ∧
      ∀ writes, ∃ r', r.setAll writes = .ok r' ∧ r.Remembers r' writes :=
  ⟨fun _ _ on hin => (h.covered hin).exists_changesOnly hwritable hin on,
    fun _ _ on hout => set_of_not_contains hout on, h.exists_remembers hwritable⟩

/-- Bits of two rows in one byte, next to padding: the first two rows of this image end at the bits 3
and 8. -/
theorem set_touches_one_pixel_shared :
    let r : Raster := ⟨.bits, #[181, 14], 5, 4, 3⟩
    let writes := [(⟨3, 1⟩, true), (⟨0, 1⟩, false), (⟨3, 1⟩, false), (⟨4, 1⟩, true)]
    r.Roomy ∧ r.isReadOnly = false ∧
      (r.Contains 3 0 ∧ ∃ r', r.set 3 0 true = .ok r' ∧ r.ChangesOnly r' 3 0 true) ∧
      (¬r.Contains 4 0 ∧ r.set 4 0 true = .ok r) ∧
      ∃ r', r.setAll writes = .ok r' ∧ r.Remembers r' writes := by
  intro r writes
  have hroomy : r.Roomy := by decide
  have hin : r.Contains 3 0 := by decide
  have hout : ¬r.Contains 4 0 := by decide
  obtain ⟨hset, hskip, hall⟩ := set_touches_one_pixel hroomy rfl
  exact ⟨hroomy, rfl, ⟨hin, hset 3 0 true hin⟩, ⟨hout, hskip 4 0 true hout⟩, hall writes⟩

end Raster

end Perimeter
