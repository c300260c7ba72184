import Perimeter.Blob.Find
import Perimeter.Proofs.Raster.Storage

/-!
# Layouts of one picture

A raster shows a picture if its buffer covers the rows and holds, at the place of every pixel, a value
that its layout reads as the picture has it. The other places are padding and hold anything. Packing
sets the ink pixels one after the other in a buffer of zeros; it gives another raster of the same
picture. All of them are read alike, so nothing that looks at a picture can tell them apart.
-/

namespace Perimeter.Raster

variable {p : Picture} {r r' : Raster}

/-! ## Packing -/

/-- Setting bits one after the other sets just those that were asked for. -/
theorem testBit_foldl_or (f : Nat → Bool) {l : List Nat} (hl : ∀ i ∈ l, i < 8) (b : UInt8) {j : Nat}
    (hj : j < 8) :
    (l.foldl (fun acc i => if f i then acc ||| bitMask i else acc) b).toNat.testBit j =
      (b.toNat.testBit j || (decide (j ∈ l) && f j)) := by
  induction l generalizing b with
  | nil => simp
  | cons i l ih =>
    have hbit := testBit_bitMask (hl i List.mem_cons_self) hj
    rw [List.foldl_cons, ih fun i hi => hl i (List.mem_cons_of_mem _ hi)]
    rcases eq_or_ne i j with rfl | hne
    · cases hf : f i <;> simp [hbit]
    · cases hf : f i <;> simp [hbit, hne, hne.symm]

/-- A packed byte has the bits of those of its eight pixels that are ink and among the first `m`. -/
theorem testBit_packedByte (w m k : Nat) {j : Nat} (hj : j < 8) :
    (packedByte p w m k).toNat.testBit j =
      (decide (8 * k + j < m) && p.isInk ((8 * k + j) % w : Nat) ((8 * k + j) / w : Nat)) := by
  have hfold := testBit_foldl_or
    (fun i => decide (8 * k + i < m) && p.isInk ((8 * k + i) % w : Nat) ((8 * k + i) / w : Nat))
    (fun _ hi => List.mem_range.1 hi) 0 hj
  exact hfold.trans (by simp [hj])

/-- A bit raster whose buffer holds the first `m` pixels of a picture, and zeros from there on. -/
def packedTo (p : Picture) (m : Nat) : Raster :=
  ⟨.bits, Array.ofFn fun (k : Fin ((p.size + 7) / 8)) => packedByte p p.width.toNat m k.val, p.width,
    p.width, p.height⟩

/-- Packs a picture pixel by pixel: sets those that are ink in a buffer of zeros. -/
def packLoop (p : Picture) : Except Misuse Raster :=
  p.pixels.foldlM (fun r a => if p.inkAt a then r.set a.x a.y true else .ok r)
    ⟨.bits, Array.replicate ((p.size + 7) / 8) 0, p.width, p.width, p.height⟩

/-- The byte that holds a pixel. -/
theorem packedTo_byte? (m : Nat) {k : Nat} (hk : k < p.size) :
    (packedTo p m).byte? (Layout.bits.byteIndex k) =
      some (packedByte p p.width.toNat m (k / 8)) := by
  have hindex : Layout.bits.byteIndex k = (k / 8 : Nat) := by simp [Layout.byteIndex]
  have hlt : k / 8 < (p.size + 7) / 8 := by omega
  rw [hindex, byte?, if_pos (Int.natCast_nonneg _), Int.toNat_natCast]
  simp [packedTo, hlt]

/-- Nothing is packed yet in a buffer of zeros. -/
theorem packedTo_zero (p : Picture) :
    packedTo p 0 =
      ⟨.bits, Array.replicate ((p.size + 7) / 8) 0, p.width, p.width, p.height⟩ := by
  have hbyte : ∀ k, packedByte p p.width.toNat 0 k = 0 := by
    intro k
    refine byte_ext fun j hj => ?_
    rw [testBit_packedByte _ _ _ hj]
    simp
  simp only [packedTo, hbyte, mk.injEq, true_and, and_true]
  exact Array.ext (by simp) (by simp)

/-- One more pixel changes one bit, and that only if it is ink. -/
theorem packedByte_succ (m k : Nat) :
    packedByte p p.width.toNat (m + 1) k =
      if k = m / 8 ∧ p.inkAt (p.pixel m) = true then
        packedByte p p.width.toNat m k ||| bitMask (m % 8)
      else packedByte p p.width.toNat m k := by
  refine byte_ext fun j hj => ?_
  rcases eq_or_ne (8 * k + j) m with rfl | hne
  · have hk : k = (8 * k + j) / 8 := by omega
    have hmod : (8 * k + j) % 8 = j := by omega
    simp only [← hk, hmod, true_and]
    have hink : p.inkAt (p.pixel (8 * k + j)) =
        p.isInk ((8 * k + j) % p.width.toNat : Nat) ((8 * k + j) / p.width.toNat : Nat) := rfl
    rw [testBit_packedByte _ _ _ hj, ← hink]
    split
    next h => simp [h, testBit_bitMask hj hj]
    next h => simp [h, testBit_packedByte _ _ _ hj]
  · have hlt : decide (8 * k + j < m + 1) = decide (8 * k + j < m) := by
      rw [decide_eq_decide]
      omega
    rw [testBit_packedByte _ _ _ hj, hlt, ← testBit_packedByte _ _ _ hj]
    split
    next h =>
      have hbit : m % 8 ≠ j := by omega
      simp [testBit_bitMask (Nat.mod_lt m (by decide)) hj, hbit]
    next => rfl

/-- A packed raster has no padding between its rows. -/
theorem covered_packedTo (hw : 0 ≤ p.width) (hh : 0 ≤ p.height) (hfits : FitsWord (p.width * p.height))
    (m : Nat) : (packedTo p m).Covered := by
  have hspan : (packedTo p m).span = p.width * p.height := span_eq_mul rfl
  have hsize : (p.size : Int) = p.width * p.height := by
    rw [Picture.size, Int.natCast_mul, Int.toNat_of_nonneg hw, Int.toNat_of_nonneg hh]
  refine ⟨Int.le_refl _, ?_, hspan ▸ hfits⟩
  rw [hspan, ← hsize]
  simp only [packedTo, Layout.capacity, Array.size_ofFn]
  omega

/-- The place of a pixel in a packed raster is its number. -/
theorem place_packedTo (hw : 0 ≤ p.width) (m k : Nat) :
    (packedTo p m).place (p.pixel k).x (p.pixel k).y = k := by
  have hnumber := p.number_pixel k
  rw [Picture.number, Int.toNat_of_nonneg hw] at hnumber
  exact hnumber

/-- Setting the next pixel packs it, and leaves what was packed as it was. -/
theorem set_packedTo (hw : 0 ≤ p.width) (hh : 0 ≤ p.height) (hfits : FitsWord (p.width * p.height))
    {m : Nat} (hm : m < p.size) (hink : p.inkAt (p.pixel m) = true) :
    (packedTo p m).set (p.pixel m).x (p.pixel m).y true = .ok (packedTo p (m + 1)) := by
  have hin : (packedTo p m).Contains (p.pixel m).x (p.pixel m).y := Picture.contains_pixel hm
  have hindex := (covered_packedTo hw hh hfits m).index_eq hin
  rw [place_packedTo hw] at hindex
  have hlayout : (packedTo p m).layout = .bits := rfl
  have hbyte : (Layout.bits.byteIndex m).toNat = m / 8 := by
    simp only [Layout.byteIndex]
    omega
  have hbit : ((m : Int) % 8).toNat = m % 8 := by omega
  simp only [set, if_pos hin, hindex, hlayout, packedTo_byte? m hm, Layout.write, if_true, hbyte, hbit]
  simp only [packedTo, Except.ok.injEq, mk.injEq, true_and, and_true]
  refine Array.ext (by simp) fun k hbefore hafter => ?_
  have hk' : k < (p.size + 7) / 8 := by simpa using hafter
  rw [Array.getElem_setIfInBounds (by simpa using hk'), Array.getElem_ofFn, Array.getElem_ofFn,
    packedByte_succ]
  rcases eq_or_ne (m / 8) k with rfl | hne
  · rw [if_pos rfl, if_pos ⟨rfl, hink⟩]
    rfl
  · rw [if_neg hne, if_neg fun h => hne h.1.symm]

/-- A background pixel is packed as it is. -/
theorem packedTo_succ_of_not_ink {m : Nat} (hink : ¬p.inkAt (p.pixel m) = true) :
    packedTo p (m + 1) = packedTo p m := by
  have hbyte : ∀ k, packedByte p p.width.toNat (m + 1) k = packedByte p p.width.toNat m k :=
    fun k => by rw [packedByte_succ, if_neg fun h => hink h.2]
  simp only [packedTo, hbyte]

/-- Packing pixel by pixel gives the packed raster, and no pixel on the way is outside the buffer. -/
theorem packLoop_eq (hw : 0 ≤ p.width) (hh : 0 ≤ p.height) (hfits : FitsWord (p.width * p.height)) :
    packLoop p = .ok (packBits p) := by
  have hrun : ∀ m ≤ p.size, (List.range m).foldlM (fun r k =>
      if p.inkAt (p.pixel k) then r.set (p.pixel k).x (p.pixel k).y true else .ok r) (packedTo p 0) =
        .ok (packedTo p m) := by
    intro m hm
    induction m with
    | zero => rfl
    | succ m ih =>
      rw [List.range_succ, List.foldlM_append, ih (by omega)]
      by_cases hink : p.inkAt (p.pixel m) = true
      · have hset := set_packedTo hw hh hfits (by omega) hink
        simp [bind, Except.bind, pure, Except.pure, hink, hset]
      · simp [bind, Except.bind, pure, Except.pure, hink, packedTo_succ_of_not_ink hink]
  rw [packLoop, ← packedTo_zero, Picture.pixels_eq, List.foldlM_map]
  exact hrun p.size (Nat.le_refl _)

/-! ## Rasters that show a picture -/

/-- The raster has the size of the picture, its buffer covers the rows, and the place of every pixel
holds what the picture has there. Nothing is said of the other places. -/
structure Shows (r : Raster) (p : Picture) : Prop where
  width : r.width = p.width
  height : r.height = p.height
  covered : r.Covered
  stored : ∀ a ∈ p.pixels, r.layout.stored r.buffer (r.place a.x a.y) = some (p.inkAt a)

instance (r : Raster) (p : Picture) : Decidable (r.Shows p) :=
  decidable_of_iff (r.width = p.width ∧ r.height = p.height ∧ r.Covered ∧
    ∀ a ∈ p.pixels, r.layout.stored r.buffer (r.place a.x a.y) = some (p.inkAt a))
    ⟨fun ⟨hw, hh, hc, hs⟩ => ⟨hw, hh, hc, hs⟩, fun ⟨hw, hh, hc, hs⟩ => ⟨hw, hh, hc, hs⟩⟩

/-- Every pixel is read as the picture has it, and every pixel outside as background. -/
theorem Shows.get_eq (h : r.Shows p) (x y : Int) : r.get x y = .ok (p.isInk x y) := by
  have hcontains : r.Contains x y ↔ p.Contains x y := by
    rw [Contains, Picture.Contains, h.width, h.height]
  by_cases hin : p.Contains x y
  · exact h.covered.get_eq (hcontains.2 hin)
      (h.stored ⟨x, y⟩ (Picture.mem_pixels.2 hin))
  · rw [get, if_neg (mt hcontains.1 hin), Picture.isInk_eq_false_of_not_contains hin]

/-- A walk sees the picture. -/
theorem Shows.picture_eq (h : r.Shows p) : r.picture = ⟨p.width, p.height, p.isInk⟩ := by
  simp only [picture, h.get_eq, h.width, h.height]

theorem Shows.fits (h : r.Shows p) (hw : 0 ≤ p.width) (hh : 1 ≤ p.height) :
    FitsWord (p.width * p.height) := by
  have hfits := h.covered.fits
  rw [h.width, h.height] at hfits
  exact hfits hw hh

/-- The packed raster of a picture shows it. -/
theorem shows_packBits (hw : 0 ≤ p.width) (hh : 0 ≤ p.height) (hfits : FitsWord (p.width * p.height)) :
    (packBits p).Shows p := by
  refine ⟨rfl, rfl, covered_packedTo hw hh hfits p.size, fun a ha => ?_⟩
  rw [Picture.pixels_eq, List.mem_map] at ha
  obtain ⟨k, hk, rfl⟩ := ha
  have hk := List.mem_range.1 hk
  have hplace := place_packedTo hw p.size k
  have hdiv : 8 * (k / 8) + k % 8 = k := Nat.div_add_mod k 8
  have hbit := testBit_packedByte (p := p) p.width.toNat p.size (k / 8)
    (Nat.mod_lt k (by decide : 0 < 8))
  rw [hdiv] at hbit
  change Layout.bits.stored (packedTo p p.size).buffer ((packedTo p p.size).place _ _) = _
  rw [hplace, Layout.stored_eq_map, packedTo_byte? p.size hk, Option.map_some, Layout.inkIn]
  have hmod : ((k : Int) % 8).toNat = k % 8 := by omega
  rw [hmod, hbit, decide_eq_true hk, Bool.true_and]
  rfl

/-- The raster that is drawn of a picture shows it. -/
theorem shows_ofInk (hw : 0 ≤ p.width) (hh : 0 ≤ p.height) (hfits : FitsWord (p.width * p.height)) :
    (ofInk p.width p.height p.ink).Shows p := by
  have hwidth : (ofInk p.width p.height p.ink).width = p.width := Int.toNat_of_nonneg hw
  have hheight : (ofInk p.width p.height p.ink).height = p.height := Int.toNat_of_nonneg hh
  have hspan : (ofInk p.width p.height p.ink).span = p.width * p.height := by
    rw [span_eq_mul rfl, hwidth, hheight]
  have hcapacity : Layout.bytes.capacity (ofInk p.width p.height p.ink).buffer =
      p.width * p.height := by
    simp only [ofInk, Layout.capacity, Array.size_ofFn, Int.natCast_mul, Int.toNat_of_nonneg hw,
      Int.toNat_of_nonneg hh]
  refine ⟨hwidth, hheight, ⟨Int.le_refl _, ?_, hspan ▸ hfits⟩, fun a ha => ?_⟩
  · rw [hspan, ← hcapacity]
    exact Int.le_refl _
  · rw [Picture.pixels_eq, List.mem_map] at ha
    obtain ⟨k, hk, rfl⟩ := ha
    have hlt : k < p.size := List.mem_range.1 hk
    have hplace : (ofInk p.width p.height p.ink).place (p.pixel k).x (p.pixel k).y = k :=
      p.number_pixel k
    have hbyte : (ofInk p.width p.height p.ink).buffer[k]? =
        some (if p.ink (p.pixel k).x (p.pixel k).y then 1 else 0) :=
      Array.getElem?_ofFn.trans (dif_pos hlt)
    have hink : p.inkAt (p.pixel k) = p.ink (p.pixel k).x (p.pixel k).y := by
      rw [Picture.inkAt, Picture.isInk, decide_eq_true (Picture.contains_pixel hlt), Bool.true_and]
    rw [hplace, hink]
    change Option.map (fun b => b != 0) (ofInk p.width p.height p.ink).buffer[k]? = _
    rw [hbyte]
    cases p.ink (p.pixel k).x (p.pixel k).y <;> rfl

/-- Packing a raster gives the packed raster of the picture that it shows. -/
theorem Shows.packBits_eq (h : r.Shows p) : packBits r.picture = packBits p := by
  rw [h.picture_eq]
  have hink : ∀ x y, (⟨p.width, p.height, p.isInk⟩ : Picture).isInk x y = p.isInk x y :=
    fun x y => Bool.and_self_left (decide (p.Contains x y)) (p.ink x y)
  simp only [packBits, packedByte, hink]

/-- A raster of a picture, or one packed from such a raster. -/
inductive Represents (p : Picture) : Raster → Prop where
  | stored {r : Raster} (h : r.Shows p) : Represents p r
  | packed {r : Raster} (h : Represents p r) : Represents p (packBits r.picture)

theorem Represents.shows (h : Represents p r) (hw : 0 ≤ p.width) (hh : 1 ≤ p.height) : r.Shows p := by
  induction h with
  | stored h => exact h
  | packed _ ih => exact ih.packBits_eq ▸ shows_packBits hw (by omega) (ih.fits hw hh)

/-- The raster has the size of the picture, passes the check of its layout, is read everywhere as the
picture has it, and packing it pixel by pixel gives its packed raster. -/
structure Faithful (r : Raster) (p : Picture) : Prop where
  width : r.width = p.width
  height : r.height = p.height
  checked : ofBuffer r.layout r.buffer r.width r.height r.stride = .ok r
  get_eq : ∀ x y, r.get x y = .ok (p.isInk x y)
  packed : packLoop r.picture = .ok (packBits r.picture)

theorem Represents.faithful (h : Represents p r) (hw : 1 ≤ p.width) (hh : 1 ≤ p.height) :
    r.Faithful p := by
  have hshows := h.shows (by omega) hh
  have hpicture := hshows.picture_eq
  refine ⟨hshows.width, hshows.height, hshows.covered.ofBuffer_eq ?_ ?_, hshows.get_eq, ?_⟩
  · exact hshows.width ▸ hw
  · exact hshows.height ▸ hh
  · rw [hpicture]
    exact packLoop_eq (by show 0 ≤ p.width; omega) (by show 0 ≤ p.height; omega)
      (hshows.fits (by omega) hh)

/-- The layouts are interchangeable. Two rasters of one picture, whatever their layouts, strides and
padding and however often they were packed, are read alike at all coordinates, and resolving a seed,
tracing, walking in chunks and finding blobs answer alike on both. -/
theorem represents_interchangeable (hw : 1 ≤ p.width) (hh : 1 ≤ p.height) (h : Represents p r)
    (h' : Represents p r') :
    r.Faithful p ∧ r'.Faithful p ∧ (∀ x y, r.get x y = r'.get x y) ∧
      (∀ s o, Seed.resolve r.picture o s = Seed.resolve r'.picture o s) ∧
      (∀ s opts, Trace.run r.picture s opts = Trace.run r'.picture s opts) ∧
      (∀ s opts, Tracer.create r.picture s opts = Tracer.create r'.picture s opts) ∧
      (∀ (t : Tracer) maxEdges, t.next r.picture maxEdges = t.next r'.picture maxEdges) ∧
      ∀ cfg, Blob.find r.picture cfg = Blob.find r'.picture cfg := by
  have hread := h.faithful hw hh
  have hread' := h'.faithful hw hh
  have hpicture : r.picture = r'.picture :=
    (h.shows (by omega) hh).picture_eq.trans (h'.shows (by omega) hh).picture_eq.symm
  refine ⟨hread, hread', fun x y => (hread.get_eq x y).trans (hread'.get_eq x y).symm, ?_⟩
  rw [hpicture]
  exact ⟨fun _ _ => rfl, fun _ _ => rfl, fun _ _ => rfl, fun _ _ => rfl, fun _ => rfl⟩

/-- A checkered picture behind a threshold, and in bits with ink in the padding that were packed. -/
theorem represents_interchangeable_checkered :
    let p : Picture := ⟨3, 2, fun x y => (x + y) % 2 == 0⟩
    let r : Raster := ⟨.threshold 10, #[11, 10, 200, 255, 0, 11, 3], 4, 3, 2⟩
    let padded : Raster := ⟨.bits, #[253, 245], 9, 3, 2⟩
    1 ≤ p.width ∧ 1 ≤ p.height ∧ r.Shows p ∧ padded.Shows p ∧
      (∀ x y, r.get x y = (packBits padded.picture).get x y) ∧
      ∀ cfg, Blob.find r.picture cfg = Blob.find (packBits padded.picture).picture cfg := by
  intro p r padded
  have hr : r.Shows p := by decide
  have hpadded : padded.Shows p := by decide
  obtain ⟨-, -, hget, -, -, -, -, hfind⟩ :=
    represents_interchangeable (p := p) (by decide) (by decide) (.stored hr) (.packed (.stored hpadded))
  exact ⟨by decide, by decide, hr, hpadded, hget, hfind⟩

end Perimeter.Raster
