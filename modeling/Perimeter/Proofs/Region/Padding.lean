import Mathlib.Data.List.Sort
import Perimeter.Proofs.Geometry.Translation
import Perimeter.Proofs.Region.Record

/-!
# Pictures with margins

Margins of background around a picture move its ink and change nothing else in the plane. So whatever
stays inside the image as a part of the plane is moved as it is: the components of ink, and the
background regions that do not come to the border. A background region that does leaves the image on
one side and goes on without end, so margins do not enclose it.
-/

namespace Perimeter

/-- The numbers of background columns and rows that are put around a picture. -/
structure Margins where
  left : Nat
  top : Nat
  right : Nat
  bottom : Nat
deriving DecidableEq, Repr

/-- Where a pixel is behind the margins. -/
abbrev Margins.place (m : Margins) (a : Point) : Point := a.shift m.left m.top

/-- The picture with margins of background. -/
def Picture.padded (p : Picture) (m : Margins) : Picture where
  width := m.left + p.width + m.right
  height := m.top + p.height + m.bottom
  ink x y := p.isInk (x - m.left) (y - m.top)

/-! ## Lists of moved pixels -/

namespace Point

variable {a b : Point} {dx dy : Int}

theorem before_shift : (a.shift dx dy).Before (b.shift dx dy) ↔ a.Before b := by
  simp only [Before, shift_x, shift_y]
  omega

theorem above_shift (a : Point) (dx dy : Int) : (a.shift dx dy).above = a.above.shift dx dy := by
  simp only [above, shift, mk.injEq, true_and]
  omega

theorem touches_shift {corners : Bool} :
    (a.shift dx dy).Touches corners (b.shift dx dy) ↔ a.Touches corners b := by
  simp only [Touches, shift_x, shift_y, Int.add_sub_add_right]

/-- Lists in raster order are told apart by their members. -/
theorem eq_map_shift {l l' : List Point} (h : l.Pairwise Before) (h' : l'.Pairwise Before)
    (hmem : ∀ a, a.shift dx dy ∈ l' ↔ a ∈ l) : l' = l.map fun a => a.shift dx dy := by
  refine h'.eq_of_mem_iff (List.pairwise_map.2 (h.imp before_shift.2)) fun b => ?_
  rw [← shift_neg_shift b dx dy, hmem]
  exact (List.mem_map_of_injective (shift_injective dx dy)).symm

end Point

namespace Picture

variable {p : Picture} {m : Margins} {a b : Point}

theorem contains_padded (h : p.Contains a.x a.y) :
    (p.padded m).Contains (m.place a).x (m.place a).y := by
  obtain ⟨hx, hy, hw, hh⟩ := h
  simp only [Contains, padded, Point.shift_x, Point.shift_y]
  omega

/-- Everywhere in the plane margins move the picture. -/
theorem inkAt_padded (p : Picture) (m : Margins) (a : Point) :
    (p.padded m).inkAt (m.place a) = p.inkAt a := by
  have hback : (p.padded m).ink (m.place a).x (m.place a).y = p.inkAt a := by
    simp only [padded, inkAt, Point.shift_x, Point.shift_y, Int.add_sub_cancel]
  rw [inkAt, isInk, hback]
  by_cases hin : p.Contains a.x a.y
  · rw [decide_eq_true (contains_padded hin), Bool.true_and]
  · rw [inkAt, isInk_eq_false_of_not_contains hin, Bool.and_false]

/-! ## Connection in the plane -/

theorem adjoins_padded : (p.padded m).Adjoins (m.place a) (m.place b) ↔ p.Adjoins a b := by
  constructor
  · rintro ⟨hcolour, htouches⟩
    rw [inkAt_padded, inkAt_padded] at hcolour
    rw [inkAt_padded, Point.touches_shift] at htouches
    exact ⟨hcolour, htouches⟩
  · rintro ⟨hcolour, htouches⟩
    refine ⟨?_, ?_⟩
    · rw [inkAt_padded, inkAt_padded, hcolour]
    · rw [inkAt_padded, Point.touches_shift]
      exact htouches

theorem connected_padded : (p.padded m).Connected (m.place a) (m.place b) ↔ p.Connected a b := by
  constructor
  · intro h
    have hback : p.Connected ((m.place a).shift (-m.left) (-m.top))
        ((m.place b).shift (-m.left) (-m.top)) := by
      refine h.lift (fun c : Point => c.shift (-m.left) (-m.top)) fun c d hcd => ?_
      rw [← Point.shift_neg_shift c m.left m.top, ← Point.shift_neg_shift d m.left m.top] at hcd
      exact adjoins_padded.1 hcd
    rwa [Point.shift_shift_neg, Point.shift_shift_neg] at hback
  · exact fun h => h.lift m.place fun _ _ => adjoins_padded.2

/-- Everything in the plane that belongs together with the pixel lies inside the image. -/
def StaysInside (p : Picture) (a : Point) : Prop := ∀ b, p.Connected a b → p.Contains b.x b.y

theorem StaysInside.contains (h : p.StaysInside a) : p.Contains a.x a.y := h a .refl

theorem StaysInside.of_connected (h : p.StaysInside a) (hab : p.Connected a b) : p.StaysInside b :=
  fun c hbc => h c (hab.trans hbc)

/-- Components of ink stay inside. -/
theorem staysInside_of_inkAt (h : p.inkAt a = true) : p.StaysInside a :=
  fun _ hb => contains_of_inkAt ((Connected.inkAt_eq hb).trans h)

/-- Outside the image a straight way that never comes back to it is all background. -/
theorem connected_ray {u v : Int} (huv : u.natAbs + v.natAbs ≤ 1)
    (hout : ∀ n : Nat, ¬p.Contains (b.x + n * u) (b.y + n * v)) (n : Nat) :
    p.Connected b ⟨b.x + n * u, b.y + n * v⟩ := by
  have hink : ∀ n : Nat, p.inkAt ⟨b.x + n * u, b.y + n * v⟩ = false :=
    fun n => isInk_eq_false_of_not_contains (hout n)
  induction n with
  | zero =>
    have hzero : (⟨b.x + (0 : Nat) * u, b.y + (0 : Nat) * v⟩ : Point) = b := by simp
    rw [hzero]
    exact .refl
  | succ n ih =>
    refine ih.tail ⟨(hink (n + 1)).trans (hink n).symm, ?_⟩
    rw [hink n]
    simp only [Point.Touches, Bool.false_eq_true, if_false, Int.natCast_add, Int.natCast_one,
      Int.add_mul, Int.one_mul]
    omega

/-- From outside the image there is a way out of all margins. -/
theorem exists_outside_padded (m : Margins) (hb : ¬p.Contains b.x b.y) :
    ∃ c, p.Connected b c ∧ ¬(p.padded m).Contains (m.place c).x (m.place c).y := by
  have hside : b.x < 0 ∨ p.width ≤ b.x ∨ b.y < 0 ∨ p.height ≤ b.y := by
    simp only [Contains] at hb
    omega
  rcases hside with hside | hside | hside | hside
  · refine ⟨_, connected_ray (u := -1) (v := 0) (by decide) (fun n => ?_) m.left, ?_⟩ <;>
      simp only [Contains, padded, Point.shift_x, Point.shift_y] <;> omega
  · refine ⟨_, connected_ray (u := 1) (v := 0) (by decide) (fun n => ?_) m.right, ?_⟩ <;>
      simp only [Contains, padded, Point.shift_x, Point.shift_y] <;> omega
  · refine ⟨_, connected_ray (u := 0) (v := -1) (by decide) (fun n => ?_) m.top, ?_⟩ <;>
      simp only [Contains, padded, Point.shift_x, Point.shift_y] <;> omega
  · refine ⟨_, connected_ray (u := 0) (v := 1) (by decide) (fun n => ?_) m.bottom, ?_⟩ <;>
      simp only [Contains, padded, Point.shift_x, Point.shift_y] <;> omega

/-- Margins enclose nothing that was not enclosed. -/
theorem staysInside_padded : (p.padded m).StaysInside (m.place a) ↔ p.StaysInside a := by
  constructor
  · intro h b hb
    by_contra hout
    obtain ⟨c, hc, hfar⟩ := exists_outside_padded m hout
    exact hfar (h _ (connected_padded.2 (Relation.ReflTransGen.trans hb hc)))
  · intro h b hb
    rw [← Point.shift_neg_shift b m.left m.top] at hb ⊢
    exact contains_padded (h _ (connected_padded.1 hb))

/-! ## Regions -/

/-- What stays inside belongs together in the image as it does in the plane. -/
theorem StaysInside.joined_iff (h : p.StaysInside a) : p.Joined a b ↔ p.Connected a b := by
  refine ⟨Joined.connected, fun hab => ?_⟩
  induction hab with
  | refl => exact .refl
  | tail hab hl ih => exact ih.tail ⟨h _ hab, h _ (hab.tail hl), hl.colour, hl.touches⟩

theorem StaysInside.joined_padded (h : p.StaysInside a) (m : Margins) :
    (p.padded m).Joined (m.place a) (m.place b) ↔ p.Joined a b := by
  rw [(staysInside_padded.2 h).joined_iff, h.joined_iff, connected_padded]

/-- Every pixel of the plane is the place of one. -/
theorem forall_place {m : Margins} {q : Point → Prop} : (∀ b, q b) ↔ ∀ b, q (m.place b) := by
  refine ⟨fun h b => h _, fun h b => ?_⟩
  rw [← Point.shift_neg_shift b m.left m.top]
  exact h _

theorem StaysInside.isFirst_padded (h : p.StaysInside a) (m : Margins) :
    (p.padded m).IsFirst (m.place a) ↔ p.IsFirst a := by
  have hbefore : (∀ b, (p.padded m).Joined (m.place a) b → b = m.place a ∨ (m.place a).Before b) ↔
      ∀ b, p.Joined a b → b = a ∨ a.Before b := by
    rw [forall_place (m := m)]
    simp only [h.joined_padded m, (Point.shift_injective _ _).eq_iff, Point.before_shift]
  exact ⟨fun hfirst => ⟨h.contains, hbefore.1 hfirst.before⟩,
    fun hfirst => ⟨(staysInside_padded.2 h).contains, hbefore.2 hfirst.before⟩⟩

/-- The components of ink are moved, in the same order. -/
theorem firsts_padded (p : Picture) (m : Margins) :
    (p.padded m).firsts true = (p.firsts true).map m.place := by
  refine Point.eq_map_shift (p.pairwise_before_firsts true) ((p.padded m).pairwise_before_firsts true)
    fun a => ?_
  rw [mem_firsts, mem_firsts, inkAt_padded]
  exact and_congr_right fun hink => (staysInside_of_inkAt hink).isFirst_padded m

theorem StaysInside.region_padded (h : p.StaysInside a) (m : Margins) :
    (p.padded m).region (m.place a) = m.place '' p.region a := by
  ext b
  rw [← Point.shift_neg_shift b m.left m.top, (Point.shift_injective _ _).mem_set_image]
  exact h.joined_padded m

theorem StaysInside.ncard_region_padded (h : p.StaysInside a) (m : Margins) :
    ((p.padded m).region (m.place a)).ncard = (p.region a).ncard := by
  rw [h.region_padded m, Set.ncard_image_of_injective _ (Point.shift_injective _ _)]

theorem StaysInside.regionList_padded (h : p.StaysInside a) (m : Margins) :
    (p.padded m).regionList (m.place a) = (p.regionList a).map m.place := by
  refine Point.eq_map_shift (p.pairwise_before_pixels.sublist List.filter_sublist)
    ((p.padded m).pairwise_before_pixels.sublist List.filter_sublist) fun b => ?_
  rw [mem_regionList (staysInside_padded.2 h).contains, mem_regionList h.contains]
  exact h.joined_padded m

/-- The first pixel of a component is moved with it. -/
theorem firstOf_padded (m : Margins) (h : p.inkAt a = true) :
    (p.padded m).firstOf (m.place a) = m.place (p.firstOf a) := by
  have hinside := staysInside_of_inkAt h
  obtain ⟨hfirst, hjoined⟩ := firstOf_spec hinside.contains
  obtain ⟨hfirst', hjoined'⟩ := firstOf_spec (staysInside_padded (m := m).2 hinside).contains
  have hinside' := hinside.of_connected hjoined.symm.connected
  refine hfirst'.unique ((hinside'.isFirst_padded m).2 hfirst) (hjoined'.trans ?_)
  exact ((hinside'.joined_padded m).2 hjoined).symm

end Picture

/-! ## Records -/

namespace Region

variable {dx dy : Int}

/-- The second record is that of the same pixels moved by an offset. It may say something else about the
border of the image. -/
structure Moved (dx dy : Int) (r r' : Region) : Prop where
  count : r'.count = r.count
  minX : r'.minX = r.minX + dx
  minY : r'.minY = r.minY + dy
  maxX : r'.maxX = r.maxX + dx
  maxY : r'.maxY = r.maxY + dy

theorem Moved.add {r r' : Region} (h : Moved dx dy r r') (width height width' height' : Int)
    (q : Point) : Moved dx dy (r.add width height q) (r'.add width' height' (q.shift dx dy)) where
  count := congrArg (· + 1) h.count
  minX := by simp only [Region.add, h.minX, Point.shift_x]; omega
  minY := by simp only [Region.add, h.minY, Point.shift_y]; omega
  maxX := by simp only [Region.add, h.maxX, Point.shift_x]; omega
  maxY := by simp only [Region.add, h.maxY, Point.shift_y]; omega

theorem moved_ofList (width height width' height' : Int) (a : Point) (l : List Point) :
    Moved dx dy (ofList width height a l)
      (ofList width' height' (a.shift dx dy) (l.map fun q => q.shift dx dy)) := by
  induction l with
  | nil => exact ⟨rfl, rfl, rfl, rfl, rfl⟩
  | cons q l ih => exact ih.add width height width' height' q

end Region

theorem Picture.StaysInside.moved_record {p : Picture} {a : Point} (h : p.StaysInside a) (m : Margins) :
    Region.Moved m.left m.top (p.record a) ((p.padded m).record (m.place a)) := by
  rw [record, record, h.regionList_padded m]
  exact Region.moved_ofList _ _ _ _ _ _

end Perimeter
