import Perimeter.Proofs.Region.Flood

/-!
# Labels

The pixels are visited in raster order, and an unmarked pixel is the first of its region. So when
pixel number `k` is due, exactly the regions whose first pixel comes before it are marked, each with
its number among the regions of its colour, and their records are listed in that order.
-/

namespace Perimeter

namespace Picture

variable {p : Picture} {a b : Point} {ink withBackground : Bool} {k : Nat}

open Classical in
/-- The first pixels, among those with a number below `k`, of the regions of one colour that are
labelled at all. -/
noncomputable def firstsTo (p : Picture) (withBackground ink : Bool) (k : Nat) : List Point :=
  if ink || withBackground then
    ((List.range k).map p.pixel).filter fun a => p.inkAt a = ink ∧ p.IsFirst a
  else []

theorem firstsTo_zero (p : Picture) (withBackground ink : Bool) :
    p.firstsTo withBackground ink 0 = [] := by
  simp [firstsTo]

theorem firstsTo_size (p : Picture) {withBackground ink : Bool} (h : (ink || withBackground) = true) :
    p.firstsTo withBackground ink p.size = p.firsts ink := by
  rw [firstsTo, if_pos h, firsts, pixels_eq]

theorem mem_firstsTo :
    a ∈ p.firstsTo withBackground ink k ↔
      (ink || withBackground) = true ∧ (∃ i < k, p.pixel i = a) ∧ p.inkAt a = ink ∧ p.IsFirst a := by
  rw [firstsTo]
  split_ifs with h
  · simp [h]
  · simp [h]

/-- The next pixel starts a region. -/
theorem firstsTo_succ_of_isFirst (hfirst : p.IsFirst (p.pixel k))
    (h : (p.inkAt (p.pixel k) || withBackground) = true) :
    p.firstsTo withBackground (p.inkAt (p.pixel k)) (k + 1) =
      p.firstsTo withBackground (p.inkAt (p.pixel k)) k ++ [p.pixel k] := by
  rw [firstsTo, firstsTo, if_pos h, if_pos h, List.range_succ, List.map_append, List.filter_append]
  simp [hfirst]

/-- The next pixel starts no region of this colour that is labelled. -/
theorem firstsTo_succ_of_not
    (h : ¬((ink || withBackground) = true ∧ p.inkAt (p.pixel k) = ink ∧ p.IsFirst (p.pixel k))) :
    p.firstsTo withBackground ink (k + 1) = p.firstsTo withBackground ink k := by
  rw [firstsTo, firstsTo]
  split_ifs with hcovered
  · rw [List.range_succ, List.map_append, List.filter_append]
    have hnone : ¬(p.inkAt (p.pixel k) = ink ∧ p.IsFirst (p.pixel k)) := fun hf => h ⟨hcovered, hf⟩
    simp [hnone]
  · rfl

/-- The region of a first pixel that is due has not come up before. -/
theorem IsFirst.not_joined_of_mem_firstsTo (hfirst : p.IsFirst (p.pixel k)) (hb : p.Joined (p.pixel k) b)
    (ha : a ∈ p.firstsTo withBackground ink k) : ¬p.Joined a b := by
  intro hab
  obtain ⟨-, ⟨i, hi, rfl⟩, -, hafirst⟩ := mem_firstsTo.1 ha
  have heq := p.pixel_injective (hafirst.unique hfirst (hab.trans hb.symm))
  omega

end Picture

namespace Labeling

variable {p : Picture} {l : Labeling} {withBackground : Bool} {k : Nat}

/-- The label of the region number `i`, counted from 0, of one colour. -/
def code (ink : Bool) (i : Nat) : Int := if ink then i + 1 else -i - 1

theorem code_ne_zero (ink : Bool) (i : Nat) : code ink i ≠ 0 := by
  cases ink <;> simp only [code, if_true, Bool.false_eq_true, if_false] <;> omega

/-- The records of the regions of one colour. -/
def regions (l : Labeling) (ink : Bool) : Array Region := if ink then l.components else l.backgrounds

/-- The labels after one more region. -/
def grow (l : Labeling) (ink : Bool) (out : Array Int × Region) : Labeling where
  width := l.width
  height := l.height
  labels := out.1
  components := if ink then l.components.push out.2 else l.components
  backgrounds := if ink then l.backgrounds else l.backgrounds.push out.2

theorem regions_grow (ink ink' : Bool) (out : Array Int × Region) :
    (l.grow ink out).regions ink' =
      if ink' = ink then (l.regions ink).push out.2 else l.regions ink' := by
  cases ink <;> cases ink' <;> rfl

/-- A visit marks the region of an unmarked pixel that is to be labelled, and does nothing otherwise. -/
theorem visit_eq (hwidth : l.width = p.width.toNat) (hheight : l.height = p.height.toNat)
    (keep : Int → Int) (withBackground : Bool) (k : Nat) :
    l.visit keep p withBackground k =
      if l.labels.getD k 0 = 0 ∧ (p.inkAt (p.pixel k) || withBackground) = true then
        l.grow (p.inkAt (p.pixel k))
          (fillFrom p p.width.toNat p.height.toNat (p.inkAt (p.pixel k))
            (offsetsOf (p.inkAt (p.pixel k)))
            (keep (code (p.inkAt (p.pixel k)) (l.regions (p.inkAt (p.pixel k))).size)) k l.labels)
      else l := by
  obtain ⟨w, h, labels, components, backgrounds⟩ := l
  subst hwidth hheight
  by_cases hzero : labels.getD k 0 = 0
  · cases hink : p.inkAt (p.pixel k) with
    | true =>
      rw [if_pos ⟨hzero, rfl⟩]
      exact (if_neg (not_not.2 hzero)).trans (if_pos hink)
    | false =>
      have hpixel : ¬p.inkAt (p.pixel k) = true := by simp [hink]
      cases withBackground with
      | true =>
        rw [if_pos ⟨hzero, rfl⟩]
        exact (if_neg (not_not.2 hzero)).trans (if_neg hpixel)
      | false =>
        rw [if_neg (by simp)]
        exact (if_neg (not_not.2 hzero)).trans (if_neg hpixel)
  · rw [if_neg fun h => hzero h.1]
    exact if_pos hzero

/-- The labels when pixel number `k` is due. -/
structure Labeled (p : Picture) (withBackground : Bool) (k : Nat) (l : Labeling) : Prop where
  width : l.width = p.width.toNat
  height : l.height = p.height.toNat
  size : l.labels.size = p.size
  regions : ∀ ink, (l.regions ink).toList = (p.firstsTo withBackground ink k).map p.record
  marked : ∀ ink i a, (p.firstsTo withBackground ink k)[i]? = some a →
    ∀ b, p.Joined a b → l.labels.getD (p.number b) 0 = code ink i
  unmarked : ∀ b, p.Contains b.x b.y →
    (∀ a ∈ p.firstsTo withBackground (p.inkAt b) k, ¬p.Joined a b) → l.labels.getD (p.number b) 0 = 0

/-- A pixel that starts no labelled region leaves the labels as they are due for the next one. -/
theorem Labeled.skip (h : Labeled p withBackground k l)
    (hskip : ¬((p.inkAt (p.pixel k) || withBackground) = true ∧ p.IsFirst (p.pixel k))) :
    Labeled p withBackground (k + 1) l := by
  have hsame : ∀ ink, p.firstsTo withBackground ink (k + 1) = p.firstsTo withBackground ink k := by
    intro ink
    refine Picture.firstsTo_succ_of_not ?_
    rintro ⟨hcovered, rfl, hfirst⟩
    exact hskip ⟨hcovered, hfirst⟩
  refine ⟨h.width, h.height, h.size, ?_, ?_, ?_⟩
  · intro ink
    rw [hsame]
    exact h.regions ink
  · intro ink
    rw [hsame]
    exact h.marked ink
  · intro b
    rw [hsame]
    exact h.unmarked b

/-- A first pixel of a labelled region is unmarked when it is due, with all its region. -/
theorem Labeled.ready (h : Labeled p withBackground k l) (hk : k < p.size)
    (hfirst : p.IsFirst (p.pixel k)) {label : Int} (hlabel : label ≠ 0) :
    Ready p label (p.pixel k) l.labels where
  label_ne := hlabel
  size := h.size
  contains := Picture.contains_pixel hk
  clear := by
    intro b hb
    refine h.unmarked b (hb.contains (Picture.contains_pixel hk)) ?_
    intro a ha
    exact hfirst.not_joined_of_mem_firstsTo hb ha

/-- An unmarked pixel of a labelled colour is the first of its region. -/
theorem Labeled.isFirst (h : Labeled p withBackground k l) (hk : k < p.size)
    (hzero : l.labels.getD k 0 = 0) (hcovered : (p.inkAt (p.pixel k) || withBackground) = true) :
    p.IsFirst (p.pixel k) := by
  obtain ⟨a, hfirst, hjoined⟩ := Picture.exists_isFirst (Picture.contains_pixel hk)
  rcases hfirst.before _ hjoined with heq | hbefore
  · rw [heq]
    exact hfirst
  · -- The region would have been marked from its first pixel on.
    have hlt := Picture.number_lt_of_before hfirst.contains (Picture.contains_pixel hk) hbefore
    rw [Picture.number_pixel] at hlt
    have hmem : a ∈ p.firstsTo withBackground (p.inkAt (p.pixel k)) k :=
      Picture.mem_firstsTo.2 ⟨hcovered, ⟨p.number a, hlt, Picture.pixel_number hfirst.contains⟩,
        hjoined.inkAt_eq.symm, hfirst⟩
    obtain ⟨i, hi⟩ := List.mem_iff_getElem?.1 hmem
    have hmark := h.marked _ i a hi _ hjoined
    rw [Picture.number_pixel, hzero] at hmark
    exact absurd hmark.symm (code_ne_zero _ i)

/-- Marking the region of its first pixel leaves the labels as they are due for the next one. -/
theorem Labeled.fill (h : Labeled p withBackground k l) (hk : k < p.size)
    (hfirst : p.IsFirst (p.pixel k)) (hcovered : (p.inkAt (p.pixel k) || withBackground) = true) :
    Labeled p withBackground (k + 1)
      (l.grow (p.inkAt (p.pixel k))
        (fillFrom p p.width.toNat p.height.toNat (p.inkAt (p.pixel k))
          (offsetsOf (p.inkAt (p.pixel k)))
          (code (p.inkAt (p.pixel k)) (l.regions (p.inkAt (p.pixel k))).size) k l.labels)) := by
  have hfill := fillFrom_spec (h.ready hk hfirst
    (code_ne_zero (p.inkAt (p.pixel k)) (l.regions (p.inkAt (p.pixel k))).size))
  generalize fillFrom p p.width.toNat p.height.toNat (p.inkAt (p.pixel k))
    (offsetsOf (p.inkAt (p.pixel k)))
    (code (p.inkAt (p.pixel k)) (l.regions (p.inkAt (p.pixel k))).size) k l.labels = out at hfill ⊢
  obtain ⟨hsize, hrecord, hinside, houtside⟩ := hfill
  have hnext := Picture.firstsTo_succ_of_isFirst hfirst hcovered
  have hother : ∀ ink, ink ≠ p.inkAt (p.pixel k) →
      p.firstsTo withBackground ink (k + 1) = p.firstsTo withBackground ink k := by
    intro ink hne
    exact Picture.firstsTo_succ_of_not fun hf => hne hf.2.1.symm
  have hlength : (l.regions (p.inkAt (p.pixel k))).size =
      (p.firstsTo withBackground (p.inkAt (p.pixel k)) k).length := by
    rw [← Array.length_toList, h.regions, List.length_map]
  -- A region that was marked before is another one, and keeps its label.
  have hkept : ∀ ink i a, (p.firstsTo withBackground ink k)[i]? = some a →
      ∀ b, p.Joined a b → out.1.getD (p.number b) 0 = code ink i := by
    intro ink i a ha b hb
    have hmem := List.mem_of_getElem? ha
    obtain ⟨-, -, -, hafirst⟩ := Picture.mem_firstsTo.1 hmem
    rw [houtside b (hb.contains hafirst.contains)
      fun hk => hfirst.not_joined_of_mem_firstsTo hk hmem hb]
    exact h.marked ink i a ha b hb
  refine ⟨h.width, h.height, hsize, ?_, ?_, ?_⟩
  · intro ink
    rw [regions_grow]
    split_ifs with hink
    · rw [hink, Array.toList_push, h.regions, hnext, List.map_append, hrecord]
      rfl
    · rw [hother ink hink]
      exact h.regions ink
  · intro ink i a ha b hb
    by_cases hink : ink = p.inkAt (p.pixel k)
    · subst hink
      rw [hnext, List.getElem?_append] at ha
      split_ifs at ha with hi
      · exact hkept _ i a ha b hb
      -- The new region has the next number.
      · obtain ⟨hzero, rfl⟩ : i - (p.firstsTo withBackground (p.inkAt (p.pixel k)) k).length = 0 ∧
            p.pixel k = a := by
          simpa [List.getElem?_singleton] using ha
        rw [← Nat.le_antisymm (by omega) (Nat.le_of_sub_eq_zero hzero), ← hlength]
        exact hinside b hb
    · rw [hother ink hink] at ha
      exact hkept ink i a ha b hb
  · intro b hin hnone
    have hnot : ¬p.Joined (p.pixel k) b := by
      intro hb
      refine hnone (p.pixel k) ?_ hb
      rw [hb.inkAt_eq, hnext]
      simp
    refine (houtside b hin hnot).trans (h.unmarked b hin ?_)
    intro a ha
    refine hnone a ?_
    by_cases hink : p.inkAt b = p.inkAt (p.pixel k)
    · rw [hink] at ha ⊢
      rw [hnext]
      exact List.mem_append_left _ ha
    · rw [hother _ hink]
      exact ha

/-- A visit takes the labels from one pixel to the next. -/
theorem Labeled.visit (h : Labeled p withBackground k l) (hk : k < p.size) :
    Labeled p withBackground (k + 1) (l.visit id p withBackground k) := by
  rw [visit_eq h.width h.height]
  split_ifs with hnew
  · exact h.fill hk (h.isFirst hk hnew.1 hnew.2) hnew.2
  · refine h.skip ?_
    rintro ⟨hcovered, hfirst⟩
    -- The first pixel of a region is unmarked when it is due.
    have hclear := (h.ready hk hfirst Int.one_ne_zero).clear _ .refl
    rw [Picture.number_pixel] at hclear
    exact hnew ⟨hclear, hcovered⟩

theorem Labeled.visitFrom (h : Labeled p withBackground k l) {n : Nat} (hn : k + n = p.size) :
    Labeled p withBackground p.size (visitFrom id p withBackground n k l) := by
  induction n generalizing k l with
  | zero =>
    rw [Labeling.visitFrom, ← hn]
    exact h
  | succ n ih => exact ih (h.visit (by omega)) (by omega)

/-- Before the first pixel nothing is marked. -/
theorem labeled_zero (p : Picture) (withBackground : Bool) :
    Labeled p withBackground 0
      ⟨p.width.toNat, p.height.toNat, Array.replicate p.size 0, #[], #[]⟩ where
  width := rfl
  height := rfl
  size := Array.size_replicate
  regions := by
    intro ink
    rw [Picture.firstsTo_zero]
    cases ink <;> rfl
  marked := by
    intro ink i a ha
    rw [Picture.firstsTo_zero] at ha
    cases ha
  unmarked := by
    intro b hin _
    simp [Array.getD_eq_getD_getElem?, Picture.number_lt hin]

/-- The labels of a picture number its regions in the order of their first pixels. -/
theorem labeled_of (p : Picture) (withBackground : Bool) :
    Labeled p withBackground p.size (Labeling.of p withBackground) :=
  (labeled_zero p withBackground).visitFrom (Nat.zero_add _)

theorem components_of (p : Picture) (withBackground : Bool) :
    (Labeling.of p withBackground).components.toList = (p.firsts true).map p.record := by
  have hregions := (labeled_of p withBackground).regions true
  rwa [p.firstsTo_size (Bool.true_or _)] at hregions

theorem backgrounds_of (p : Picture) :
    (Labeling.of p true).backgrounds.toList = (p.firsts false).map p.record := by
  have hregions := (labeled_of p true).regions false
  rwa [p.firstsTo_size (Bool.or_true _)] at hregions

/-- The label of an ink pixel is the number of its component in raster order. -/
theorem labelAt_of {a b : Point} (withBackground : Bool) (ha : a ∈ p.firsts true)
    (hjoined : p.Joined a b) :
    (Labeling.of p withBackground).labelAt b.x b.y = (p.firsts true).idxOf a + 1 := by
  have hlabeled := labeled_of p withBackground
  have hmarked := hlabeled.marked true ((p.firsts true).idxOf a) a
  rw [p.firstsTo_size (Bool.true_or _)] at hmarked
  rw [labelAt, hlabeled.width]
  exact hmarked (List.getElem?_idxOf ha) b hjoined

end Labeling

end Perimeter
