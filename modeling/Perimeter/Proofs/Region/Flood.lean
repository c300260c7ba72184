import Perimeter.Proofs.Region.Record

/-!
# Floods

A flood from an unmarked pixel marks the region of that pixel and nothing else. Pixels are marked
when they are put on the list of pixels still to visit, so none is visited twice, and as many visits
as there are pixels suffice.
-/

namespace Perimeter

theorem Point.eq_of_offset_eq {a b q : Point}
    (h : (a.x - q.x, a.y - q.y) = (b.x - q.x, b.y - q.y)) : a = b := by
  obtain ⟨x, y⟩ := a
  obtain ⟨x', y'⟩ := b
  simp only [Prod.mk.injEq] at h
  simp only [mk.injEq]
  omega

namespace Labeling

variable {p : Picture} {ink : Bool} {label : Int} {start : Point}
variable {base labels labels' : Array Int} {visited work ks : List Nat}

/-- The second buffer of labels is the first one with `label` written to the listed places. -/
structure Marks (label : Int) (ks : List Nat) (labels labels' : Array Int) : Prop where
  size : labels'.size = labels.size
  getD : ∀ j, labels'.getD j 0 = if j ∈ ks then label else labels.getD j 0

theorem Marks.refl (label : Int) (labels : Array Int) : Marks label [] labels labels where
  size := rfl
  getD := by simp

theorem Marks.setIfInBounds (h : Marks label ks labels labels') {k : Nat} (hk : k < labels.size) :
    Marks label (k :: ks) labels (labels'.setIfInBounds k label) where
  size := by rw [Array.size_setIfInBounds, h.size]
  getD := by
    intro j
    have hj := h.getD j
    simp only [Array.getD_eq_getD_getElem?, Array.getElem?_setIfInBounds, List.mem_cons] at hj ⊢
    by_cases hjk : k = j
    · subst hjk
      simp [h.size, hk]
    · simp only [hjk, if_false, hj, Ne.symm hjk, false_or]

theorem Marks.trans {ks' : List Nat} {labels'' : Array Int} (h : Marks label ks labels labels')
    (h' : Marks label ks' labels' labels'') : Marks label (ks' ++ ks) labels labels'' where
  size := h'.size.trans h.size
  getD := by
    intro j
    rw [h'.getD, h.getD]
    simp only [List.mem_append]
    split_ifs <;> simp_all

/-! ## One visit -/

/-- The numbers of the neighbours that a visit of `q` adds to the pixels still to visit. -/
structure Spreads (p : Picture) (ink : Bool) (label : Int) (q : Point) (offsets : List (Int × Int))
    (labels : Array Int) (new : List Nat) (labels' : Array Int) : Prop where
  marks : Marks label new labels labels'
  nodup : new.Nodup
  /-- Only unmarked neighbours of the right colour are added. -/
  fresh : ∀ k ∈ new, labels.getD k 0 = 0 ∧ ∃ b, k = p.number b ∧ p.Contains b.x b.y ∧
    p.inkAt b = ink ∧ (b.x - q.x, b.y - q.y) ∈ offsets
  /-- Every neighbour of the right colour is marked afterwards. -/
  covers : ∀ b, p.Contains b.x b.y → p.inkAt b = ink → (b.x - q.x, b.y - q.y) ∈ offsets →
    labels'.getD (p.number b) 0 ≠ 0

variable {q b : Point} {offsets : List (Int × Int)} {new : List Nat}

/-- A neighbour that is marked at once, and then the rest. -/
theorem Spreads.cons_fresh (hlabel : label ≠ 0) (hsize : labels.size = p.size)
    (hin : p.Contains b.x b.y) (hink : p.inkAt b = ink) (hzero : labels.getD (p.number b) 0 = 0)
    (h : Spreads p ink label q offsets (labels.setIfInBounds (p.number b) label) new labels') :
    Spreads p ink label q ((b.x - q.x, b.y - q.y) :: offsets) labels (new ++ [p.number b])
      labels' := by
  have hmark : Marks label [p.number b] labels (labels.setIfInBounds (p.number b) label) :=
    (Marks.refl label labels).setIfInBounds (by rw [hsize]; exact Picture.number_lt hin)
  have hmarks := hmark.trans h.marks
  have hne : ∀ k ∈ new, k ≠ p.number b := by
    -- It is marked by now, and what the rest adds is not.
    rintro k hk rfl
    have hfresh := (h.fresh _ hk).1
    rw [hmark.getD, if_pos (List.mem_singleton_self _)] at hfresh
    exact hlabel hfresh
  refine ⟨hmarks, ?_, ?_, ?_⟩
  · rw [List.nodup_append]
    refine ⟨h.nodup, List.nodup_singleton _, ?_⟩
    intro k hk j hj
    rw [List.mem_singleton.1 hj]
    exact hne k hk
  · intro k hk
    rcases List.mem_append.1 hk with hk | hk
    · obtain ⟨hfresh, hsource⟩ := h.fresh k hk
      rw [hmark.getD, if_neg (by simpa using hne k hk)] at hfresh
      obtain ⟨c, hc, hcin, hcink, hmem⟩ := hsource
      exact ⟨hfresh, c, hc, hcin, hcink, List.mem_cons_of_mem _ hmem⟩
    · obtain rfl := List.mem_singleton.1 hk
      exact ⟨hzero, b, rfl, hin, hink, List.mem_cons_self⟩
  · intro c hc hcink hmem
    rcases List.mem_cons.1 hmem with heq | hmem
    · obtain rfl := Point.eq_of_offset_eq heq
      rw [hmarks.getD, if_pos (by simp)]
      exact hlabel
    · exact h.covers c hc hcink hmem

/-- A neighbour that is outside, marked or of the other colour, and then the rest. -/
theorem Spreads.cons_skip (hlabel : label ≠ 0)
    (hskip : ¬(p.Contains b.x b.y ∧ labels.getD (p.number b) 0 = 0 ∧ p.inkAt b = ink))
    (h : Spreads p ink label q offsets labels new labels') :
    Spreads p ink label q ((b.x - q.x, b.y - q.y) :: offsets) labels new labels' := by
  refine ⟨h.marks, h.nodup, ?_, ?_⟩
  · intro k hk
    obtain ⟨hfresh, c, hc, hcin, hcink, hmem⟩ := h.fresh k hk
    exact ⟨hfresh, c, hc, hcin, hcink, List.mem_cons_of_mem _ hmem⟩
  · intro c hc hcink hmem
    rcases List.mem_cons.1 hmem with heq | hmem
    · obtain rfl := Point.eq_of_offset_eq heq
      rw [h.marks.getD]
      split_ifs
      · exact hlabel
      · exact fun hzero => hskip ⟨hc, hzero, hcink⟩
    · exact h.covers c hc hcink hmem

theorem spread_spec (ink : Bool) (hlabel : label ≠ 0) (q : Point) (offsets : List (Int × Int))
    (hsize : labels.size = p.size) (work : List Nat) :
    ∃ new, Spreads p ink label q offsets labels new
        (spread p p.width.toNat ink label q offsets labels work).1 ∧
      (spread p p.width.toNat ink label q offsets labels work).2 = new ++ work := by
  induction offsets generalizing labels work with
  | nil =>
    refine ⟨[], ⟨.refl label labels, List.nodup_nil, ?_, ?_⟩, rfl⟩
    · intro k hk
      cases hk
    · intro b _ _ hb
      cases hb
  | cons d offsets ih =>
    obtain ⟨dx, dy⟩ := d
    let b : Point := ⟨q.x + dx, q.y + dy⟩
    have hoff : (dx, dy) = (b.x - q.x, b.y - q.y) := by
      simp only [b, Prod.mk.injEq]
      omega
    by_cases hnew : p.Contains b.x b.y ∧ labels.getD (p.number b) 0 = 0 ∧ p.inkAt b = ink
    · have hstep : spread p p.width.toNat ink label q ((dx, dy) :: offsets) labels work =
          spread p p.width.toNat ink label q offsets (labels.setIfInBounds (p.number b) label)
            (p.number b :: work) := if_pos hnew
      have hsize' : (labels.setIfInBounds (p.number b) label).size = p.size := by
        rw [Array.size_setIfInBounds, hsize]
      obtain ⟨new, hspread, hwork⟩ := ih hsize' (p.number b :: work)
      obtain ⟨hin, hzero, hink⟩ := hnew
      rw [hstep, hoff, hwork]
      exact ⟨_, hspread.cons_fresh hlabel hsize hin hink hzero, by simp⟩
    · have hstep : spread p p.width.toNat ink label q ((dx, dy) :: offsets) labels work =
          spread p p.width.toNat ink label q offsets labels work := if_neg hnew
      obtain ⟨new, hspread, hwork⟩ := ih hsize work
      rw [hstep, hoff, hwork]
      exact ⟨new, hspread.cons_skip hlabel hnew, rfl⟩

/-! ## A whole flood -/

/-- The region of a pixel may be marked: nothing of it is marked yet. -/
structure Ready (p : Picture) (label : Int) (start : Point) (base : Array Int) : Prop where
  label_ne : label ≠ 0
  size : base.size = p.size
  contains : p.Contains start.x start.y
  clear : ∀ b, p.Joined start b → base.getD (p.number b) 0 = 0

/-- A flood under way. The marked pixels are those visited and those still to visit; all of them
belong to the region, and the neighbours of a visited pixel are among them. -/
structure Flooding (p : Picture) (label : Int) (start : Point) (base : Array Int)
    (visited work : List Nat) (labels : Array Int) : Prop where
  marks : Marks label (visited ++ work) base labels
  nodup : (visited ++ work).Nodup
  begun : p.number start ∈ visited ++ work
  joined : ∀ k ∈ visited ++ work, k < p.size ∧ p.Joined start (p.pixel k)
  closed : ∀ k ∈ visited, ∀ b, p.Linked (p.pixel k) b → p.number b ∈ visited ++ work

/-- A flood starts with its first pixel marked. -/
theorem Ready.flooding (h : Ready p label start base) :
    Flooding p label start base [] [p.number start]
      (base.setIfInBounds (p.number start) label) where
  marks := (Marks.refl label base).setIfInBounds (by rw [h.size]; exact Picture.number_lt h.contains)
  nodup := List.nodup_singleton _
  begun := List.mem_singleton_self _
  joined := by
    intro k hk
    obtain rfl := List.mem_singleton.1 hk
    refine ⟨Picture.number_lt h.contains, ?_⟩
    rw [Picture.pixel_number h.contains]
    exact .refl
  closed := by
    intro k hk
    cases hk

/-- A visit adds the neighbours of a pixel to the pixels still to visit. -/
theorem Flooding.visit (hready : Ready p label start base) {k : Nat}
    (h : Flooding p label start base visited (k :: work) labels)
    (hspread : Spreads p (p.inkAt start) label (p.pixel k) (offsetsOf (p.inkAt start)) labels new
      labels') :
    Flooding p label start base (k :: visited) (new ++ work) labels' := by
  obtain ⟨hk, hkjoined⟩ := h.joined k (by simp)
  have hkink : p.inkAt (p.pixel k) = p.inkAt start := hkjoined.inkAt_eq
  have hperm : ((k :: visited) ++ (new ++ work)).Perm (new ++ (visited ++ k :: work)) := by
    rw [← List.append_assoc]
    refine (List.perm_append_comm.append_right work).trans ?_
    rw [List.append_assoc]
    exact List.perm_middle.symm.append_left new
  have hmarks : Marks label (new ++ (visited ++ k :: work)) base labels' :=
    h.marks.trans hspread.marks
  constructor
  · refine ⟨hmarks.size, fun j => ?_⟩
    rw [hmarks.getD]
    simp only [hperm.mem_iff]
  · rw [hperm.nodup_iff, List.nodup_append]
    refine ⟨hspread.nodup, h.nodup, ?_⟩
    rintro j hj i hi rfl
    -- What is added was unmarked, and what was there before was marked.
    have hfresh := (hspread.fresh j hj).1
    rw [h.marks.getD, if_pos hi] at hfresh
    exact hready.label_ne hfresh
  · rw [hperm.mem_iff]
    exact List.mem_append_right _ h.begun
  · intro j hj
    rcases List.mem_append.1 (hperm.mem_iff.1 hj) with hj | hj
    · obtain ⟨-, b, rfl, hin, hink, hmem⟩ := hspread.fresh j hj
      have htouch := touches_of_mem_offsetsOf (a := p.pixel k) hmem
      refine ⟨Picture.number_lt hin, ?_⟩
      rw [Picture.pixel_number hin]
      refine hkjoined.tail ⟨Picture.contains_pixel hk, hin, hink.trans hkink.symm, ?_⟩
      rw [hkink]
      simpa using htouch
    · exact h.joined j hj
  · intro j hj b hlink
    rw [hperm.mem_iff]
    rcases List.mem_cons.1 hj with rfl | hj
    · have hjoined : p.Joined start b := hkjoined.tail hlink
      by_cases hsame : p.pixel j = b
      · rw [← hsame, Picture.number_pixel]
        simp
      · have hmem := mem_offsetsOf_of_touches hlink.touches hsame
        rw [hkink] at hmem
        -- It was unmarked before the flood, so it is marked because it is on one of the lists.
        have hmarked := hspread.covers b hlink.right hjoined.inkAt_eq hmem
        rw [hmarks.getD, hready.clear b hjoined] at hmarked
        by_contra hout
        exact hmarked (if_neg hout)
    · exact List.mem_append_right _ (h.closed j hj b hlink)

/-- No more pixels are marked than there are. -/
theorem Flooding.length_le (h : Flooding p label start base visited work labels) :
    visited.length + work.length ≤ p.size := by
  have hsub : visited ++ work ⊆ List.range p.size :=
    fun k hk => List.mem_range.2 (h.joined k hk).1
  have hle := (h.nodup.subperm hsub).length_le
  rwa [List.length_append, List.length_range] at hle

/-- When there is nothing left to visit, the whole region is visited. -/
theorem Flooding.mem_visited (h : Flooding p label start base visited [] labels) {k : Nat} :
    k ∈ visited ↔ k < p.size ∧ p.Joined start (p.pixel k) := by
  have hjoined := h.joined
  have hbegun := h.begun
  have hclosed := h.closed
  rw [List.append_nil] at hjoined hbegun hclosed
  refine ⟨hjoined k, ?_⟩
  rintro ⟨hk, hreach⟩
  have hall : ∀ b, p.Joined start b → p.number b ∈ visited := by
    intro b hb
    -- Along a chain of pixels: the neighbours of a visited pixel are visited.
    induction hb with
    | refl => exact hbegun
    | @tail c d hc hlink ih =>
      have hcontains : p.Contains c.x c.y := hlink.left
      refine hclosed _ ih d ?_
      rw [Picture.pixel_number hcontains]
      exact hlink
  have hmem := hall _ hreach
  rwa [Picture.number_pixel] at hmem

/-- With enough visits a flood comes to its end, and records the pixels that it visited. -/
theorem flood_spec (hready : Ready p label start base) (n : Nat)
    (h : Flooding p label start base visited work labels) (hn : n + visited.length = p.size) :
    ∃ visited',
      Flooding p label start base visited' []
        (flood p p.width.toNat (p.inkAt start) (offsetsOf (p.inkAt start)) label n work labels
          (.ofList p.width p.height start (visited.map p.pixel))).1 ∧
      (flood p p.width.toNat (p.inkAt start) (offsetsOf (p.inkAt start)) label n work labels
        (.ofList p.width p.height start (visited.map p.pixel))).2 =
        .ofList p.width p.height start (visited'.map p.pixel) := by
  induction n generalizing visited work labels with
  | zero =>
    -- As many pixels are visited as there are, so none is left to visit.
    have hle := h.length_le
    obtain rfl : work = [] := List.length_eq_zero_iff.1 (by omega)
    exact ⟨visited, h, rfl⟩
  | succ n ih =>
    cases work with
    | nil => exact ⟨visited, h, rfl⟩
    | cons k work =>
      have hsize : labels.size = p.size := by rw [h.marks.size, hready.size]
      obtain ⟨new, hspread, hwork⟩ := spread_spec (p.inkAt start) hready.label_ne (p.pixel k)
        (offsetsOf (p.inkAt start)) hsize work
      have hnext := h.visit hready hspread
      rw [← hwork] at hnext
      exact ih hnext (by rw [List.length_cons]; omega)

/-- Filling from an unmarked pixel marks its region, leaves all else as it was and records the
region. -/
theorem fillFrom_spec {k : Nat} (hready : Ready p label (p.pixel k) base) :
    let out := fillFrom p p.width.toNat p.height.toNat (p.inkAt (p.pixel k))
      (offsetsOf (p.inkAt (p.pixel k))) label k base
    out.1.size = p.size ∧ out.2 = p.record (p.pixel k) ∧
    (∀ b, p.Joined (p.pixel k) b → out.1.getD (p.number b) 0 = label) ∧
    (∀ b, p.Contains b.x b.y → ¬p.Joined (p.pixel k) b →
      out.1.getD (p.number b) 0 = base.getD (p.number b) 0) := by
  intro out
  have hbegin := hready.flooding
  rw [Picture.number_pixel] at hbegin
  obtain ⟨visited, hflood, hrecord⟩ := flood_spec hready p.size hbegin rfl
  have hmem : ∀ b, p.Contains b.x b.y → (p.number b ∈ visited ↔ p.Joined (p.pixel k) b) := by
    intro b hb
    rw [hflood.mem_visited, Picture.pixel_number hb]
    exact and_iff_right (Picture.number_lt hb)
  have hmarks := hflood.marks
  rw [List.append_nil] at hmarks
  refine ⟨hmarks.size.trans hready.size, ?_, ?_, ?_⟩
  · have hnodup := hflood.nodup
    rw [List.append_nil] at hnodup
    refine hrecord.trans (Region.ofList_perm ?_)
    refine (List.perm_ext_iff_of_nodup (hnodup.map p.pixel_injective) (p.nodup_regionList _)).2 ?_
    intro b
    rw [Picture.mem_regionList hready.contains, List.mem_map]
    constructor
    · rintro ⟨j, hj, rfl⟩
      exact (hflood.mem_visited.1 hj).2
    · intro hb
      have hin := hb.contains hready.contains
      exact ⟨p.number b, (hmem b hin).2 hb, Picture.pixel_number hin⟩
  · intro b hb
    exact (hmarks.getD _).trans (if_pos ((hmem b (hb.contains hready.contains)).2 hb))
  · intro b hin hb
    exact (hmarks.getD _).trans (if_neg (mt (hmem b hin).1 hb))

end Labeling

end Perimeter
