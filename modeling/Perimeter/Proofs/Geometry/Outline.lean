import Mathlib.Data.List.Cycle
import Perimeter.Geometry.MinRect
import Perimeter.Proofs.Geometry.Hull

/-!
# Outlines

A convex outline goes once around a list of points by its extreme points, with no point on the right of
any side. From each vertex only one other can be next, so there is one outline from the first point on.
The two passes over the sorted points find it.
-/

namespace Perimeter

variable {l l' hull hull' rest : List Point} {a b c s t v : Point}

/-! ## Extreme points -/

/-- A point of the list that is not between two others. -/
def Extreme (l : List Point) (v : Point) : Prop := v ∈ l ∧ ∀ a ∈ l, ∀ b ∈ l, ¬Between a v b

/-- No line passes through three extreme points. -/
theorem Extreme.turn_ne_zero (ha : Extreme l a) (hb : Extreme l b) (hc : Extreme l c) (hab : a ≠ b)
    (hbc : b ≠ c) (hca : c ≠ a) : turn a b c ≠ 0 := by
  have hmiddle : ∀ {u v w}, Extreme l u → Extreme l v → Extreme l w → u.Precedes v → v.Precedes w →
      turn u v w ≠ 0 := fun hu hv hw huv hvw h =>
    hv.2 _ hu.1 _ hw.1 (between_of_turn_eq_zero huv hvw h)
  intro h
  have hswap : turn b a c = 0 := by rw [turn_swap, h, neg_zero]
  -- One of the three is in the middle.
  obtain hab | hba := Point.precedes_or_precedes_of_ne hab <;>
    obtain hbc | hcb := Point.precedes_or_precedes_of_ne hbc <;>
    obtain hca | hac := Point.precedes_or_precedes_of_ne hca
  · exact hmiddle ha hb hc hab hbc h
  · exact hmiddle ha hb hc hab hbc h
  · exact hmiddle hc ha hb hca hab (by rw [← turn_rotate, h])
  · exact hmiddle ha hc hb hac hcb (by rw [turn_rotate, hswap])
  · exact hmiddle hb hc ha hbc hca (by rw [turn_rotate, h])
  · exact hmiddle hb ha hc hba hac hswap
  · exact hmiddle hc hb ha hcb hba (by rw [← turn_rotate, hswap])
  · exact hmiddle hc hb ha hcb hba (by rw [← turn_rotate, hswap])

theorem extreme_of_first (hs : s ∈ l) (h : ∀ c ∈ l, ¬c.Precedes s) : Extreme l s := by
  refine ⟨hs, fun a ha b hb hbetween => ?_⟩
  obtain ⟨has, -⟩ | ⟨hbs, -⟩ := hbetween.precedes
  · exact h a ha has
  · exact h b hb hbs

theorem extreme_of_last (ht : t ∈ l) (h : ∀ c ∈ l, ¬t.Precedes c) : Extreme l t := by
  refine ⟨ht, fun a ha b hb hbetween => ?_⟩
  obtain ⟨-, htb⟩ | ⟨-, hta⟩ := hbetween.precedes
  · exact h b hb htb
  · exact h a ha hta

theorem Hull.Exposed.extreme (hv : v ∈ l) (h : Exposed l v) : Extreme l v := by
  refine ⟨hv, fun a ha b hb hbetween => ?_⟩
  obtain ⟨hav, hvb⟩ | ⟨hbv, hva⟩ := hbetween.precedes
  · exact (h a ha b hb hav hvb).ne' hbetween.turn_eq_zero
  · exact (h b hb a ha hbv hva).ne' hbetween.symm.turn_eq_zero

/-! ## What an outline is -/

/-- The vertices are extreme points in the order in which they go around the list, from the first point
on. No point is on the right of a side, and none comes after all vertices. -/
structure Outlines (l hull : List Point) : Prop where
  extreme : ∀ v ∈ hull, Extreme l v
  nodup : hull.Nodup
  left : Cycle.Chain (fun a b => ∀ c ∈ l, 0 ≤ turn a b c) (hull : Cycle Point)
  first : ∀ s ∈ hull.head?, ∀ c ∈ l, ¬c.Precedes s
  last : ∀ c ∈ l, ∃ t ∈ hull, ¬t.Precedes c

namespace Outlines

theorem turn_nonneg (h : Outlines l hull) (hr : hull ~r a :: b :: rest) : ∀ p ∈ l, 0 ≤ turn a b p := by
  have hleft := h.left
  rw [Cycle.coe_eq_coe.2 hr, Cycle.chain_coe_cons] at hleft
  exact (List.isChain_cons_cons.1 hleft).1

theorem turn_pos (h : Outlines l hull) (hr : hull ~r a :: b :: c :: rest) : 0 < turn a b c := by
  have hnodup := hr.nodup_iff.1 h.nodup
  have hextreme : ∀ v ∈ a :: b :: c :: rest, Extreme l v := fun v hv => h.extreme v (hr.mem_iff.2 hv)
  have hc := hextreme c (by simp)
  refine lt_of_le_of_ne (h.turn_nonneg hr c hc.1) (Ne.symm ?_)
  refine Extreme.turn_ne_zero (hextreme a (by simp)) (hextreme b (by simp)) hc ?_ ?_ ?_ <;>
  · simp only [List.nodup_cons, List.mem_cons, not_or] at hnodup
    tauto

theorem eq_nil_iff (h : Outlines l hull) : hull = [] ↔ l = [] := by
  constructor
  · rintro rfl
    refine List.eq_nil_iff_forall_not_mem.2 fun c hc => ?_
    obtain ⟨t, ht, -⟩ := h.last c hc
    cases ht
  · rintro rfl
    exact List.eq_nil_iff_forall_not_mem.2 fun v hv => nomatch (h.extreme v hv).1

/-- A single vertex is the only point. -/
theorem eq_of_singleton (h : Outlines l [s]) : ∀ c ∈ l, c = s := by
  intro c hc
  obtain ⟨t, ht, htc⟩ := h.last c hc
  rw [List.mem_singleton.1 ht] at htc
  obtain hcs | hcs | hsc := Point.precedes_or_eq_or_precedes c s
  · exact absurd hcs (h.first s rfl c hc)
  · exact hcs
  · exact absurd hsc htc

theorem length_eq_one_iff (h : Outlines l hull) : hull.length = 1 ↔ ∃ p ∈ l, ∀ q ∈ l, q = p := by
  constructor
  · intro hone
    obtain ⟨s, rfl⟩ := List.length_eq_one_iff.1 hone
    exact ⟨s, (h.extreme s (by simp)).1, h.eq_of_singleton⟩
  · rintro ⟨p, hp, hall⟩
    match hull, h with
    | [], h =>
      rw [h.eq_nil_iff.1 rfl] at hp
      cases hp
    | [s], _ => rfl
    | s :: t :: rest, h =>
      have hs := hall s (h.extreme s (by simp)).1
      have ht := hall t (h.extreme t (by simp)).1
      have hnodup := h.nodup
      simp [hs, ht] at hnodup

/-- All points are on the line through the two vertices of an outline without area. -/
theorem turn_eq_zero (h : Outlines l [s, t]) : ∀ c ∈ l, turn s t c = 0 := by
  intro c hc
  have hthere : 0 ≤ turn s t c := h.turn_nonneg (List.IsRotated.refl _) c hc
  have hrotated : [s, t] ~r [t, s] := ⟨1, rfl⟩
  have hback : 0 ≤ turn t s c := h.turn_nonneg hrotated c hc
  rw [turn_swap s t c] at hback
  omega

theorem length_eq_two_iff (h : Outlines l hull) :
    hull.length = 2 ↔
      (∃ p ∈ l, ∃ q ∈ l, p ≠ q) ∧ ∀ p ∈ l, ∀ q ∈ l, ∀ r ∈ l, turn p q r = 0 := by
  constructor
  · intro htwo
    obtain ⟨s, t, rfl⟩ := List.length_eq_two.1 htwo
    have hst : s ≠ t := by simpa using h.nodup
    refine ⟨⟨s, (h.extreme s (by simp)).1, t, (h.extreme t (by simp)).1, hst⟩, ?_⟩
    intro p hp q hq r hr
    exact turn_eq_zero_of_line hst (h.turn_eq_zero p hp) (h.turn_eq_zero q hq) (h.turn_eq_zero r hr)
  · rintro ⟨⟨p, hp, q, hq, hne⟩, hflat⟩
    match hull, h with
    | [], h =>
      rw [h.eq_nil_iff.1 rfl] at hp
      cases hp
    | [s], h => exact absurd ((h.eq_of_singleton p hp).trans (h.eq_of_singleton q hq).symm) hne
    | [s, t], _ => rfl
    | a :: b :: c :: rest, h =>
      have hmem : ∀ v ∈ a :: b :: c :: rest, v ∈ l := fun v hv => (h.extreme v hv).1
      have hzero := hflat a (hmem a (by simp)) b (hmem b (by simp)) c (hmem c (by simp))
      exact absurd hzero (h.turn_pos (List.IsRotated.refl _)).ne'

/-- The two vertices of an outline without area are the first and the last point. -/
theorem ends (h : Outlines l [s, t]) : (∀ c ∈ l, ¬c.Precedes s) ∧ ∀ c ∈ l, ¬t.Precedes c := by
  have hfirst := h.first s rfl
  have hst : s.Precedes t := (Point.precedes_or_precedes_of_ne (by simpa using h.nodup)).resolve_right
    (hfirst t (h.extreme t (by simp)).1)
  refine ⟨hfirst, fun c hc htc => ?_⟩
  obtain ⟨t', ht', hlast⟩ := h.last c hc
  obtain rfl | rfl : t' = s ∨ t' = t := by simpa using ht'
  · exact hlast (hst.trans htc)
  · exact hlast htc

/-! ## There is one outline -/

/-- From one vertex to the next. -/
def Next (l : List Point) (a b : Point) : Prop :=
  a ≠ b ∧ Extreme l a ∧ Extreme l b ∧ ∀ c ∈ l, 0 ≤ turn a b c

/-- Of two vertices that could be next, one would be on the right of the side to the other. -/
theorem rightUnique_next : Relator.RightUnique (Next l) := by
  rintro a b c ⟨hab, ha, hb, hleftb⟩ ⟨hac, -, hc, hleftc⟩
  by_contra hbc
  have hthere := hleftb c hc.1
  have hback := hleftc b hb.1
  rw [← turn_rotate, turn_swap b c a, turn_rotate] at hback
  exact Extreme.turn_ne_zero ha hb hc hab hbc hac.symm (by omega)

theorem isChain_next (h : Outlines l (s :: t :: rest)) :
    (s :: t :: (rest ++ [s])).IsChain (Next l) := by
  have hround : (t :: (rest ++ [s])).Perm (s :: t :: rest) := List.perm_append_singleton s (t :: rest)
  have hextreme : ∀ v ∈ s :: t :: (rest ++ [s]), Extreme l v := List.forall_mem_cons.2
    ⟨h.extreme s (by simp), fun v hv => h.extreme v (hround.subset hv)⟩
  have hne : (s :: t :: (rest ++ [s])).IsChain (· ≠ ·) := by
    have hst : s ≠ t := fun hst => by simpa [hst] using h.nodup
    exact List.isChain_cons_cons.2 ⟨hst, (hround.nodup_iff.2 h.nodup).isChain⟩
  have hleft := (Cycle.chain_coe_cons _ _ _).1 h.left
  rw [List.isChain_iff_forall_rel_of_append_cons_cons] at hne hleft ⊢
  intro a b front back hsplit
  exact ⟨hne hsplit, hextreme a (by simp [hsplit]), hextreme b (by simp [hsplit]), hleft hsplit⟩

/-- Two closed paths of a relation that determines what is next. -/
theorem eq_of_isChain {α : Type} {R : α → α → Prop} (hR : Relator.RightUnique R) {a s : α}
    {p q : List α} (hp : (a :: (p ++ [s])).IsChain R) (hq : (a :: (q ++ [s])).IsChain R)
    (hsp : s ∉ p) (hsq : s ∉ q) : p = q := by
  induction p generalizing a q with
  | nil =>
    cases q with
    | nil => rfl
    | cons c q =>
      have hsc := hR (List.isChain_cons_cons.1 hp).1 (List.isChain_cons_cons.1 hq).1
      exact absurd (hsc ▸ List.mem_cons_self) hsq
  | cons b p ih =>
    cases q with
    | nil =>
      have hbs := hR (List.isChain_cons_cons.1 hp).1 (List.isChain_cons_cons.1 hq).1
      exact absurd (hbs ▸ List.mem_cons_self) hsp
    | cons c q =>
      obtain ⟨hab, hp⟩ := List.isChain_cons_cons.1 hp
      obtain ⟨hac, hq⟩ := List.isChain_cons_cons.1 hq
      obtain rfl := hR hab hac
      rw [ih hp hq (List.not_mem_of_not_mem_cons hsp) (List.not_mem_of_not_mem_cons hsq)]

theorem eq_singleton (h : Outlines l [s]) (h' : Outlines l hull) : hull = [s] := by
  have hs : s ∈ l := (h.extreme s (by simp)).1
  obtain ⟨t, rfl⟩ := List.length_eq_one_iff.1 (h'.length_eq_one_iff.2 ⟨s, hs, h.eq_of_singleton⟩)
  rw [h.eq_of_singleton t (h'.extreme t (by simp)).1]

/-- A list of points has no other outline than one. -/
theorem unique (h : Outlines l hull) (h' : Outlines l hull') : hull = hull' := by
  match hull, hull', h, h' with
  | [], _, h, h' => exact (h'.eq_nil_iff.2 (h.eq_nil_iff.1 rfl)).symm
  | _, [], h, h' => exact h.eq_nil_iff.2 (h'.eq_nil_iff.1 rfl)
  | [s], _, h, h' => exact (h.eq_singleton h').symm
  | _, [s], h, h' => exact h'.eq_singleton h
  | s :: t :: rest, s' :: t' :: rest', h, h' =>
    have hs := h'.first s' rfl s (h.extreme s (by simp)).1
    have hs' := h.first s rfl s' (h'.extreme s' (by simp)).1
    obtain rfl : s = s' := ((Point.precedes_or_eq_or_precedes s s').resolve_left hs).resolve_right hs'
    rw [eq_of_isChain rightUnique_next h.isChain_next h'.isChain_next
      (List.nodup_cons.1 h.nodup).1 (List.nodup_cons.1 h'.nodup).1]

/-- An outline goes around its own vertices, too. -/
theorem self (h : Outlines l hull) : Outlines hull hull where
  extreme := fun v hv =>
    ⟨hv, fun a ha b hb => (h.extreme v hv).2 a (h.extreme a ha).1 b (h.extreme b hb).1⟩
  nodup := h.nodup
  left := h.left.imp fun _ _ hleft c hc => hleft c (h.extreme c hc).1
  first := fun s hs c hc => h.first s hs c (h.extreme c hc).1
  last := fun c hc => h.last c (h.extreme c hc).1

end Outlines

/-! ## The passes find it -/

namespace Hull

variable {mid lower upper : List Point}

/-- The vertices on one side of an outline, on the way from one end of the points to the other. -/
structure Side (l : List Point) (s t : Point) (mid : List Point) : Prop where
  extreme : ∀ v ∈ mid, Extreme l v
  nodup : mid.Nodup
  outside : ∀ v ∈ mid, 0 < turn s v t
  left : (s :: (mid ++ [t])).IsChain fun a b => ∀ c ∈ l, 0 ≤ turn a b c

theorem exists_ends (hl : Ordered l) (hne : l ≠ []) :
    ∃ s ∈ l, ∃ t ∈ l, (∀ c ∈ l, ¬c.Precedes s) ∧ ∀ c ∈ l, ¬t.Precedes c := by
  have h := passed_half hl hne
  refine ⟨_, (h.exposed _ (List.getLast_mem h.nonempty)).1, _,
    (h.exposed _ (List.head_mem h.nonempty)).1, ?_, ?_⟩
  · exact h.first _ (List.getLast?_eq_some_getLast h.nonempty)
  · exact h.latest _ (List.head?_eq_some_head h.nonempty)

theorem eq_of_not_precedes (h : ¬a.Precedes b) (h' : ¬b.Precedes a) : a = b :=
  ((Point.precedes_or_eq_or_precedes a b).resolve_left h).resolve_right h'

section

variable (hl : Ordered l) (hs : s ∈ l) (ht : t ∈ l) (hst : s ≠ t) (hfirst : ∀ c ∈ l, ¬c.Precedes s)
  (hlast : ∀ c ∈ l, ¬t.Precedes c)

include hs ht hst hfirst hlast

include hl in
/-- The first pass goes along the lower side. -/
theorem exists_side : ∃ mid, (half l).tail.reverse = s :: mid ∧ Side l s t mid := by
  have h := passed_half hl (List.ne_nil_of_mem hs)
  have hends : ∃ mid, half l = t :: (mid ++ [s]) := by
    obtain ⟨top, rest, hhalf⟩ := List.exists_cons_of_ne_nil h.nonempty
    obtain rfl : top = t := eq_of_not_precedes (h.latest top (by simp [hhalf]) t ht)
      (hlast top (h.exposed top (by simp [hhalf])).1)
    obtain rfl | ⟨mid, bottom, rfl⟩ := List.eq_nil_or_concat' rest
    · exact absurd (eq_of_not_precedes (h.first top (by simp [hhalf]) s hs) (hlast s hs)) hst
    · have hbottom : (half l).getLast? = some bottom := by
        rw [hhalf, ← List.cons_append, List.getLast?_concat]
      obtain rfl : bottom = s := eq_of_not_precedes
        (hfirst bottom (h.exposed bottom (by simp [hhalf])).1) (h.first bottom hbottom s hs)
      exact ⟨mid, hhalf⟩
  obtain ⟨mid, hhalf⟩ := hends
  rw [hhalf] at h ⊢
  obtain ⟨hbefore, hsorted⟩ := List.pairwise_cons.1 h.sorted
  obtain ⟨hmid, -, hafter⟩ := List.pairwise_append.1 hsorted
  refine ⟨mid.reverse, by simp, ?_, ?_, ?_, ?_⟩
  · intro v hv
    obtain ⟨hvl, hexp⟩ := h.exposed v (by simp_all)
    exact hexp.extreme hvl
  · exact List.nodup_reverse.2 (hmid.imp fun hba => hba.ne.symm)
  · intro v hv
    rw [List.mem_reverse] at hv
    obtain ⟨-, hexp⟩ := h.exposed v (by simp [hv])
    exact hexp s hs t ht (hafter v hv s (by simp)) (hbefore v (by simp [hv]))
  · have hleft := h.left.imp fun _ _ hba => hba.2
    rw [← List.isChain_reverse]
    simpa using hleft

end

theorem extreme_of_opposite (h : Extreme (l.reverse.map opposite) (opposite v)) : Extreme l v := by
  have hmem : ∀ {u}, opposite u ∈ l.reverse.map opposite ↔ u ∈ l := by
    simp [List.mem_map_of_injective opposite_injective]
  refine ⟨hmem.1 h.1, fun a ha b hb hbetween => ?_⟩
  exact h.2 _ (hmem.2 ha) _ (hmem.2 hb) (between_opposite hbetween)

theorem Side.of_opposite
    (h : Side (l.reverse.map opposite) (opposite s) (opposite t) (mid.map opposite)) :
    Side l s t mid := by
  refine ⟨?_, ?_, ?_, ?_⟩
  · exact fun v hv => extreme_of_opposite (h.extreme _ (List.mem_map_of_mem hv))
  · exact (List.nodup_map_iff opposite_injective).1 h.nodup
  · intro v hv
    have houtside := h.outside _ (List.mem_map_of_mem hv)
    rwa [turn_opposite] at houtside
  · have hleft := h.left
    rw [← List.map_singleton, ← List.map_append, ← List.map_cons, List.isChain_map] at hleft
    refine hleft.imp fun a b hab c hc => ?_
    rw [← turn_opposite]
    exact hab _ (List.mem_map_of_mem (List.mem_reverse.2 hc))

/-- The pass back goes along the upper side. -/
theorem exists_side_back (hl : Ordered l) (hs : s ∈ l) (ht : t ∈ l) (hst : s ≠ t)
    (hfirst : ∀ c ∈ l, ¬c.Precedes s) (hlast : ∀ c ∈ l, ¬t.Precedes c) :
    ∃ mid, (half l.reverse).tail.reverse = t :: mid ∧ Side l t s mid := by
  have hmem : ∀ {u}, u ∈ l → opposite u ∈ l.reverse.map opposite := fun hu =>
    List.mem_map_of_mem (List.mem_reverse.2 hu)
  obtain ⟨mid, hhalf, hside⟩ := exists_side hl.backward (hmem ht) (hmem hs)
    (opposite_injective.ne hst.symm) (by simpa [opposite_precedes] using hlast)
    (by simpa [opposite_precedes] using hfirst)
  rw [half_map_opposite, ← List.map_tail, ← List.map_reverse, List.map_eq_cons_iff] at hhalf
  obtain ⟨t', mid, hhalf, ht', rfl⟩ := hhalf
  obtain rfl := opposite_injective ht'
  exact ⟨mid, hhalf, hside.of_opposite⟩

theorem Side.not_mem (h : Side l s t mid) : s ∉ mid ∧ t ∉ mid :=
  ⟨fun hs => by simpa using h.outside s hs, fun ht => by simpa using h.outside t ht⟩

theorem Side.disjoint (h : Side l s t lower) (h' : Side l t s upper) (hv : v ∈ lower) : v ∉ upper := by
  intro hv'
  have hright := h.outside v hv
  have hleft := h'.outside v hv'
  rw [turn_rotate t s v, turn_swap s t v] at hright
  rw [turn_rotate s t v] at hleft
  omega

/-- Two sides from one end to the other and back are an outline. -/
theorem outlines_of_sides (hs : s ∈ l) (ht : t ∈ l) (hst : s ≠ t) (hfirst : ∀ c ∈ l, ¬c.Precedes s)
    (hlast : ∀ c ∈ l, ¬t.Precedes c) (h : Side l s t lower) (h' : Side l t s upper) :
    Outlines l (s :: lower ++ t :: upper) where
  extreme := by
    have hextremes := extreme_of_first hs hfirst
    have hextremet := extreme_of_last ht hlast
    simp only [List.cons_append, List.forall_mem_cons, List.forall_mem_append]
    exact ⟨hextremes, h.extreme, hextremet, h'.extreme⟩
  nodup := by
    have hupper : (t :: upper).Nodup := List.nodup_cons.2 ⟨h'.not_mem.1, h'.nodup⟩
    have hlower : (s :: lower).Nodup := List.nodup_cons.2 ⟨h.not_mem.1, h.nodup⟩
    refine List.nodup_append'.2 ⟨hlower, hupper, ?_⟩
    simp only [List.disjoint_cons_left, List.disjoint_cons_right, List.mem_cons, not_or]
    exact ⟨⟨hst.symm, h.not_mem.2⟩, h'.not_mem.2, fun v hv => h.disjoint h' hv⟩
  left := by
    rw [List.cons_append, Cycle.chain_coe_cons, List.append_assoc, List.cons_append, ← List.cons_append,
      List.isChain_split]
    exact ⟨h.left, h'.left⟩
  first := fun s' hs' => by
    obtain rfl : s = s' := by simpa using hs'
    exact hfirst
  last := fun c hc => ⟨t, by simp, hlast c hc⟩

end Hull

theorem Outlines.congr (hmem : ∀ v, v ∈ l' ↔ v ∈ l) (h : Outlines l' hull) : Outlines l hull where
  extreme := fun v hv => ⟨(hmem v).1 (h.extreme v hv).1, fun a ha b hb =>
    (h.extreme v hv).2 a ((hmem a).2 ha) b ((hmem b).2 hb)⟩
  nodup := h.nodup
  left := h.left.imp fun _ _ hleft c hc => hleft c ((hmem c).2 hc)
  first := fun s hs c hc => h.first s hs c ((hmem c).2 hc)
  last := fun c hc => h.last c ((hmem c).2 hc)

theorem outlines_convexHull_nil : Outlines [] (convexHull []) := by
  have hhull : convexHull [] = [] := by
    simp [convexHull, Hull.sortedPoints, List.eraseReps, List.eraseRepsBy]
  rw [hhull]
  refine ⟨?_, List.nodup_nil, Cycle.Chain.nil _, ?_, ?_⟩ <;> simp

theorem outlines_convexHull_singleton (s : Point) : Outlines [s] (convexHull [s]) := by
  have hhull : convexHull [s] = [s] := by
    simp [convexHull, Hull.sortedPoints, List.eraseReps, List.eraseRepsBy, List.eraseRepsBy.loop]
  have hirrefl : ∀ c ∈ [s], ¬c.Precedes s := List.forall_mem_singleton.2 (irrefl s)
  rw [hhull]
  refine ⟨?_, List.nodup_singleton s, ?_, ?_, ?_⟩
  · exact List.forall_mem_singleton.2 (extreme_of_first (by simp) hirrefl)
  · simp
  · simpa using hirrefl
  · simpa using irrefl s

/-- The convex hull is the outline of its points. -/
theorem outlines_convexHull (hl : ∀ p ∈ l, p.Small) : Outlines l (convexHull l) := by
  by_cases hdistinct : ∃ a ∈ l, ∃ b ∈ l, a ≠ b
  · obtain ⟨a, ha, b, hb, hab⟩ := hdistinct
    have hordered := Hull.ordered_sortedPoints hl
    have ha' := Hull.mem_sortedPoints.2 ha
    have hb' := Hull.mem_sortedPoints.2 hb
    obtain ⟨s, hs, t, ht, hfirst, hlast⟩ := Hull.exists_ends hordered (List.ne_nil_of_mem ha')
    have hst : s ≠ t := by
      rintro rfl
      have hsame : ∀ c ∈ Hull.sortedPoints l, c = s := fun c hc =>
        Hull.eq_of_not_precedes (hfirst c hc) (hlast c hc)
      exact hab ((hsame a ha').trans (hsame b hb').symm)
    obtain ⟨lower, hlower, hside⟩ := Hull.exists_side hordered hs ht hst hfirst hlast
    obtain ⟨upper, hupper, hside'⟩ := Hull.exists_side_back hordered hs ht hst hfirst hlast
    rw [convexHull_eq_passes hab ha hb, hlower, hupper]
    exact (Hull.outlines_of_sides hs ht hst hfirst hlast hside hside').congr
      fun _ => Hull.mem_sortedPoints
  · cases l with
    | nil => exact outlines_convexHull_nil
    | cons s rest =>
      have hsame : ∀ c ∈ s :: rest, c = s := by
        intro c hc
        by_contra hne
        exact hdistinct ⟨c, hc, s, by simp, hne⟩
      have hmem : ∀ v, v ∈ [s] ↔ v ∈ s :: rest := by
        intro v
        rw [List.mem_singleton]
        exact ⟨fun hv => hv ▸ List.mem_cons_self, hsame v⟩
      rw [← convexHull_congr (by simpa using hl s (by simp)) hmem]
      exact (outlines_convexHull_singleton s).congr hmem

/-! ## What the convex hull is -/

/-- The convex hull goes around the points by some of them, each once, from the first one on, and turns
left at each vertex. No point is on the right of a side. There are two vertices exactly if there are
different points, all on one line, and these are the first and the last of them; there is one vertex for
one point, given any number of times, and none for none. -/
theorem convexHull_spec (l : List Point) (hl : ∀ p ∈ l, p.Small) :
    (∀ a ∈ l, ∀ b ∈ l, ∀ c ∈ l, cross a b c = turn a b c) ∧
    (∀ v ∈ convexHull l, v ∈ l) ∧ (convexHull l).Nodup ∧
    (∀ s ∈ (convexHull l).head?, ∀ p ∈ l, ¬p.Precedes s) ∧
    (∀ a b c rest, convexHull l ~r a :: b :: c :: rest →
      0 < cross a b c ∧ ∀ p ∈ l, 0 ≤ cross a b p) ∧
    ((convexHull l).length = 2 ↔
      (∃ p ∈ l, ∃ q ∈ l, p ≠ q) ∧ ∀ p ∈ l, ∀ q ∈ l, ∀ r ∈ l, cross p q r = 0) ∧
    (∀ s t, convexHull l = [s, t] → ∀ p ∈ l, ¬p.Precedes s ∧ ¬t.Precedes p) ∧
    ((convexHull l).length = 1 ↔ ∃ p ∈ l, ∀ q ∈ l, q = p) ∧
    (convexHull l = [] ↔ l = []) := by
  have h := outlines_convexHull hl
  have hexact : ∀ a ∈ l, ∀ b ∈ l, ∀ c ∈ l, cross a b c = turn a b c := fun a ha b hb c hc =>
    cross_eq_turn (hl a ha) (hl b hb) (hl c hc)
  have hmem : ∀ v ∈ convexHull l, v ∈ l := fun v hv => (h.extreme v hv).1
  refine ⟨hexact, hmem, h.nodup, h.first, ?_, ?_, ?_, h.length_eq_one_iff, h.eq_nil_iff⟩
  · intro a b c rest hr
    have hvertex : ∀ v ∈ a :: b :: c :: rest, v ∈ l := fun v hv => hmem v (hr.mem_iff.2 hv)
    have ha := hvertex a (by simp)
    have hb := hvertex b (by simp)
    refine ⟨?_, fun p hp => ?_⟩
    · rw [hexact a ha b hb c (hvertex c (by simp))]
      exact h.turn_pos hr
    · rw [hexact a ha b hb p hp]
      exact h.turn_nonneg hr p hp
  · rw [h.length_eq_two_iff]
    refine and_congr_right fun _ => forall₂_congr fun a ha => forall₂_congr fun b hb =>
      forall₂_congr fun c hc => ?_
    rw [hexact a ha b hb c hc]
  · intro s t hst p hp
    rw [hst] at h
    exact ⟨h.ends.1 p hp, h.ends.2 p hp⟩

/-- A square with points inside it and on its sides, some of them given twice. -/
theorem convexHull_spec_square :
    let l : List Point := [⟨1, 1⟩, ⟨0, 0⟩, ⟨2, 0⟩, ⟨1, 0⟩, ⟨2, 2⟩, ⟨0, 2⟩, ⟨2, 0⟩]
    (∀ p ∈ l, p.Small) ∧ convexHull l = [⟨0, 0⟩, ⟨2, 0⟩, ⟨2, 2⟩, ⟨0, 2⟩] ∧
      (0 < cross ⟨0, 2⟩ ⟨0, 0⟩ ⟨2, 0⟩ ∧ ∀ p ∈ l, 0 ≤ cross ⟨0, 2⟩ ⟨0, 0⟩ p) ∧
      ¬(∀ p ∈ l, ∀ q ∈ l, ∀ r ∈ l, cross p q r = 0) := by
  intro l
  have hsmall : ∀ p ∈ l, p.Small := by decide
  have hsorted : Hull.sortedPoints l = [⟨0, 0⟩, ⟨0, 2⟩, ⟨1, 0⟩, ⟨1, 1⟩, ⟨2, 0⟩, ⟨2, 2⟩] := by cbv
  have hhull : convexHull l = [⟨0, 0⟩, ⟨2, 0⟩, ⟨2, 2⟩, ⟨0, 2⟩] := by
    rw [convexHull, hsorted]
    decide
  obtain ⟨-, -, -, -, hleft, htwo, -⟩ := convexHull_spec l hsmall
  refine ⟨hsmall, hhull, hleft ⟨0, 2⟩ ⟨0, 0⟩ ⟨2, 0⟩ [⟨2, 2⟩] (hhull ▸ ⟨3, rfl⟩), fun hflat => ?_⟩
  have hlength := htwo.2 ⟨⟨⟨0, 0⟩, by decide, ⟨2, 0⟩, by decide, by decide⟩, hflat⟩
  rw [hhull] at hlength
  cases hlength

/-- The convex hull is a matter of the set of points, and its own convex hull. So the rectangle around a
hull is the one around all the points. -/
theorem convexHull_canonical (l : List Point) (hl : ∀ p ∈ l, p.Small) :
    (∀ l', (∀ v, v ∈ l' ↔ v ∈ l) → convexHull l' = convexHull l) ∧
      convexHull (convexHull l) = convexHull l ∧ minAreaRect (convexHull l) = minAreaRect l := by
  have h := outlines_convexHull hl
  have hsmall : ∀ v ∈ convexHull l, v.Small := fun v hv => hl v (h.extreme v hv).1
  have hidem : convexHull (convexHull l) = convexHull l := (outlines_convexHull hsmall).unique h.self
  refine ⟨fun l' hmem => (convexHull_congr hl fun v => (hmem v).symm).symm, hidem, ?_⟩
  rw [minAreaRect, hidem, minAreaRect]

/-- The same points in another order, and without the one that is there twice. -/
theorem convexHull_canonical_square :
    let l : List Point := [⟨1, 1⟩, ⟨0, 0⟩, ⟨2, 0⟩, ⟨1, 0⟩, ⟨2, 2⟩, ⟨0, 2⟩, ⟨2, 0⟩]
    (∀ p ∈ l, p.Small) ∧
      convexHull [⟨2, 2⟩, ⟨1, 0⟩, ⟨0, 2⟩, ⟨1, 1⟩, ⟨2, 0⟩, ⟨0, 0⟩] = convexHull l ∧
      convexHull (convexHull l) = convexHull l ∧ minAreaRect (convexHull l) = minAreaRect l := by
  intro l
  have hsmall : ∀ p ∈ l, p.Small := by decide
  obtain ⟨hset, hrest⟩ := convexHull_canonical l hsmall
  refine ⟨hsmall, hset _ fun v => ?_, hrest⟩
  simp only [l, List.mem_cons, List.not_mem_nil, or_false]
  tauto

end Perimeter
