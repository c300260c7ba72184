import Mathlib.Data.List.Chain
import Mathlib.Data.List.Sort
import Perimeter.Proofs.Geometry.Turn

/-!
# What a convex hull depends on

A pass over sorted points keeps exactly the exposed ones, at which every path over the points turns
left. A point between two others is never exposed, and leaving it out exposes no other point. So a hull
depends only on which points there are, and not on points between others.
-/

namespace Perimeter

namespace Hull

variable {l l' stack : List Point} {a b m p v : Point}

/-- All paths from an earlier point of the list to a later one that bend at the point turn left
there. -/
def Exposed (l : List Point) (v : Point) : Prop :=
  ∀ a ∈ l, ∀ b ∈ l, a.Precedes v → v.Precedes b → 0 < turn a v b

theorem exposed_append_singleton (hp : ∀ a ∈ l, a.Precedes p) (hv : v ∈ l) :
    Exposed (l ++ [p]) v ↔ Exposed l v ∧ ∀ a ∈ l, a.Precedes v → 0 < turn a v p := by
  constructor
  · intro h
    refine ⟨fun a ha b hb => h a (by simp [ha]) b (by simp [hb]), fun a ha hav => ?_⟩
    exact h a (by simp [ha]) p (by simp) hav (hp v hv)
  · rintro ⟨hold, hnew⟩ a ha b hb hav hvb
    rw [List.mem_append, List.mem_singleton] at ha hb
    obtain ha | rfl := ha
    · obtain hb | rfl := hb
      · exact hold a ha b hb hav hvb
      · exact hnew a ha hav
    · exact absurd hav (hp v hv).not_precedes

theorem exposed_last (hp : ∀ a ∈ l, a.Precedes p) : Exposed (l ++ [p]) p := by
  intro a _ b hb _ hpb
  obtain hb | hb := List.mem_append.1 hb
  · exact absurd hpb (hp b hb).not_precedes
  · exact absurd (List.mem_singleton.1 hb).symm hpb.ne

/-! ## A pass over sorted points -/

/-- The vertices on a stack, the latest first, are exposed points of a list, from the first point of the
list on. No point of the list is on the right of a line between neighbours on the stack. -/
structure Stacked (l stack : List Point) : Prop where
  nonempty : stack ≠ []
  sorted : stack.Pairwise fun b a => a.Precedes b
  exposed : ∀ v ∈ stack, v ∈ l ∧ Exposed l v
  left : stack.IsChain fun b a => a.Precedes b ∧ ∀ c ∈ l, 0 ≤ turn a b c
  first : ∀ t ∈ stack.getLast?, ∀ c ∈ l, ¬c.Precedes t

/-- The stack after a pass over a list has all exposed points. -/
structure Passed (l stack : List Point) : Prop extends Stacked l stack where
  complete : ∀ v ∈ l, Exposed l v → v ∈ stack
  latest : ∀ t ∈ stack.head?, ∀ c ∈ l, ¬t.Precedes c

/-- The stack while vertices are taken off it to make room for a next point. It still has all points
that stay exposed, and no point of the list is on the right of the line to the next one. -/
structure Unwinding (l : List Point) (p : Point) (stack : List Point) : Prop extends
    Stacked l stack where
  complete : ∀ v ∈ l, Exposed (l ++ [p]) v → v ∈ stack
  tangent : ∀ t ∈ stack.head?, ∀ c ∈ l, t.Precedes c → 0 ≤ turn t p c

theorem Passed.unwinding (h : Passed l stack) (hp : ∀ a ∈ l, a.Precedes p) : Unwinding l p stack where
  toStacked := h.toStacked
  complete := fun v hv hexp => h.complete v hv ((exposed_append_singleton hp hv).1 hexp).1
  tangent := fun t ht c hc htc => absurd htc (h.latest t ht c hc)

theorem Unwinding.pop {rest : List Point} (h : Unwinding l p (b :: a :: rest))
    (hp : ∀ a ∈ l, a.Precedes p) (hturn : turn a b p ≤ 0) : Unwinding l p (a :: rest) := by
  obtain ⟨⟨hab, hleft⟩, -⟩ := List.isChain_cons_cons.1 h.left
  have hal : a ∈ l := (h.exposed a (by simp)).1
  refine ⟨⟨by simp, h.sorted.tail, fun v hv => h.exposed v (by simp_all), h.left.tail, ?_⟩, ?_, ?_⟩
  · intro t ht
    exact h.first t (by simpa using ht)
  · intro v hv hexp
    -- The vertex that goes is not exposed any more, as the path over it from `a` to `p` shows.
    have hne : v ≠ b := by
      rintro rfl
      have hpos := ((exposed_append_singleton hp hv).1 hexp).2 a hal hab
      omega
    simpa [hne] using h.complete v hv hexp
  · intro t ht c hc htc
    obtain rfl : a = t := by simpa using ht
    exact turn_nonneg_of_nonpos hab (hp a hal) htc hturn (hleft c hc)

/-- Earlier points are on the left of the line to the next one because the top of the stack stays
exposed, and later ones because they were passed on the way down to it. -/
theorem Unwinding.left_of_top {t : Point} (h : Unwinding l p stack) (ht : t ∈ stack.head?)
    (hexp : ∀ a ∈ l, a.Precedes t → 0 < turn a t p) : ∀ c ∈ l, 0 ≤ turn t p c := by
  intro c hc
  obtain hct | rfl | htc := Point.precedes_or_eq_or_precedes c t
  · rw [turn_rotate c t p]
    exact (hexp c hc hct).le
  · simp
  · exact h.tangent t ht c hc htc

/-- When all vertices stay exposed, the next point goes on top of them. -/
theorem Unwinding.put (h : Unwinding l p stack) (hp : ∀ a ∈ l, a.Precedes p)
    (hexp : ∀ v ∈ stack, ∀ a ∈ l, a.Precedes v → 0 < turn a v p) :
    Passed (l ++ [p]) (p :: stack) := by
  have hstays : ∀ v ∈ stack, v ∈ l ++ [p] ∧ Exposed (l ++ [p]) v := by
    intro v hv
    obtain ⟨hvl, hold⟩ := h.exposed v hv
    exact ⟨List.mem_append_left _ hvl, (exposed_append_singleton hp hvl).2 ⟨hold, hexp v hv⟩⟩
  have htop : ∀ t ∈ stack.head?, t.Precedes p ∧ ∀ c ∈ l ++ [p], 0 ≤ turn t p c := by
    intro t ht
    have hmem := List.mem_of_mem_head? ht
    exact ⟨hp t (h.exposed t hmem).1,
      List.forall_mem_append.2 ⟨h.left_of_top ht (hexp t hmem), by simp⟩⟩
  have hleft : stack.IsChain fun b a => a.Precedes b ∧ ∀ c ∈ l ++ [p], 0 ≤ turn a b c := by
    refine h.left.imp_of_mem_imp ?_
    rintro b a hb ha ⟨hab, hold⟩
    refine ⟨hab, List.forall_mem_append.2 ⟨hold, List.forall_mem_singleton.2 ?_⟩⟩
    exact (hexp b hb a (h.exposed a ha).1 hab).le
  refine ⟨⟨List.cons_ne_nil _ _, ?_, ?_, List.isChain_cons.2 ⟨htop, hleft⟩, ?_⟩, ?_, ?_⟩
  · exact List.pairwise_cons.2 ⟨fun a ha => hp a (h.exposed a ha).1, h.sorted⟩
  · exact List.forall_mem_cons.2 ⟨⟨by simp, exposed_last hp⟩, hstays⟩
  · intro t ht
    rw [List.getLast?_cons_of_ne_nil h.nonempty] at ht
    refine List.forall_mem_append.2 ⟨h.first t ht, List.forall_mem_singleton.2 ?_⟩
    exact (hp t (h.exposed t (List.mem_of_getLast? ht)).1).not_precedes
  · refine List.forall_mem_append.2 ⟨fun v hv hexposed => ?_, by simp⟩
    exact List.mem_cons_of_mem _ (h.complete v hv hexposed)
  · intro t ht
    obtain rfl : p = t := by simpa using ht
    exact List.forall_mem_append.2 ⟨fun c hc => (hp c hc).not_precedes,
      List.forall_mem_singleton.2 fun hpp => hpp.ne rfl⟩

theorem Unwinding.push (h : Unwinding l p stack) (hp : ∀ a ∈ l, a.Precedes p)
    (hexact : ∀ a ∈ l, ∀ b ∈ l, cross a b p = turn a b p) : Passed (l ++ [p]) (push stack p) := by
  fun_induction Hull.push stack p with
  | case1 b a rest p hcross ih =>
    rw [hexact a (h.exposed a (by simp)).1 b (h.exposed b (by simp)).1] at hcross
    exact ih (h.pop hp hcross) hp hexact
  | case2 b a rest p hcross =>
    have hal := (h.exposed a (by simp)).1
    have hbl := (h.exposed b (by simp)).1
    rw [hexact a hal b hbl, not_le] at hcross
    obtain ⟨⟨hab, hleft⟩, -⟩ := List.isChain_cons_cons.1 h.left
    -- The outline turns left at the top of the stack, so the vertices below it stay exposed too.
    have htop : ∀ c ∈ l, c.Precedes b → 0 < turn c b p := fun c hc hcb =>
      turn_pos_of_nonneg hab hcb (hp b hbl) (hleft c hc) hcross
    refine h.put hp fun v hv c hc hcv => ?_
    obtain rfl | hv := List.mem_cons.1 hv
    · exact htop c hc hcv
    · have hvb : v.Precedes b := (List.pairwise_cons.1 h.sorted).1 v hv
      obtain ⟨hvl, hexp⟩ := h.exposed v (List.mem_cons_of_mem _ hv)
      exact turn_pos_trans hcv hvb (hp v hvl) (hexp c hc b hbl hcv hvb) (htop v hvl hvb)
  | case3 b p =>
    refine h.put hp fun v hv c hc hcv => ?_
    obtain rfl := List.mem_singleton.1 hv
    exact absurd hcv (h.first v rfl c hc)
  | case4 p => exact absurd rfl h.nonempty

/-- The points of a list are in the order of a pass, and words are exact for the turns among them. -/
structure Ordered (l : List Point) : Prop where
  sorted : l.Pairwise Point.Precedes
  exact : ∀ a ∈ l, ∀ b ∈ l, ∀ c ∈ l, cross a b c = turn a b c

theorem Passed.foldl_push (h : Passed l stack) {rest : List Point} (hl : Ordered (l ++ rest)) :
    Passed (l ++ rest) (rest.foldl Hull.push stack) := by
  induction rest generalizing l stack with
  | nil => simpa using h
  | cons p rest ih =>
    have hp : ∀ a ∈ l, a.Precedes p := fun a ha =>
      (List.pairwise_append.1 hl.sorted).2.2 a ha p (by simp)
    have hpassed := (h.unwinding hp).push hp fun a ha b hb =>
      hl.exact a (by simp [ha]) b (by simp [hb]) p (by simp)
    rw [List.append_cons] at hl ⊢
    exact ih hpassed hl

theorem passed_half (hl : Ordered l) (hne : l ≠ []) : Passed l (half l) := by
  cases l with
  | nil => exact absurd rfl hne
  | cons p rest =>
    have hfirst : Passed [p] [p] := by
      refine ⟨⟨by simp, by simp, ?_, by simp, ?_⟩, by simp, ?_⟩
      · exact List.forall_mem_singleton.2 ⟨by simp, exposed_last (l := []) (by simp)⟩
      · simpa using irrefl p
      · simpa using irrefl p
    exact hfirst.foldl_push hl

/-- A pass over sorted points leaves the exposed ones, the latest first. -/
theorem half_spec (hl : Ordered l) :
    ((half l).Pairwise fun b a => a.Precedes b) ∧ ∀ v, v ∈ half l ↔ v ∈ l ∧ Exposed l v := by
  by_cases hne : l = []
  · subst hne
    simp [half]
  · have hpassed := passed_half hl hne
    exact ⟨hpassed.sorted, fun v => ⟨hpassed.exposed v, fun hv => hpassed.complete v hv.1 hv.2⟩⟩

/-! ## Points that make no difference -/

/-- A path that comes from a point between others turns left where the paths from those do. -/
theorem Exposed.turn_pos_from {d : Point} (h : Exposed l' v) (ha : a ∈ l') (hb : b ∈ l')
    (hbetween : Between a m b) (ham : a.Precedes m) (hd : d ∈ l') (hmv : m.Precedes v)
    (hvd : v.Precedes d) : 0 < turn m v d := by
  obtain ⟨i, j, hi, hj, hmean⟩ := hbetween.exists_mean
  have hav : a.Precedes v := ham.trans hmv
  have hturn : 0 < turn a v d := h a ha d hd hav hvd
  have hmix := hmean v d
  obtain hbv | rfl | hvb := Point.precedes_or_eq_or_precedes b v
  · have hturn' : 0 < turn b v d := h b hb d hd hbv hvd
    nlinarith
  · rw [turn_self_self] at hmix
    nlinarith
  · -- The point `v` is under the segment, so the way down to it is steeper from `m` than from `a`.
    have hunder : 0 < turn a v b := h a ha b hb hav hvb
    refine turn_pos_of_nonneg hav hmv hvd ?_ hturn
    have hmix' := hmean a v
    rw [turn_self_self, ← turn_rotate b a v] at hmix'
    rw [turn_rotate m a v]
    nlinarith

/-- A path that goes to a point between others turns left where the paths to those do. -/
theorem Exposed.turn_pos_to {c : Point} (h : Exposed l' v) (ha : a ∈ l') (hb : b ∈ l')
    (hbetween : Between a m b) (hmb : m.Precedes b) (hc : c ∈ l') (hcv : c.Precedes v)
    (hvm : v.Precedes m) : 0 < turn c v m := by
  obtain ⟨i, j, hi, hj, hmean⟩ := hbetween.exists_mean
  have hvb : v.Precedes b := hvm.trans hmb
  have hturn : 0 < turn c v b := h c hc b hb hcv hvb
  have hmix := hmean c v
  rw [← turn_rotate m c v, ← turn_rotate a c v, ← turn_rotate b c v] at hmix
  obtain hva | rfl | hav := Point.precedes_or_eq_or_precedes v a
  · have hturn' : 0 < turn c v a := h c hc a ha hcv hva
    nlinarith
  · rw [turn_self_right] at hmix
    nlinarith
  · -- The point `v` is under the segment, so the way up from it is steeper to `m` than to `b`.
    have hunder : 0 < turn a v b := h a ha b hb hav hvb
    refine turn_pos_trans hcv hvb hvm hturn ?_
    have hmix' := hmean v b
    rw [turn_self_left] at hmix'
    rw [turn_rotate m v b]
    nlinarith

/-- Leaving out a point between two others changes nothing about which points are exposed. -/
theorem exposed_iff_of_between (hmem : ∀ x, x ∈ l ↔ x ∈ l' ∨ x = m) (ha : a ∈ l') (hb : b ∈ l')
    (h : Between a m b) (v : Point) : v ∈ l ∧ Exposed l v ↔ v ∈ l' ∧ Exposed l' v := by
  wlog hamb : a.Precedes m ∧ m.Precedes b generalizing a b
  · exact this hb ha h.symm (h.precedes.resolve_left hamb)
  obtain ⟨ham, hmb⟩ := hamb
  have hsub : ∀ {x}, x ∈ l' → x ∈ l := fun hx => (hmem _).2 (.inl hx)
  constructor
  · rintro ⟨hv, hexp⟩
    have hne : v ≠ m := by
      rintro rfl
      exact (hexp a (hsub ha) b (hsub hb) ham hmb).ne' h.turn_eq_zero
    refine ⟨((hmem v).1 hv).resolve_right hne, fun c hc d hd => hexp c (hsub hc) d (hsub hd)⟩
  · rintro ⟨hv, hexp⟩
    refine ⟨hsub hv, fun c hc d hd hcv hvd => ?_⟩
    obtain hc | rfl := (hmem c).1 hc
    · obtain hd | rfl := (hmem d).1 hd
      · exact hexp c hc d hd hcv hvd
      · exact hexp.turn_pos_to ha hb h hmb hc hcv hvd
    · obtain hd | rfl := (hmem d).1 hd
      · exact hexp.turn_pos_from ha hb h ham hd hcv hvd
      · exact absurd hvd hcv.not_precedes

theorem half_eq_of_between (hl : Ordered l) (hl' : Ordered l')
    (hmem : ∀ x, x ∈ l ↔ x ∈ l' ∨ x = m) (ha : a ∈ l') (hb : b ∈ l') (h : Between a m b) :
    half l = half l' := by
  obtain ⟨hhalf, hspec⟩ := half_spec hl
  obtain ⟨hhalf', hspec'⟩ := half_spec hl'
  rw [← List.reverse_inj]
  refine (List.pairwise_reverse.2 hhalf).eq_of_mem_iff (List.pairwise_reverse.2 hhalf') fun v => ?_
  rw [List.mem_reverse, List.mem_reverse, hspec, hspec']
  exact exposed_iff_of_between hmem ha hb h v

/-! ## The pass back -/

/-- The point on the other side of the origin. -/
def opposite (p : Point) : Point := ⟨-p.x, -p.y⟩

theorem opposite_opposite (p : Point) : opposite (opposite p) = p := by simp [opposite]

theorem opposite_injective : Function.Injective opposite :=
  Function.LeftInverse.injective opposite_opposite

theorem opposite_precedes : (opposite a).Precedes (opposite b) ↔ b.Precedes a := by
  simp only [Point.precedes_iff, opposite]
  omega

theorem turn_opposite (a b c : Point) : turn (opposite a) (opposite b) (opposite c) = turn a b c := by
  simp only [turn, det, Point.toward, opposite]
  ring

theorem cross_opposite (a b c : Point) :
    cross (opposite a) (opposite b) (opposite c) = cross a b c := by
  rw [cross_eq_wrap64, turn_opposite, ← cross_eq_wrap64]

theorem between_opposite (h : Between a m b) : Between (opposite a) (opposite m) (opposite b) := by
  obtain ⟨hne, i, j, hi, hj, hx, hy⟩ := h
  refine ⟨opposite_injective.ne hne, i, j, hi, hj, ?_, ?_⟩ <;> simp only [opposite] <;> linarith

theorem push_map_opposite (stack : List Point) (p : Point) :
    push (stack.map opposite) (opposite p) = (push stack p).map opposite := by
  fun_induction push stack p with
  | case1 b a rest p hcross ih =>
    simp only [List.map_cons, push, cross_opposite, if_pos hcross]
    exact ih
  | case2 b a rest p hcross =>
    simp only [List.map_cons, push, cross_opposite, if_neg hcross]
  | case3 b p => rfl
  | case4 p => rfl

theorem half_map_opposite (l : List Point) : half (l.map opposite) = (half l).map opposite := by
  have hfold : ∀ stack, (l.map opposite).foldl push (stack.map opposite) =
      (l.foldl push stack).map opposite := by
    induction l with
    | nil => exact fun _ => rfl
    | cons p l ih =>
      intro stack
      simp only [List.map_cons, List.foldl_cons, push_map_opposite, ih]
  exact hfold []

/-- The points of a pass back are in order as seen from the other side. -/
theorem Ordered.backward (h : Ordered l) : Ordered (l.reverse.map opposite) := by
  constructor
  · rw [List.pairwise_map, List.pairwise_reverse]
    exact h.sorted.imp opposite_precedes.2
  · intro a ha b hb c hc
    simp only [List.mem_map, List.mem_reverse] at ha hb hc
    obtain ⟨a, ha, rfl⟩ := ha
    obtain ⟨b, hb, rfl⟩ := hb
    obtain ⟨c, hc, rfl⟩ := hc
    rw [cross_opposite, turn_opposite, h.exact a ha b hb c hc]

theorem half_reverse_eq_of_between (hl : Ordered l) (hl' : Ordered l')
    (hmem : ∀ x, x ∈ l ↔ x ∈ l' ∨ x = m) (ha : a ∈ l') (hb : b ∈ l') (h : Between a m b) :
    half l.reverse = half l'.reverse := by
  have hback : half (l.reverse.map opposite) = half (l'.reverse.map opposite) := by
    refine half_eq_of_between hl.backward hl'.backward ?_ (List.mem_map_of_mem (List.mem_reverse.2 ha))
      (List.mem_map_of_mem (List.mem_reverse.2 hb)) (between_opposite h)
    intro x
    rw [← opposite_opposite x, List.mem_map_of_injective opposite_injective,
      List.mem_map_of_injective opposite_injective, opposite_injective.eq_iff]
    simpa using hmem (opposite x)
  rw [half_map_opposite, half_map_opposite] at hback
  exact List.map_injective_iff.2 opposite_injective hback

/-! ## Sorted points -/

theorem eraseRepsBy_loop_cons (last p : Point) (rest done : List Point) :
    List.eraseRepsBy.loop (· == ·) last (p :: rest) done =
      if last = p then List.eraseRepsBy.loop (· == ·) last rest done
      else List.eraseRepsBy.loop (· == ·) p rest (last :: done) := by
  rw [List.eraseRepsBy.loop]
  split
  case h_1 heq => rw [if_pos (eq_of_beq heq)]
  case h_2 hne => rw [if_neg (ne_of_beq_false hne)]

theorem mem_eraseRepsBy_loop (last : Point) (rest done : List Point) (v : Point) :
    v ∈ List.eraseRepsBy.loop (· == ·) last rest done ↔ v = last ∨ v ∈ rest ∨ v ∈ done := by
  induction rest generalizing last done with
  | nil =>
    simp only [List.eraseRepsBy.loop, List.mem_reverse, List.mem_cons, List.not_mem_nil, false_or]
  | cons p rest ih =>
    rw [eraseRepsBy_loop_cons]
    split
    case isTrue heq =>
      rw [ih, heq, List.mem_cons]
      tauto
    case isFalse hne =>
      rw [ih, List.mem_cons, List.mem_cons]
      tauto

theorem pairwise_eraseRepsBy_loop {last : Point} {rest done : List Point}
    (hsorted : (last :: rest).Pairwise fun a b => a.Precedes b ∨ a = b)
    (hdone : (last :: done).Pairwise fun b a => a.Precedes b) :
    (List.eraseRepsBy.loop (· == ·) last rest done).Pairwise Point.Precedes := by
  induction rest generalizing last done with
  | nil => exact List.pairwise_reverse.2 hdone
  | cons p rest ih =>
    obtain ⟨hlast, hrest⟩ := List.pairwise_cons.1 hsorted
    rw [eraseRepsBy_loop_cons]
    split
    case isTrue heq =>
      subst heq
      exact ih hrest hdone
    case isFalse hne =>
      have hlt : last.Precedes p := (hlast p (by simp)).resolve_right hne
      refine ih hrest (List.pairwise_cons.2 ⟨fun a ha => ?_, hdone⟩)
      obtain rfl | ha := List.mem_cons.1 ha
      · exact hlt
      · exact ((List.pairwise_cons.1 hdone).1 a ha).trans hlt

instance : DecidableRel Point.Precedes := fun _ _ => decidable_of_iff _ Point.precedes_iff.symm

theorem pairwise_mergeSort_lexLe (hl : ∀ p ∈ l, p.Small) :
    (l.mergeSort lexLe).Pairwise fun a b => a.Precedes b ∨ a = b := by
  -- Words are exact for the points of the list only, so the sorting is compared with one by the exact
  -- order, of which it can be said that it sorts.
  have hsame : l.mergeSort lexLe = l.mergeSort fun a b => decide (a.Precedes b ∨ a = b) := by
    have hmap := List.map_mergeSort (r := lexLe) (s := fun a b => decide (a.Precedes b ∨ a = b))
      (f := id) (l := l) fun a ha b hb => by
        rw [Bool.eq_iff_iff, decide_eq_true_eq]
        exact lexLe_iff (hl a ha) (hl b hb)
    simpa using hmap
  rw [hsame]
  refine (List.pairwise_mergeSort ?_ ?_ l).imp of_decide_eq_true
  · intro a b c hab hbc
    obtain hab | rfl := of_decide_eq_true hab
    · obtain hbc | rfl := of_decide_eq_true hbc
      · simp [hab.trans hbc]
      · simp [hab]
    · exact hbc
  · intro a b
    have htotal := Point.precedes_or_eq_or_precedes a b
    simp only [Bool.or_eq_true, decide_eq_true_eq]
    tauto

theorem mem_sortedPoints : v ∈ sortedPoints l ↔ v ∈ l := by
  rw [← (List.mergeSort_perm l lexLe).mem_iff, sortedPoints, List.eraseReps]
  cases l.mergeSort lexLe with
  | nil => simp [List.eraseRepsBy]
  | cons p rest => simp [List.eraseRepsBy, mem_eraseRepsBy_loop]

theorem pairwise_sortedPoints (hl : ∀ p ∈ l, p.Small) : (sortedPoints l).Pairwise Point.Precedes := by
  have hsorted := pairwise_mergeSort_lexLe hl
  rw [sortedPoints, List.eraseReps]
  cases hcons : l.mergeSort lexLe with
  | nil => simp [List.eraseRepsBy]
  | cons p rest =>
    rw [hcons] at hsorted
    exact pairwise_eraseRepsBy_loop hsorted (by simp)

theorem ordered_sortedPoints (hl : ∀ p ∈ l, p.Small) : Ordered (sortedPoints l) :=
  ⟨pairwise_sortedPoints hl, fun a ha b hb c hc => cross_eq_turn (hl a (mem_sortedPoints.1 ha))
    (hl b (mem_sortedPoints.1 hb)) (hl c (mem_sortedPoints.1 hc))⟩

theorem sortedPoints_congr (hl : ∀ p ∈ l, p.Small) (hmem : ∀ v, v ∈ l ↔ v ∈ l') :
    sortedPoints l = sortedPoints l' := by
  have hl' : ∀ p ∈ l', p.Small := fun p hp => hl p ((hmem p).2 hp)
  refine (pairwise_sortedPoints hl).eq_of_mem_iff (pairwise_sortedPoints hl') fun v => ?_
  rw [mem_sortedPoints, mem_sortedPoints, hmem]

end Hull

/-! ## Hulls -/

section

open Hull

variable {l l' : List Point} {a m b : Point}

/-- The hull is a matter of the set of points. -/
theorem convexHull_congr (hl : ∀ p ∈ l, p.Small) (hmem : ∀ v, v ∈ l ↔ v ∈ l') :
    convexHull l = convexHull l' := by
  rw [convexHull, sortedPoints_congr hl hmem, convexHull]

/-- With two different points, both passes are needed, and do no harm when there is no third one. -/
theorem convexHull_eq_passes (hab : a ≠ b) (ha : a ∈ l) (hb : b ∈ l) :
    convexHull l =
      (half (sortedPoints l)).tail.reverse ++ (half (sortedPoints l).reverse).tail.reverse := by
  rw [convexHull]
  split
  case isFalse => rfl
  case isTrue hshort =>
    have ha' := mem_sortedPoints.2 ha
    have hb' := mem_sortedPoints.2 hb
    match hsorted : sortedPoints l with
    | [] => simp [hsorted] at ha'
    | [p] =>
      rw [hsorted, List.mem_singleton] at ha' hb'
      exact absurd (ha'.trans hb'.symm) hab
    | [p, q] => rfl
    | _ :: _ :: _ :: _ => simp [hsorted] at hshort

/-- A point between two others makes no difference to the hull. -/
theorem convexHull_eq_of_between (hl : ∀ p ∈ l, p.Small) (hmem : ∀ x, x ∈ l ↔ x ∈ l' ∨ x = m)
    (ha : a ∈ l') (hb : b ∈ l') (h : Between a m b) : convexHull l = convexHull l' := by
  have hsub : ∀ {x}, x ∈ l' → x ∈ l := fun hx => (hmem _).2 (.inl hx)
  have hl' : ∀ p ∈ l', p.Small := fun p hp => hl p (hsub hp)
  have hmem' : ∀ x, x ∈ sortedPoints l ↔ x ∈ sortedPoints l' ∨ x = m := by
    simpa only [mem_sortedPoints] using hmem
  have ha' := mem_sortedPoints.2 ha
  have hb' := mem_sortedPoints.2 hb
  rw [convexHull_eq_passes h.1 (hsub ha) (hsub hb), convexHull_eq_passes h.1 ha hb,
    half_eq_of_between (ordered_sortedPoints hl) (ordered_sortedPoints hl') hmem' ha' hb' h,
    half_reverse_eq_of_between (ordered_sortedPoints hl) (ordered_sortedPoints hl') hmem' ha' hb' h]

end

end Perimeter
