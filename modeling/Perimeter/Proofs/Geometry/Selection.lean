import Mathlib.Data.Fin.Basic
import Perimeter.Proofs.Geometry.Thinning

/-!
# Which points thinning keeps

Thinning keeps the ends of an outline, and each other point for a reason: between two kept ones it is
the first of those that are farthest from the line through them, and it is farther than the tolerance.
What it drops is within the tolerance of the line through two kept points, one after the other. Nothing
is asked of the distance but that its values can be compared.
-/

namespace Perimeter.Polyline

variable {δ ι : Type} [LinearOrder δ] [LT ι]

/-! ## The first of the farthest -/

/-- Of what lies strictly between `a` and `b`, `m` is the first at which `f` is greatest. -/
structure IsFarthest (f : ι → δ) (a b m : ι) : Prop where
  after : a < m
  before : m < b
  greatest : ∀ i, a < i → i < b → f i ≤ f m
  first : ∀ i, a < i → i < m → f i < f m

/-- Everything that the search has come by before its answer is less. -/
theorem lt_argmax (f : Nat → δ) (n : Nat) {i best k : Nat} (hbest : best < i) (hk : k = best ∨ i ≤ k)
    (hlt : k < argmax f n i best) : f k < f (argmax f n i best) := by
  induction n generalizing i best k with
  | zero =>
    rw [argmax] at hlt
    omega
  | succ n ih =>
    rw [argmax] at hlt ⊢
    by_cases hbetter : f best < f i
    · rw [if_pos hbetter] at hlt ⊢
      rcases hk with rfl | hik
      · exact hbetter.trans_le (le_argmax f n (i + 1) i).1
      · exact ih (Nat.lt_succ_self i) (by omega) hlt
    · rw [if_neg hbetter] at hlt ⊢
      obtain rfl | hne := eq_or_ne i k
      · -- What was best before is less than the answer, and this one is not greater than it.
        exact (not_lt.1 hbetter).trans_lt (ih (k := best) (by omega) (.inl rfl) (by omega))
      · exact ih (by omega) (by omega) hlt

theorem isFarthest_farthest (f : Nat → δ) {a b : Nat} (hab : a + 1 < b) :
    IsFarthest f a b (farthest f a b) where
  after := (lt_farthest_lt hab).1
  before := (lt_farthest_lt hab).2
  greatest _ hai hib := le_farthest f hai hib
  first _ hai him := lt_argmax f _ (by omega) (by omega) him

/-! ## Indices -/

/-- From `first` to `last`, `kept` is what thinning selects with this distance and tolerance. -/
structure Selects (d : ι → ι → ι → δ) (tolerance : δ) (first last : ι) (kept : List ι) : Prop where
  increasing : kept.Pairwise (· < ·)
  first_mem : first ∈ kept
  last_mem : last ∈ kept
  /-- Between two kept ones in a row nothing is farther than the tolerance. -/
  near : ∀ a b, [a, b] <:+: kept → ∀ i, a < i → i < b → d i a b ≤ tolerance
  /-- What is kept inside is the farthest between two others, and farther than the tolerance. -/
  far : ∀ m ∈ kept, m ≠ first → m ≠ last →
    ∃ a ∈ kept, ∃ b ∈ kept, IsFarthest (fun i => d i a b) a b m ∧ tolerance < d m a b

section

variable {d : Nat → Nat → Nat → δ} {tolerance : δ} {n a b m : Nat}

/-- Every index kept between `a` and `b` was the farthest between two that are kept, or `a` and `b`. -/
theorem exists_isFarthest_of_mem_between (hm : m ∈ between d tolerance n a b) :
    ∃ j ∈ a :: (between d tolerance n a b ++ [b]), ∃ k ∈ a :: (between d tolerance n a b ++ [b]),
      IsFarthest (fun i => d i j k) j k m ∧ tolerance < d m j k := by
  induction n generalizing a b with
  | zero => cases hm
  | succ n ih =>
    rw [between] at hm ⊢
    split at hm
    case isTrue => cases hm
    case isFalse hab =>
      simp only [if_neg hab] at hm ⊢
      split at hm
      case isFalse => cases hm
      case isTrue hfar =>
        simp only [if_pos hfar]
        rw [List.mem_append, List.mem_cons] at hm
        -- The two parts share the index between them, which is an end of each.
        rcases hm with hleft | rfl | hright
        · obtain ⟨j, hj, k, hk, hjk⟩ := ih hleft
          refine ⟨j, ?_, k, ?_, hjk⟩ <;> grind
        · exact ⟨a, by simp, b, by simp, isFarthest_farthest _ (by omega), hfar⟩
        · obtain ⟨j, hj, k, hk, hjk⟩ := ih hright
          refine ⟨j, ?_, k, ?_, hjk⟩ <;> grind

theorem selects_keptIndices (hn : 2 ≤ n) :
    Selects d tolerance 0 (n - 1) (keptIndices d tolerance n) where
  increasing := (isChain_keptIndices hn |>.imp fun _ _ h => h.1).pairwise
  first_mem := by simp [keptIndices]
  last_mem := by simp [keptIndices]
  near a b hpair := by
    obtain ⟨before, behind, hkept⟩ := hpair
    have hchain : (keptIndices d tolerance n).IsChain (Spans d tolerance) := isChain_keptIndices hn
    rw [← hkept, List.append_assoc] at hchain
    exact (List.isChain_append_cons_cons.1 hchain).2.1.2
  far m hm hfirst hlast := by
    simp only [keptIndices, List.cons_append, List.mem_cons, List.mem_append, List.not_mem_nil,
      or_false, hfirst, hlast, false_or] at hm
    exact exists_isFarthest_of_mem_between hm

/-- A selection from `n` indices, told by the indices themselves. -/
theorem Selects.of_map_val {first last : Fin n} {kept : List (Fin n)}
    (h : Selects d tolerance first.val last.val (kept.map Fin.val)) :
    Selects (fun i a b => d i.val a.val b.val) tolerance first last kept where
  increasing := List.Pairwise.of_map Fin.val (fun _ _ hlt => hlt) h.increasing
  first_mem := (List.mem_map_of_injective Fin.val_injective).1 h.first_mem
  last_mem := (List.mem_map_of_injective Fin.val_injective).1 h.last_mem
  near a b hpair i := h.near a.val b.val (hpair.map Fin.val) i.val
  far m hm hfirst hlast := by
    obtain ⟨j, hj, k, hk, hfar, htolerance⟩ := h.far m.val (List.mem_map_of_mem hm)
      (Fin.val_ne_of_ne hfirst) (Fin.val_ne_of_ne hlast)
    obtain ⟨a, ha, rfl⟩ := List.mem_map.1 hj
    obtain ⟨b, hb, rfl⟩ := List.mem_map.1 hk
    exact ⟨a, ha, b, hb, ⟨hfar.after, hfar.before, fun i => hfar.greatest i.val,
      fun i => hfar.first i.val⟩, htolerance⟩

end

/-! ## Points -/

/-- Thinning selects points by their indices. It keeps those of a set of indices with both ends: what it
drops between two of them in a row is within the tolerance, and each that it keeps inside is the first of
the farthest between two others, and farther than the tolerance. -/
theorem simplifyBy_selects [OfNat δ 0] {distance : Point → Point → Point → δ} {l : List Point}
    {tolerance : δ} (hl : 3 < l.length) (htolerance : 0 < tolerance) :
    ∃ kept : List (Fin l.length), simplifyBy distance l tolerance = kept.map l.get ∧
      Selects (fun i a b => distance l[i] l[a] l[b]) tolerance ⟨0, by omega⟩ ⟨l.length - 1, by omega⟩
        kept := by
  have hpoint : ∀ i : Fin l.length, l.toArray.getD i ⟨0, 0⟩ = l[i] := fun i =>
    getD_toArray_eq_getElem l i.isLt
  obtain ⟨d, hd, hthin⟩ : ∃ d : Nat → Nat → Nat → δ,
      (∀ i a b : Fin l.length, d i a b = distance l[i] l[a] l[b]) ∧ thin distance tolerance l =
        (keptIndices d tolerance l.length).map fun i => l.toArray.getD i ⟨0, 0⟩ :=
    ⟨_, fun i a b => by rw [← hpoint, ← hpoint, ← hpoint], rfl⟩
  have hselects : Selects d tolerance 0 (l.length - 1) (keptIndices d tolerance l.length) :=
    selects_keptIndices (by omega)
  obtain ⟨kept, hkept⟩ : ∃ kept : List (Fin l.length),
      kept.map Fin.val = keptIndices d tolerance l.length :=
    ⟨(keptIndices d tolerance l.length).pmap Fin.mk (keptIndices_lt (by omega)), by simp [List.map_pmap]⟩
  rw [← hkept] at hselects hthin
  refine ⟨kept, ?_, ?_⟩
  · rw [simplifyBy_eq_thin hl htolerance, hthin, List.map_map]
    exact List.map_congr_left fun i _ => hpoint i
  · simp only [← hd]
    exact hselects.of_map_val

/-- A zigzag of five points, two of which are equally far from the line through the ends. -/
theorem simplifyBy_selects_zigzag :
    let l : List Point := [⟨0, 0⟩, ⟨1, 2⟩, ⟨2, 1⟩, ⟨3, 2⟩, ⟨4, 0⟩]
    let distance (p a b : Point) : Nat :=
      ((p.x - a.x) * (b.y - a.y) - (p.y - a.y) * (b.x - a.x)).natAbs
    3 < l.length ∧ 0 < 4 ∧
      ∃ kept : List (Fin l.length), simplifyBy distance l 4 = kept.map l.get ∧
        Selects (fun i a b => distance l[i] l[a] l[b]) 4 ⟨0, by decide⟩ ⟨l.length - 1, by decide⟩
          kept := by
  intro l distance
  exact ⟨by decide, by decide, simplifyBy_selects (by decide) (by decide)⟩

end Perimeter.Polyline
