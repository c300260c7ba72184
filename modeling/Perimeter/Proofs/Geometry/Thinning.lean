import Mathlib.Data.List.Chain
import Mathlib.Data.List.Infix
import Mathlib.Order.Lattice
import Perimeter.Geometry.Polyline

/-!
# What thinning keeps

Between two points that thinning keeps one after the other, none is farther than the tolerance from the
line through them. This holds for any measure of distance whose values can be compared.
-/

namespace Perimeter.Polyline

/-! ## Where the farthest point is -/

section

variable {δ : Type} [LT δ] [DecidableLT δ] {f : Nat → δ} {n i best a b : Nat}

theorem argmax_eq_or (f : Nat → δ) (n i best : Nat) :
    argmax f n i best = best ∨ i ≤ argmax f n i best ∧ argmax f n i best < i + n := by
  induction n generalizing i best with
  | zero => exact .inl rfl
  | succ n ih =>
    have hrest := ih (i + 1) (if f best < f i then i else best)
    rw [argmax]
    split_ifs at hrest ⊢ <;> omega

/-- The farthest point lies between the ends. -/
theorem lt_farthest_lt (hab : a + 1 < b) : a < farthest f a b ∧ farthest f a b < b := by
  have hor := argmax_eq_or f (b - a - 2) (a + 2) (a + 1)
  rw [farthest]
  omega

theorem between_lt {d : Nat → Nat → Nat → δ} {tolerance : δ} {n a b : Nat} :
    ∀ k ∈ between d tolerance n a b, k < b := by
  induction n generalizing a b with
  | zero => exact nofun
  | succ n ih =>
    intro k hk
    rw [between] at hk
    split at hk
    case isTrue => cases hk
    case isFalse hab =>
      obtain ⟨-, hm⟩ := lt_farthest_lt (f := fun i => d i a b) (a := a) (b := b) (by omega)
      simp only at hk
      split at hk
      case isTrue =>
        rw [List.mem_append, List.mem_cons] at hk
        rcases hk with hk | rfl | hk
        · exact (ih k hk).trans hm
        · exact hm
        · exact ih k hk
      case isFalse => cases hk

theorem keptIndices_lt {d : Nat → Nat → Nat → δ} {tolerance : δ} {n : Nat} (hn : 0 < n) :
    ∀ k ∈ keptIndices d tolerance n, k < n := by
  intro k hk
  simp only [keptIndices, List.cons_append, List.mem_cons, List.mem_append, List.not_mem_nil,
    or_false] at hk
  rcases hk with rfl | hk | rfl
  · exact hn
  · have hlt := between_lt k hk
    omega
  · omega

end

/-! ## How near the others are -/

section

variable {δ : Type} [LinearOrder δ] {d : Nat → Nat → Nat → δ} {tolerance : δ} {n i a b : Nat}

theorem le_argmax (f : Nat → δ) (n i best : Nat) :
    f best ≤ f (argmax f n i best) ∧
      ∀ k, i ≤ k → k < i + n → f k ≤ f (argmax f n i best) := by
  induction n generalizing i best with
  | zero => exact ⟨le_rfl, fun k hik hki => by omega⟩
  | succ n ih =>
    rw [argmax]
    obtain ⟨hbest, hrest⟩ := ih (i + 1) (if f best < f i then i else best)
    have hboth : f best ≤ f (if f best < f i then i else best) ∧
        f i ≤ f (if f best < f i then i else best) := by
      split_ifs with hlt
      · exact ⟨hlt.le, le_rfl⟩
      · exact ⟨le_rfl, not_lt.1 hlt⟩
    refine ⟨hboth.1.trans hbest, fun k hik hki => ?_⟩
    obtain rfl | hne := eq_or_ne i k
    · exact hboth.2.trans hbest
    · exact hrest k (by omega) (by omega)

theorem le_farthest (f : Nat → δ) (hai : a < i) (hib : i < b) : f i ≤ f (farthest f a b) := by
  obtain ⟨hfirst, hrest⟩ := le_argmax f (b - a - 2) (a + 2) (a + 1)
  obtain rfl | hne := eq_or_ne i (a + 1)
  · exact hfirst
  · exact hrest i (by omega) (by omega)

/-- All points between the two are near the line through them. -/
def Spans (d : Nat → Nat → Nat → δ) (tolerance : δ) (a b : Nat) : Prop :=
  a < b ∧ ∀ i, a < i → i < b → d i a b ≤ tolerance

theorem spans_of_farthest (hab : a < b)
    (h : ¬tolerance < d (farthest (fun i => d i a b) a b) a b) : Spans d tolerance a b :=
  ⟨hab, fun _ hai hib => (le_farthest (fun i => d i a b) hai hib).trans (not_lt.1 h)⟩

theorem isChain_between (hn : b ≤ a + n) (hab : a < b) :
    (a :: (between d tolerance n a b ++ [b])).IsChain (Spans d tolerance) := by
  induction n generalizing a b with
  | zero => omega
  | succ n ih =>
    rw [between]
    split
    case isTrue hnear =>
      exact List.isChain_pair.2 ⟨hab, fun i hai hib => by omega⟩
    case isFalse hfar =>
      obtain ⟨ham, hmb⟩ := lt_farthest_lt (f := fun i => d i a b) (a := a) (b := b) (by omega)
      simp only
      split
      case isTrue =>
        -- The farthest point is kept and divides the way.
        rw [List.append_assoc, List.cons_append, ← List.cons_append, List.isChain_split]
        exact ⟨ih (by omega) ham, ih (by omega) hmb⟩
      case isFalse hle => exact List.isChain_pair.2 (spans_of_farthest hab hle)

/-- Between two indices nothing is kept when all points there are near the line through them. -/
theorem between_eq_nil (h : Spans d tolerance a b) (n : Nat) : between d tolerance n a b = [] := by
  cases n with
  | zero => rfl
  | succ n =>
    rw [between]
    split
    case isTrue => rfl
    case isFalse hfar =>
      obtain ⟨ham, hmb⟩ := lt_farthest_lt (f := fun i => d i a b) (a := a) (b := b) (by omega)
      simp only
      rw [if_neg (not_lt.2 (h.2 _ ham hmb))]

theorem isChain_keptIndices (hn : 2 ≤ n) : (keptIndices d tolerance n).IsChain (Spans d tolerance) :=
  isChain_between (by omega) (by omega)

/-- On a chain from `a` to `b`, every index is at or between two neighbours. -/
theorem exists_spans_around {l : List Nat} (h : (a :: (l ++ [b])).IsChain (Spans d tolerance))
    (hai : a ≤ i) (hib : i ≤ b) :
    ∃ j k, [j, k] <:+: a :: (l ++ [b]) ∧ j ≤ i ∧ i ≤ k ∧ Spans d tolerance j k := by
  induction l generalizing a with
  | nil => exact ⟨a, b, List.infix_rfl, hai, hib, List.isChain_pair.1 h⟩
  | cons c l ih =>
    obtain ⟨hac, hrest⟩ := List.isChain_cons_cons.1 h
    obtain hic | hci := le_total i c
    · exact ⟨a, c, (List.prefix_append [a, c] (l ++ [b])).isInfix, hai, hic, hac⟩
    · obtain ⟨j, k, hpair, hjk⟩ := ih hrest hci
      exact ⟨j, k, hpair.trans (List.suffix_cons a _).isInfix, hjk⟩

/-! ## Points -/

variable {distance : Point → Point → Point → δ} {l : List Point}

theorem getD_toArray_eq_getElem (l : List Point) {i : Nat} (hi : i < l.length) :
    l.toArray.getD i ⟨0, 0⟩ = l[i] := by
  simp [Array.getD_eq_getD_getElem?, hi]

theorem simplifyBy_eq_thin [OfNat δ 0] (hl : 3 < l.length) (htolerance : 0 < tolerance) :
    simplifyBy distance l tolerance = thin distance tolerance l := by
  rw [simplifyBy, if_neg]
  simpa using ⟨hl, htolerance⟩

theorem mem_of_mem_thin {p : Point} (hl : l ≠ []) (hp : p ∈ thin distance tolerance l) : p ∈ l := by
  obtain ⟨i, hi, rfl⟩ := List.mem_map.1 hp
  rw [getD_toArray_eq_getElem l (keptIndices_lt (List.length_pos_iff.2 hl) i hi)]
  exact List.getElem_mem _

/-- Every point of an outline is one of two neighbours on the thinned one, or near the line through
them. -/
theorem exists_thin_around (hl : 2 ≤ l.length) {p : Point} (hp : p ∈ l) :
    ∃ a b, [a, b] <:+: thin distance tolerance l ∧
      (p = a ∨ p = b ∨ distance p a b ≤ tolerance) := by
  obtain ⟨i, hi, rfl⟩ := List.getElem_of_mem hp
  have hchain : (keptIndices (fun i a b => distance (l.toArray.getD i ⟨0, 0⟩) (l.toArray.getD a ⟨0, 0⟩)
      (l.toArray.getD b ⟨0, 0⟩)) tolerance l.length).IsChain _ := isChain_keptIndices hl
  obtain ⟨j, k, hpair, hji, hik, -, hnear⟩ := exists_spans_around hchain (i := i) (by omega) (by omega)
  refine ⟨_, _, hpair.map fun i => l.toArray.getD i ⟨0, 0⟩, ?_⟩
  rw [← getD_toArray_eq_getElem l hi]
  obtain rfl | hne := eq_or_ne i j
  · exact .inl rfl
  · obtain rfl | hne' := eq_or_ne i k
    · exact .inr (.inl rfl)
    · exact .inr (.inr (hnear i (by omega) (by omega)))

/-- An outline near the line through its ends is thinned to its ends. -/
theorem thin_eq_ends {a b : Point} (h : ∀ p ∈ l, distance p a b ≤ tolerance) :
    thin distance tolerance (a :: (l ++ [b])) = [a, b] := by
  have hfirst : (a :: (l ++ [b])).toArray.getD 0 ⟨0, 0⟩ = a := getD_toArray_eq_getElem _ (by simp)
  have hlast : (a :: (l ++ [b])).toArray.getD (l.length + 1) ⟨0, 0⟩ = b := by
    rw [getD_toArray_eq_getElem _ (by simp)]
    simp
  have hspans : Spans (fun i j k => distance ((a :: (l ++ [b])).toArray.getD i ⟨0, 0⟩)
      ((a :: (l ++ [b])).toArray.getD j ⟨0, 0⟩) ((a :: (l ++ [b])).toArray.getD k ⟨0, 0⟩))
      tolerance 0 (l.length + 1) := by
    refine ⟨by omega, fun i hi hil => ?_⟩
    simp only [hfirst, hlast]
    rw [getD_toArray_eq_getElem _ (by simp; omega)]
    obtain ⟨i, rfl⟩ := Nat.exists_eq_succ_of_ne_zero hi.ne'
    have hil' : i < l.length := by omega
    refine h _ ?_
    rw [List.getElem_cons_succ, List.getElem_append_left hil']
    exact List.getElem_mem hil'
  have hlength : (a :: (l ++ [b])).length = l.length + 2 := by simp
  simp only [thin, keptIndices, hlength]
  rw [Nat.add_sub_assoc (by decide), between_eq_nil hspans]
  simp only [List.cons_append, List.nil_append, List.map_cons, List.map_nil]
  rw [hfirst, hlast]

end

end Perimeter.Polyline
