import Mathlib.Data.List.Chain
import Mathlib.Tactic.Linarith
import Perimeter.Chain
import Perimeter.Proofs.Geometry.Lattice

/-!
# The legs of a contour

A chain cuts a contour into legs. A leg is a run of equal steps to neighbours, or one step that is no
step to a neighbour, and the chain keeps the points where legs begin. The first point always begins one,
and the last leg ends on it.
-/

namespace Perimeter

/-! ## Steps and their codes -/

/-- The coordinates are so small that their differences are exact in machine words. -/
def Point.Wide (p : Point) : Prop :=
  p.x.natAbs < 4611686018427387904 ∧ p.y.natAbs < 4611686018427387904

instance (p : Point) : Decidable p.Wide := inferInstanceAs (Decidable (_ ∧ _))

theorem wordAbs_eq_natAbs {n : Int} (h : n.natAbs < 9223372036854775808) : wordAbs n = n.natAbs := by
  rw [wordAbs]
  split
  · rw [wrap64_eq_self (by simp only [FitsWord]; omega)]
    omega
  · omega

theorem stepCode_eq {a b : Point} (ha : a.Wide) (hb : b.Wide) :
    stepCode a b = if a.distance b ≤ 1 then b.x - a.x + 3 * (b.y - a.y) else 0 := by
  obtain ⟨hax, hay⟩ := ha
  obtain ⟨hbx, hby⟩ := hb
  simp only [stepCode, wrap64_sub_eq hbx hax, wrap64_sub_eq hby hay,
    wordAbs_eq_natAbs (n := b.x - a.x) (by omega), wordAbs_eq_natAbs (n := b.y - a.y) (by omega)]
  have hdistance : a.distance b = max (b.x - a.x).natAbs (b.y - a.y).natAbs := rfl
  -- The code of a jump would not fit the word, but it is not made.
  by_cases hnear : a.distance b ≤ 1
  · rw [if_neg (by omega), if_pos hnear, wrap64_eq_self (by simp only [FitsWord]; omega)]
  · rw [if_pos (by omega), if_neg hnear]

@[simp] theorem stepCode_self (a : Point) : stepCode a a = 0 := by
  have hzero : wrap64 0 = 0 := rfl
  simp [stepCode, wordAbs, hzero]

/-- Steps to neighbours are those that have a code. -/
theorem stepCode_ne_zero_iff {a b : Point} (ha : a.Wide) (hb : b.Wide) :
    stepCode a b ≠ 0 ↔ a.distance b = 1 := by
  rw [stepCode_eq ha hb]
  simp only [Point.distance]
  split_ifs <;> omega

namespace Chain

variable {rest : List Point} {d : Int} {p q r : Point}

/-! ## Runs -/

/-- Some number of equal steps to neighbours, with this code, leads from one point to the other. -/
def Leads (d : Int) (r q : Point) : Prop :=
  ∃ k u v : Int, 0 < k ∧ (-1 ≤ u ∧ u ≤ 1) ∧ (-1 ≤ v ∧ v ≤ 1) ∧ d = u + 3 * v ∧
    q.x = r.x + k * u ∧ q.y = r.y + k * v

theorem leads_shift {u v : Int} {n : Nat} (hn : 0 < n) (h : Point.IsUnit u v) :
    Leads (u + 3 * v) r (r.shift (n * u) (n * v)) := by
  simp only [Point.IsUnit] at h
  exact ⟨n, u, v, by omega, by omega, by omega, rfl, rfl, rfl⟩

theorem leads_stepCode (hp : p.Wide) (hq : q.Wide) (h : stepCode p q ≠ 0) :
    Leads (stepCode p q) p q := by
  have hnear := (stepCode_ne_zero_iff hp hq).1 h
  rw [stepCode_eq hp hq, if_pos hnear.le]
  simp only [Point.distance] at hnear
  exact ⟨1, q.x - p.x, q.y - p.y, Int.one_pos, by omega, by omega, rfl, by ring, by ring⟩

/-- A step that a chain takes as one more step of a run. -/
theorem leads_of_continues (hp : p.Wide) (hq : q.Wide) (h : ¬(stepCode p q ≠ d ∨ stepCode p q = 0)) :
    d ≠ 0 ∧ Leads d p q := by
  obtain ⟨hsame, hne⟩ := not_or.1 h
  rw [not_ne_iff] at hsame
  exact ⟨hsame ▸ hne, hsame ▸ leads_stepCode hp hq hne⟩

theorem Leads.exists_shift (h : Leads d r q) (hd : d ≠ 0) :
    ∃ (n : Nat) (u v : Int), 0 < n ∧ Point.IsUnit u v ∧ d = u + 3 * v ∧
      q = r.shift (n * u) (n * v) := by
  obtain ⟨k, u, v, hk, hu, hv, rfl, hx, hy⟩ := h
  obtain ⟨n, rfl⟩ := Int.eq_ofNat_of_zero_le hk.le
  refine ⟨n, u, v, by omega, by simp only [Point.IsUnit]; omega, rfl, ?_⟩
  obtain ⟨x, y⟩ := q
  simp only [Point.shift, Point.mk.injEq]
  exact ⟨hx, hy⟩

/-- A code stands for one step only, so two runs with one code are one run. -/
theorem Leads.exists_shift_shift (h : Leads d r p) (h' : Leads d p q) (hd : d ≠ 0) :
    ∃ (m n : Nat) (u v : Int), 0 < m ∧ 0 < n ∧ Point.IsUnit u v ∧ d = u + 3 * v ∧
      p = r.shift (m * u) (m * v) ∧ q = r.shift ((m + n : Nat) * u) ((m + n : Nat) * v) := by
  obtain ⟨m, u, v, hm, hunit, rfl, rfl⟩ := h.exists_shift hd
  obtain ⟨n, u', v', hn, hunit', hcode, rfl⟩ := h'.exists_shift hd
  -- Offsets are at most one, so those in `x` and in `y` are the digits of the code.
  obtain ⟨rfl, rfl⟩ : u' = u ∧ v' = v := by
    simp only [Point.IsUnit] at hunit hunit'
    omega
  exact ⟨m, n, u', v', hm, hn, hunit, rfl, rfl, Point.shift_shift r u' v' m n⟩

theorem Leads.trans (h : Leads d r p) (h' : Leads d p q) (hd : d ≠ 0) : Leads d r q := by
  obtain ⟨m, n, u, v, hm, -, hunit, rfl, -, rfl⟩ := h.exists_shift_shift h' hd
  exact leads_shift (by omega) hunit

theorem Leads.straight (h : Leads d r q) (hd : d ≠ 0) : r.Straight q := by
  obtain ⟨n, u, v, hn, hunit, -, hq⟩ := h.exists_shift hd
  exact ⟨n, u, v, hn, hunit, hq⟩

/-- Seen as a single step, a run is the step that it repeats or a jump. -/
theorem Leads.stepCode_eq_or (h : Leads d r q) (hd : d ≠ 0) (hr : r.Wide) (hq : q.Wide) :
    stepCode r q = d ∨ stepCode r q = 0 := by
  obtain ⟨n, u, v, hn, hunit, rfl, rfl⟩ := h.exists_shift hd
  rw [stepCode_eq hr hq, Point.distance_shift r hunit]
  split_ifs with hone
  · obtain rfl : n = 1 := by omega
    left
    simp only [Point.shift]
    ring
  · exact .inr rfl

theorem Leads.stepsTo_append (h : Leads d r p) (h' : Leads d p q) (hd : d ≠ 0) :
    r.stepsTo q = r.stepsTo p ++ p.stepsTo q := by
  obtain ⟨m, n, u, v, -, -, hunit, -, rfl, rfl⟩ := h.exists_shift_shift h' hd
  exact Point.stepsTo_shift_add r hunit m n

/-! ## Cutting a contour -/

/-- Where a leg begins and the code of its steps. -/
structure Leg where
  point : Point
  code : Int
deriving DecidableEq, Repr

/-- The legs that begin on the rest of a path, which has come to `p` by a step with code `d`. -/
def legs (d : Int) (p : Point) : List Point → List Leg
  | [] => []
  | q :: rest =>
    if stepCode p q ≠ d ∨ stepCode p q = 0 then ⟨p, stepCode p q⟩ :: legs (stepCode p q) q rest
    else legs d q rest

/-- The legs of a closed contour. -/
def tour : List Point → List Leg
  | [] => []
  | p :: rest => legs 0 p (rest ++ [p])

/-- The first point of a closed contour lies inside a straight run through the closing step. -/
def startsInside : List Point → Bool
  | p :: q :: rest =>
    stepCode (rest.getLastD q) p == stepCode p q && stepCode (rest.getLastD q) p != 0
  | _ => false

theorem startsInside_cons_cons : startsInside (p :: q :: rest) = true ↔
    stepCode (rest.getLastD q) p = stepCode p q ∧ stepCode (rest.getLastD q) p ≠ 0 := by
  simp only [startsInside, Bool.and_eq_true, beq_iff_eq, bne_iff_ne]

/-- The first point begins a leg. -/
theorem tour_cons_cons (p q : Point) (rest : List Point) :
    tour (p :: q :: rest) = ⟨p, stepCode p q⟩ :: legs (stepCode p q) q (rest ++ [p]) := by
  rw [tour, List.cons_append, legs, if_pos (by tauto)]

theorem legs_sublist (d : Int) (p : Point) (rest : List Point) :
    ((legs d p rest).map Leg.point).Sublist (p :: rest).dropLast := by
  induction rest generalizing d p with
  | nil => exact List.Sublist.refl []
  | cons q rest ih =>
    rw [legs]
    split_ifs
    · exact (ih _ q).cons_cons p
    · exact (ih d q).cons p

theorem tour_sublist (l : List Point) : ((tour l).map Leg.point).Sublist l := by
  cases l with
  | nil => exact List.Sublist.refl []
  | cons p rest =>
    have hlegs := legs_sublist 0 p (rest ++ [p])
    rwa [← List.cons_append, List.dropLast_concat] at hlegs

theorem head?_tour (l : List Point) : ((tour l).map Leg.point).head? = l.head? := by
  match l with
  | [] => rfl
  | [p] => simp [tour, legs]
  | p :: q :: rest =>
    rw [tour_cons_cons]
    rfl

/-! ## What a chain keeps -/

variable {c : Chain}

theorem foldl_push (h : c.head = .two p q) (rest : List Point) :
    rest.foldl push c = rest.foldl extend c := by
  -- Both points that closing needs are known, and no step changes them.
  induction rest generalizing c with
  | nil => rfl
  | cons r rest ih =>
    have hpush : c.push r = c.extend r := by rw [push, h]
    rw [List.foldl_cons, List.foldl_cons, hpush]
    exact ih h

theorem foldl_extend_kept (rest : List Point) (c : Chain) :
    (rest.foldl extend c).kept.toList =
      c.kept.toList ++ (legs c.direction c.last rest).map Leg.point := by
  induction rest generalizing c with
  | nil => simp [legs]
  | cons q rest ih =>
    rw [List.foldl_cons, ih, legs, extend]
    split_ifs <;> simp_all

theorem foldl_extend_last (rest : List Point) (c : Chain) :
    (rest.foldl extend c).last = rest.getLastD c.last := by
  induction rest generalizing c with
  | nil => rfl
  | cons q rest ih => rw [List.foldl_cons, ih, List.getLastD_cons, extend]

/-- Apart from the points and the direction, a chain stays as it is. -/
theorem foldl_extend_frame (rest : List Point) (c : Chain) :
    (rest.foldl extend c).head = c.head ∧ (rest.foldl extend c).closed = c.closed := by
  induction rest generalizing c with
  | nil => exact ⟨rfl, rfl⟩
  | cons q rest ih => exact ih (c.extend q)

theorem ofPoints_cons_cons (p q : Point) (rest : List Point) :
    (ofPoints (p :: q :: rest)).kept.toList = (tour (p :: q :: rest)).map Leg.point ∧
      (ofPoints (p :: q :: rest)).startRedundant = startsInside (p :: q :: rest) := by
  -- The second point always keeps the first one, since a chain starts without a direction.
  let c : Chain := { kept := #[p], head := .two p q, last := q, direction := stepCode p q }
  let c' : Chain := rest.foldl extend c
  have hc : (p :: q :: rest).foldl push empty = c' := by
    have hsecond : (empty.push p).push q = c := by
      simp [empty, push, extend, c, or_comm, em]
    rw [List.foldl_cons, List.foldl_cons, hsecond]
    exact foldl_push rfl rest
  obtain ⟨hhead, hopen⟩ : c'.head = .two p q ∧ c'.closed = false := foldl_extend_frame rest c
  have hclose : ofPoints (p :: q :: rest) =
      { c' with closed := true, startRedundant := c'.closesStraight }.extend p := by
    simp only [ofPoints, hc, close, hopen, hhead, push, Bool.false_eq_true, if_false]
  refine ⟨?_, ?_⟩
  · -- Closing the chain is one more step, to the first point.
    have hkept := foldl_extend_kept (rest ++ [p]) c
    rw [List.foldl_append] at hkept
    rw [tour_cons_cons, hclose, List.map_cons]
    exact hkept
  · have hlast : c'.last = rest.getLastD q := foldl_extend_last rest c
    rw [hclose]
    simp only [extend, closesStraight, hhead, hlast, startsInside]

theorem simplify_eq (l : List Point) (dropStart : Bool) :
    simplify l dropStart =
      (if dropStart && startsInside l then ((tour l).map Leg.point).drop 1
       else (tour l).map Leg.point, startsInside l) := by
  have hkept : (ofPoints l).kept.toList = (tour l).map Leg.point ∧
      (ofPoints l).startRedundant = startsInside l := by
    match l with
    | [] => exact ⟨rfl, rfl⟩
    | [p] => simp [ofPoints, empty, push, close, closesStraight, extend, tour, legs, startsInside]
    | p :: q :: rest => exact ofPoints_cons_cons p q rest
  rw [simplify, hkept.1, hkept.2]

theorem simplify_false (l : List Point) : (simplify l false).1 = (tour l).map Leg.point := by
  rw [simplify_eq, Bool.false_and, if_neg Bool.false_ne_true]

theorem simplify_true (l : List Point) :
    (simplify l true).1 = (if startsInside l then (tour l).tail else tour l).map Leg.point := by
  rw [simplify_eq, Bool.true_and, List.drop_one, List.map_tail.symm]
  split_ifs <;> rfl

/-! ## How legs follow each other -/

/-- The leg is a run to this point, or a step to it that is no step to a neighbour. -/
def Leg.Reaches (a : Leg) (q : Point) : Prop :=
  if a.code = 0 then stepCode a.point q = 0 else Leads a.code a.point q

/-- The leg reaches the start of the next one, which is not a run that goes on in the same way. -/
def Leg.Joins (a b : Leg) : Prop := a.Reaches b.point ∧ (b.code ≠ a.code ∨ b.code = 0)

variable {l : List Point} {ls : List Leg} {a b : Leg}

theorem Leg.reaches_step (hp : p.Wide) (hq : q.Wide) : Leg.Reaches ⟨p, stepCode p q⟩ q := by
  rw [Leg.Reaches]
  split_ifs with hcode
  · exact hcode
  · exact leads_stepCode hp hq hcode

theorem Leg.Reaches.leads (h : a.Reaches q) (ha : a.code ≠ 0) : Leads a.code a.point q := by
  rwa [Leg.Reaches, if_neg ha] at h

theorem Leg.Reaches.of_leads (h : Leads a.code a.point q) (ha : a.code ≠ 0) : a.Reaches q := by
  rwa [Leg.Reaches, if_neg ha]

theorem Leg.Reaches.step (h : a.Reaches p) (hp : p.Wide) (hq : q.Wide)
    (hcode : ¬(stepCode p q ≠ a.code ∨ stepCode p q = 0)) : a.Reaches q := by
  obtain ⟨hne, hstep⟩ := leads_of_continues hp hq hcode
  exact .of_leads ((h.leads hne).trans hstep hne) hne

theorem isChain_legs (h : a.Reaches p) (hl : ∀ q ∈ p :: rest, q.Wide) :
    (a :: legs a.code p rest).IsChain Leg.Joins := by
  -- Along the path, with the invariant that the leg under way reaches the point come to.
  induction rest generalizing a p with
  | nil => exact List.isChain_singleton a
  | cons q rest ih =>
    obtain ⟨hp, hrest⟩ := List.forall_mem_cons.1 hl
    have hq : q.Wide := hrest q List.mem_cons_self
    rw [legs]
    split_ifs with hcode
    · exact List.isChain_cons_cons.2 ⟨⟨h, hcode⟩, ih (Leg.reaches_step hp hq) hrest⟩
    · exact ih (h.step hp hq hcode) hrest

/-- The last leg reaches the end of the path, by the last step of the path. -/
theorem reaches_getLastD_legs (h : a.Reaches p) (hl : ∀ r ∈ p :: (rest ++ [q]), r.Wide) :
    ((legs a.code p (rest ++ [q])).getLastD a).Reaches q ∧
      ((legs a.code p (rest ++ [q])).getLastD a).code = stepCode (rest.getLastD p) q := by
  induction rest generalizing a p with
  | nil =>
    have hp : p.Wide := hl p (by simp)
    have hq : q.Wide := hl q (by simp)
    rw [List.nil_append, legs]
    split_ifs with hcode
    · -- The last step is a leg of its own, or else it belongs to the leg before.
      exact ⟨Leg.reaches_step hp hq, rfl⟩
    · exact ⟨h.step hp hq hcode, (not_ne_iff.1 (not_or.1 hcode).1).symm⟩
  | cons r rest ih =>
    obtain ⟨hp, hrest⟩ := List.forall_mem_cons.1 hl
    have hr : r.Wide := hrest r List.mem_cons_self
    rw [List.cons_append, legs, List.getLastD_cons]
    split_ifs with hcode
    · rw [List.getLastD_cons]
      exact ih (Leg.reaches_step hp hr) hrest
    · -- Inside the path the leg under way only changes as it does for the legs themselves.
      exact ih (h.step hp hr hcode) hrest

theorem isChain_concat_iff {α : Type} {R : α → α → Prop} {a z : α} {l : List α} :
    (a :: (l ++ [z])).IsChain R ↔ (a :: l).IsChain R ∧ R (l.getLastD a) z := by
  rw [← List.cons_append, List.isChain_append]
  simp [List.getLast?_cons]

/-- A closed contour goes on from the first leg to its first point. -/
theorem reaches_first (hl : ∀ r ∈ p :: q :: rest, r.Wide) :
    Leg.Reaches ⟨p, stepCode p q⟩ q ∧ ∀ r ∈ q :: (rest ++ [p]), r.Wide := by
  refine ⟨Leg.reaches_step (hl p (by simp)) (hl q (by simp)), fun r hr => ?_⟩
  exact hl r ((List.perm_append_singleton p (q :: rest)).subset hr)

/-- The legs of a closed contour, of which the last one reaches the first point. The two are parts of one
run when that point lies inside it. -/
theorem isChain_tour (hl : ∀ r ∈ l, r.Wide) (htour : tour l = a :: ls) :
    (a :: ls).IsChain Leg.Joins ∧ (ls.getLastD a).Reaches a.point ∧
      (startsInside l = true ↔ (ls.getLastD a).code = a.code ∧ a.code ≠ 0) := by
  match l with
  | [p] =>
    -- The closing step stays in place.
    obtain ⟨rfl, rfl⟩ : ⟨p, 0⟩ = a ∧ [] = ls := by simpa [tour, legs] using htour
    simp [Leg.Reaches, startsInside]
  | p :: q :: rest =>
    rw [tour_cons_cons, List.cons.injEq] at htour
    obtain ⟨rfl, rfl⟩ := htour
    obtain ⟨hfirst, hround⟩ := reaches_first hl
    obtain ⟨hreaches, hlast⟩ := reaches_getLastD_legs hfirst hround
    refine ⟨isChain_legs hfirst hround, hreaches, ?_⟩
    rw [startsInside_cons_cons, hlast]
    exact and_congr_right fun hsame => by rw [hsame]

/-- The last leg and the first one are two parts of a run through the first point. -/
theorem leads_of_startsInside (hl : ∀ r ∈ l, r.Wide) (htour : tour l = a :: b :: ls)
    (h : startsInside l = true) :
    a.code ≠ 0 ∧ (ls.getLastD b).code = a.code ∧ Leads a.code (ls.getLastD b).point a.point ∧
      Leads a.code a.point b.point := by
  obtain ⟨hchain, hreaches, hinside⟩ := isChain_tour hl htour
  rw [List.getLastD_cons] at hreaches hinside
  obtain ⟨hsame, hne⟩ := hinside.1 h
  exact ⟨hne, hsame, hsame ▸ hreaches.leads (hsame ▸ hne),
    (List.isChain_cons_cons.1 hchain).1.1.leads hne⟩

end Chain

end Perimeter
