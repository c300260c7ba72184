import Mathlib.Data.List.TakeWhile
import Perimeter.Chain

/-!
# The life of a chain

A chain is filled and read by calls in any order. The first call that reads closes it, and from then on
what the chain has kept is the compressed contour of the points that came before. Later points are lost;
they only make every later answer about the contour a fault.
-/

namespace Perimeter.Chain

/-! ## Calls and their answers -/

/-- A call on a chain. -/
inductive Call where
  | append (p : Point)
  /-- Reads the compressed contour. -/
  | readPoints
  /-- Reads whether the first point lies inside a straight run. -/
  | readStart
  | readFault
deriving DecidableEq, Repr

/-- The answer to a call. -/
inductive Answer where
  | done
  | points (contour : Except Fault (Array Point))
  | start (redundant : Bool)
  | fault (f : Option Fault)
deriving DecidableEq, Repr

namespace Call

/-- The call closes the chain. -/
def closes : Call → Bool
  | .readPoints | .readStart => true
  | .append _ | .readFault => false

/-- The point that the call appends. -/
def point? : Call → Option Point
  | .append p => some p
  | .readPoints | .readStart | .readFault => none

end Call

/-- The chain after a call, and the answer. -/
def call (c : Chain) : Call → Chain × Answer
  | .append p => (c.append p, .done)
  | .readPoints => (c.close, .points c.close.points)
  | .readStart => (c.close, .start c.close.startRedundant)
  | .readFault => (c, .fault c.fault?)

/-- The chain after some calls. -/
def afterCalls (c : Chain) (calls : List Call) : Chain := calls.foldl (fun c k => (c.call k).1) c

/-- The answers to some calls, one after the other. -/
def answers (c : Chain) : List Call → List Answer
  | [] => []
  | k :: calls => (c.call k).2 :: answers (c.call k).1 calls

/-- The points appended before the chain was closed. -/
def contourOf (calls : List Call) : List Point :=
  (calls.takeWhile fun k => !k.closes).filterMap Call.point?

/-- The points appended to the closed chain. -/
def lateOf (calls : List Call) : List Point :=
  (calls.dropWhile fun k => !k.closes).filterMap Call.point?

variable {c : Chain} {k : Call} {calls front back : List Call}

theorem answers_append_cons (c : Chain) (front : List Call) (k : Call) (back : List Call) :
    (answers c (front ++ k :: back))[front.length]? = some ((c.afterCalls front).call k).2 := by
  induction front generalizing c with
  | nil => rfl
  | cons k' front ih => exact ih (c.call k').1

/-! ## What calls leave of a chain -/

theorem push_frame (c : Chain) (q : Point) :
    (c.push q).closed = c.closed ∧ (c.push q).misused = c.misused := by
  rw [push]
  split <;> exact ⟨rfl, rfl⟩

theorem foldl_push_frame (c : Chain) (l : List Point) :
    (l.foldl push c).closed = c.closed ∧ (l.foldl push c).misused = c.misused := by
  induction l generalizing c with
  | nil => exact ⟨rfl, rfl⟩
  | cons q l ih =>
    obtain ⟨hclosed, hmisused⟩ := push_frame c q
    rw [List.foldl_cons, (ih _).1, (ih _).2]
    exact ⟨hclosed, hmisused⟩

theorem close_of_closed (hc : c.closed = true) : c.close = c := by
  rw [close, if_pos hc]

theorem close_frame (hc : c.closed = false) : c.close.closed = true ∧ c.close.misused = c.misused := by
  rw [close, if_neg (Bool.eq_false_iff.1 hc)]
  split
  · exact ⟨rfl, rfl⟩
  · exact push_frame _ _
  · exact push_frame _ _

theorem ofPoints_frame (l : List Point) :
    (ofPoints l).closed = true ∧ (ofPoints l).misused = false := by
  obtain ⟨hclosed, hmisused⟩ := foldl_push_frame empty l
  obtain ⟨hclose, hkeeps⟩ := close_frame hclosed
  exact ⟨hclose, hkeeps.trans hmisused⟩

/-- Until it is closed, a chain only takes points. -/
theorem afterCalls_of_open (hc : c.closed = false) (h : ∀ k ∈ calls, k.closes = false) :
    c.afterCalls calls = (calls.filterMap Call.point?).foldl push c := by
  induction calls generalizing c with
  | nil => rfl
  | cons k calls ih =>
    obtain ⟨hk, hcalls⟩ := List.forall_mem_cons.1 h
    cases k with
    | append p =>
      have hpush : c.append p = c.push p := by rw [append, hc, if_neg Bool.false_ne_true]
      have hopen : (c.push p).closed = false := (push_frame c p).1.trans hc
      change (c.append p).afterCalls calls = _
      rw [hpush, ih hopen hcalls]
      rfl
    | readFault => exact ih hc hcalls
    | readPoints => cases hk
    | readStart => cases hk

/-- Once it is closed, a chain only remembers whether a point came. -/
theorem afterCalls_of_closed (hc : c.closed = true) (calls : List Call) :
    c.afterCalls calls =
      { c with misused := c.misused || !(calls.filterMap Call.point?).isEmpty } := by
  induction calls generalizing c with
  | nil => simp [afterCalls]
  | cons k calls ih =>
    cases k with
    | append p =>
      have hlate : c.append p = { c with misused := true } := by rw [append, if_pos hc]
      change (c.append p).afterCalls calls = _
      rw [hlate, ih (c := { c with misused := true }) hc]
      simp [Call.point?]
    | readFault => exact ih hc
    | readPoints =>
      change c.close.afterCalls calls = _
      rw [close_of_closed hc]
      exact ih hc
    | readStart =>
      change c.close.afterCalls calls = _
      rw [close_of_closed hc]
      exact ih hc

/-! ## Sessions -/

/-- A chain is closed by the first call that closes it. -/
theorem exists_first_closes (h : ∃ k ∈ calls, k.closes = true) :
    ∃ opening k rest, calls = opening ++ k :: rest ∧ (∀ k ∈ opening, k.closes = false) ∧
      k.closes = true := by
  obtain ⟨k, hk⟩ := Option.isSome_iff_exists.1 (List.find?_isSome.2 h)
  obtain ⟨hcloses, opening, rest, rfl, hopening⟩ := List.find?_eq_some_iff_append.1 hk
  exact ⟨opening, k, rest, rfl, fun k' hk' => by simpa using hopening k' hk', hcloses⟩

theorem contourOf_of_open (h : ∀ k ∈ calls, k.closes = false) :
    contourOf calls = calls.filterMap Call.point? ∧ lateOf calls = [] := by
  have hopen : ∀ k ∈ calls, (!k.closes) = true := fun k hk => by rw [h k hk, Bool.not_false]
  rw [contourOf, lateOf, List.takeWhile_eq_self_iff.2 hopen, List.dropWhile_eq_nil_iff.2 hopen]
  exact ⟨rfl, rfl⟩

theorem contourOf_append_cons (h : ∀ k ∈ front, k.closes = false) (hk : k.closes = true)
    (back : List Call) :
    contourOf (front ++ k :: back) = front.filterMap Call.point? ∧
      lateOf (front ++ k :: back) = back.filterMap Call.point? := by
  have hopen : ∀ k ∈ front, (!k.closes) = true := fun k hk => by rw [h k hk, Bool.not_false]
  have hpoint : k.point? = none := by cases k <;> trivial
  rw [contourOf, lateOf, List.takeWhile_append_of_pos hopen, List.dropWhile_append_of_pos hopen,
    List.takeWhile_cons_of_neg (by simp [hk]), List.dropWhile_cons_of_neg (by simp [hk]),
    List.append_nil, List.filterMap_cons_none hpoint]
  exact ⟨rfl, rfl⟩

theorem contourOf_append (h : ∃ k ∈ front, k.closes = true) (back : List Call) :
    contourOf (front ++ back) = contourOf front := by
  obtain ⟨opening, k, rest, rfl, hopening, hk⟩ := exists_first_closes h
  rw [List.append_assoc, List.cons_append, (contourOf_append_cons hopening hk _).1,
    (contourOf_append_cons hopening hk _).1]

/-- A closed chain is the chain of its contour, whatever was read since, apart from the mark that a point
came too late. -/
theorem afterCalls_of_closes (h : ∃ k ∈ calls, k.closes = true) :
    empty.afterCalls calls =
      { ofPoints (contourOf calls) with misused := !(lateOf calls).isEmpty } := by
  obtain ⟨opening, k, rest, rfl, hopening, hk⟩ := exists_first_closes h
  obtain ⟨hcontour, hlate⟩ := contourOf_append_cons hopening hk rest
  obtain ⟨hclosed, hmisused⟩ := ofPoints_frame (opening.filterMap Call.point?)
  have hclose : ((empty.afterCalls opening).call k).1 = ofPoints (opening.filterMap Call.point?) := by
    rw [afterCalls_of_open rfl hopening, ofPoints]
    cases k <;> trivial
  rw [hcontour, hlate, afterCalls, List.foldl_append, List.foldl_cons]
  change (((empty.afterCalls opening).call k).1).afterCalls rest = _
  rw [hclose, afterCalls_of_closed hclosed, hmisused, Bool.false_or]

theorem misused_afterCalls (calls : List Call) :
    (empty.afterCalls calls).misused = !(lateOf calls).isEmpty := by
  by_cases h : ∃ k ∈ calls, k.closes = true
  · rw [afterCalls_of_closes h]
  · have hopen : ∀ k ∈ calls, k.closes = false := by simpa using h
    rw [afterCalls_of_open rfl hopen, (foldl_push_frame _ _).2, (contourOf_of_open hopen).2]
    rfl

/-- Whenever a chain is read, it is closed with the points that came before the first time. -/
theorem close_afterCalls (h : ∃ k' ∈ front ++ [k], k'.closes = true) (back : List Call) :
    (empty.afterCalls front).close =
      { ofPoints (contourOf (front ++ k :: back)) with misused := !(lateOf front).isEmpty } := by
  by_cases hfront : ∃ k' ∈ front, k'.closes = true
  · rw [contourOf_append hfront, afterCalls_of_closes hfront]
    exact close_of_closed (ofPoints_frame _).1
  · have hopen : ∀ k' ∈ front, k'.closes = false := by simpa using hfront
    have hk : k.closes = true := by
      obtain ⟨k', hk', hcloses⟩ := h
      obtain hk' | hk' := List.mem_append.1 hk'
      · exact absurd ⟨k', hk', hcloses⟩ hfront
      · exact List.mem_singleton.1 hk' ▸ hcloses
    rw [(contourOf_append_cons hopen hk back).1, (contourOf_of_open hopen).2,
      afterCalls_of_open rfl hopen]
    have hfresh := (ofPoints_frame (front.filterMap Call.point?)).2
    change ofPoints _ = { ofPoints _ with misused := false }
    rw [← hfresh]

/-- What a chain answers in any session of calls. The points appended before the first reading are the
contour. Until a point comes later, the points read are those of the compressed contour and there is no
fault; from then on there is always the same fault. The mark on the first point is that of the compressed
contour all the time. A later point changes nothing about the chain but that it came. -/
theorem session_answers (calls : List Call) :
    ∃ f : Fault, f.kind = .state ∧ ∀ front k back, calls = front ++ k :: back →
      let answer := (empty.answers calls)[front.length]?
      match k with
      | .readPoints => answer = some (.points
          (if lateOf front = [] then .ok (simplify (contourOf calls) false).1.toArray else .error f))
      | .readStart => answer = some (.start (simplify (contourOf calls) false).2)
      | .readFault => answer = some (.fault (if lateOf front = [] then none else some f))
      | .append p => (∃ k' ∈ front, k'.closes = true) →
          (empty.afterCalls front).kept.toList = (simplify (contourOf calls) false).1 ∧
          (empty.afterCalls front).startRedundant = (simplify (contourOf calls) false).2 ∧
          (empty.afterCalls front).append p = { empty.afterCalls front with misused := true } := by
  refine ⟨.chainClosed, rfl, ?_⟩
  rintro front k back rfl
  rw [answers_append_cons]
  cases k with
  | append p =>
    intro _ hfront
    rw [contourOf_append hfront, afterCalls_of_closes hfront]
    refine ⟨rfl, rfl, ?_⟩
    rw [append, if_pos (ofPoints_frame _).1]
  | readPoints =>
    have hread : ∃ k' ∈ front ++ [Call.readPoints], k'.closes = true := ⟨.readPoints, by simp, rfl⟩
    have hclose := close_afterCalls hread back
    simp only [call, points, hclose, simplify]
    cases lateOf front <;> simp
  | readStart =>
    have hread : ∃ k' ∈ front ++ [Call.readStart], k'.closes = true := ⟨.readStart, by simp, rfl⟩
    have hclose := close_afterCalls hread back
    simp only [call, hclose, simplify]
  | readFault =>
    simp only [call, fault?, misused_afterCalls]
    cases lateOf front <;> rfl

/-- A row that is appended to after its contour was read: reading it again fails, and the mark stays. -/
example :
    empty.answers [.append ⟨1, 0⟩, .append ⟨2, 0⟩, .append ⟨0, 0⟩, .readPoints, .append ⟨9, 9⟩,
        .readPoints, .readStart] =
      [.done, .done, .done, .points (.ok #[⟨1, 0⟩, ⟨2, 0⟩, ⟨0, 0⟩]), .done,
        .points (.error .chainClosed), .start true] := by decide

end Perimeter.Chain
