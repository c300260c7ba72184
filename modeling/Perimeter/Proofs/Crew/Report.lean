import Mathlib.Data.List.Perm.Basic
import Perimeter.Crew.Basic

/-!
# Reports do not depend on the order

A report is read off the finished pictures by their places. So whoever collected all of them, in
whatever order, reports the same, and the report can be written down from the list of pictures alone.
-/

namespace Perimeter.Crew

variable {pictures : List Picture} {cfg : Blob.Config} {done : List Finished}

theorem mem_outcomes {r : Finished} :
    r ∈ outcomes pictures cfg ↔ ∃ p, pictures[r.index]? = some p ∧ r.outcome = Blob.find p cfg := by
  simp only [outcomes, List.mem_map, Prod.exists]
  constructor
  · rintro ⟨p, i, hmem, rfl⟩
    exact ⟨p, List.mem_zipIdx_iff_getElem?.1 hmem, rfl⟩
  · rintro ⟨p, hp, hout⟩
    refine ⟨p, r.index, List.mem_zipIdx_iff_getElem?.2 hp, ?_⟩
    rw [← hout]

/-- Once all pictures are finished, the outcome at a place is that of the picture there. -/
theorem outcomeAt_of_perm (h : done.Perm (outcomes pictures cfg)) (i : Nat) :
    outcomeAt done i = pictures[i]?.map (Blob.find · cfg) := by
  have hmem : ∀ r ∈ done, ∃ p, pictures[r.index]? = some p ∧ r.outcome = Blob.find p cfg :=
    fun r hr => mem_outcomes.1 (h.mem_iff.1 hr)
  cases hfound : done.find? (·.index == i) with
  | none =>
    -- Nothing was finished at this place, so there is no picture.
    cases hp : pictures[i]? with
    | none => simp [outcomeAt, hfound]
    | some p =>
      have hdone : (⟨i, Blob.find p cfg⟩ : Finished) ∈ done := h.mem_iff.2 (mem_outcomes.2 ⟨p, hp, rfl⟩)
      have hmiss := List.find?_eq_none.1 hfound _ hdone
      simp at hmiss
  | some r =>
    obtain ⟨p, hp, hout⟩ := hmem r (List.mem_of_find?_eq_some hfound)
    have hplace : r.index = i := by simpa using List.find?_some hfound
    rw [hplace] at hp
    simp [outcomeAt, hfound, hp, hout]

/-- The failure of an outcome, if it is one. -/
def failure? : Except Failure Blob.Result → Option Failure
  | .error e => some e
  | .ok _ => none

theorem resultAt_eq_bind (done : List Finished) (i : Nat) :
    resultAt done i = (outcomeAt done i).bind Except.toOption := by
  rw [resultAt]
  cases outcomeAt done i with
  | none => rfl
  | some out => cases out <;> rfl

theorem failureAt_eq_bind (done : List Finished) (i : Nat) :
    failureAt done i = (outcomeAt done i).bind failure? := by
  rw [failureAt]
  cases outcomeAt done i with
  | none => rfl
  | some out => cases out <;> rfl

/-- The failures of a list of pictures, with their places. -/
def failuresOf (pictures : List Picture) (cfg : Blob.Config) : List (Nat × Failure) :=
  pictures.zipIdx.filterMap fun (p, i) => (failure? (Blob.find p cfg)).map fun e => (i, e)

theorem results_of_perm (h : done.Perm (outcomes pictures cfg)) :
    (List.range pictures.length).map (resultAt done) =
      pictures.map fun p => (Blob.find p cfg).toOption := by
  refine List.ext_getElem (by simp) fun i hi hi' => ?_
  rw [List.length_map] at hi'
  simp [resultAt_eq_bind, outcomeAt_of_perm h, hi']

theorem failures_of_perm (h : done.Perm (outcomes pictures cfg)) :
    failures done pictures.length = failuresOf pictures cfg := by
  have hplaces : List.range pictures.length = pictures.zipIdx.map Prod.snd := by
    simp [List.range_eq_range']
  rw [failures, hplaces, List.filterMap_map, failuresOf]
  refine List.filterMap_congr fun z hz => ?_
  obtain ⟨p, i⟩ := z
  have hp := List.mem_zipIdx_iff_getElem?.1 hz
  simp only [Function.comp_apply, failureAt_eq_bind, outcomeAt_of_perm h]
  simp only at hp
  simp [hp]

/-- The report on all pictures, whoever finished them in whatever order. -/
theorem conclude_of_perm (h : done.Perm (outcomes pictures cfg)) :
    conclude pictures.length done =
      { results := some (pictures.map fun p => (Blob.find p cfg).toOption)
        progress := (List.range pictures.length).map fun k => (k + 1, pictures.length)
        failed := failuresOf pictures cfg
        failure := firstFailure (failuresOf pictures cfg) } := by
  have hcount : done.length = pictures.length := by
    rw [h.length_eq]
    simp [outcomes]
  rw [conclude, results_of_perm h, failures_of_perm h, countUp, hcount]

end Perimeter.Crew
