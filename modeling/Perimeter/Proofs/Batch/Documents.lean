import Perimeter.Batch.Run
import Perimeter.Proofs.Crew.Report

/-!
# The documents of a batch

Every file of a batch has an outcome of its own: that of loading it, and then that of finding blobs in
its image. The documents list these outcomes in the order of the files, although the images are counted
anew after loading and their failures come from another list.
-/

namespace Perimeter

open List (Forall₂)

namespace Batch

variable {cfg : Blob.Config} {o : Options} {attempts : List Attempt} {report : Crew.Report}

/-- The image that was loaded, as a picture. -/
def Attempt.ink? (a : Attempt) : Option Picture := a.loaded?.map (·.ink)

/-- What came out for a file: what loading it gave, and then its blobs. -/
def Attempt.outcome (a : Attempt) (cfg : Blob.Config) : Except Failure Blob.Result := do
  let l ← a.loaded
  Blob.find l.ink cfg

/-- The document that reports an outcome: an error or a result, never both. -/
def documentOf (file : String) : Except Failure Blob.Result → Document
  | .ok r => { file, result := some r }
  | .error e => { file, error := e.message }

/-- A document reports the outcome of a file: an error that says something, or a result, never both. -/
inductive Reports (file : String) : Except Failure Blob.Result → Document → Prop where
  | result (r : Blob.Result) : Reports file (.ok r) { file, error := "", result := some r }
  | error {e : Failure} (h : e.message ≠ "") :
    Reports file (.error e) { file, error := e.message, result := none }

/-! ## Images and their files -/

theorem map_ink_loadedImages (attempts : List Attempt) :
    (loadedImages attempts).map (fun (_, _, l) => l.ink) = attempts.filterMap Attempt.ink? := by
  conv_rhs => rw [← List.zipIdx_map_fst 0 attempts, List.filterMap_map]
  rw [loadedImages, List.map_filterMap]
  refine List.filterMap_congr fun z _ => ?_
  simp only [Option.map_map, Function.comp_def, Attempt.ink?]

/-- The report on the loaded images of a batch that is not called off. -/
theorem extract_eq (o : Options) (attempts : List Attempt) :
    extract o attempts false =
      { results := some ((attempts.filterMap Attempt.ink?).map fun p => (Blob.find p o.blob).toOption)
        progress := (List.range (attempts.filterMap Attempt.ink?).length).map fun k =>
          (k + 1, (attempts.filterMap Attempt.ink?).length)
        failed := Crew.failuresOf (attempts.filterMap Attempt.ink?) o.blob
        failure := Crew.firstFailure (Crew.failuresOf (attempts.filterMap Attempt.ink?) o.blob) } := by
  rw [← map_ink_loadedImages, extract]
  cases h : loadedImages attempts with
  | nil => rfl
  | cons z rest =>
    simp only [Crew.findAll, List.map_cons, List.isEmpty_cons, Bool.false_eq_true, if_false]
    exact Crew.conclude_of_perm (List.Perm.refl _)

/-- Looking up a place among the members of a list that have a value. -/
theorem lookup_filterMap_zipIdx {α β : Type} (g : α → Option β) (l : List α) (n k : Nat) :
    ((l.zipIdx n).filterMap fun z => (g z.1).map fun e => (z.2, e)).lookup k =
      if n ≤ k then l[k - n]?.bind g else none := by
  induction l generalizing n with
  | nil => simp
  | cons a l ih =>
    rw [List.zipIdx_cons, List.filterMap_cons]
    rcases eq_or_ne k n with rfl | hne
    · -- What follows has greater places.
      have hrest := ih (k + 1)
      rw [if_neg (by omega)] at hrest
      cases hg : g a with
      | none => simpa [hg] using hrest
      | some e => simp [hg]
    · have hcons : (if n ≤ k then (a :: l)[k - n]?.bind g else none) =
          if n + 1 ≤ k then l[k - (n + 1)]?.bind g else none := by
        by_cases hle : n + 1 ≤ k
        · obtain ⟨m, rfl⟩ := Nat.exists_eq_add_of_le hle
          have hsub : n + 1 + m - n = m + 1 := by omega
          simp [hsub, if_pos (show n ≤ n + 1 + m by omega)]
        · rw [if_neg hle, if_neg (by omega)]
      rw [hcons, ← ih (n + 1)]
      cases g a with
      | none => rfl
      | some e => simp [List.lookup_cons, beq_eq_false_iff_ne.2 hne]

/-- The failure of a picture is looked up under its place. -/
theorem lookup_failuresOf (pictures : List Picture) (cfg : Blob.Config) (k : Nat) :
    (Crew.failuresOf pictures cfg).lookup k =
      pictures[k]?.bind fun p => Crew.failure? (Blob.find p cfg) := by
  have hlookup := lookup_filterMap_zipIdx (fun p => Crew.failure? (Blob.find p cfg)) pictures 0 k
  rw [if_pos (Nat.zero_le k), Nat.sub_zero] at hlookup
  exact hlookup

/-! ## Documents -/

/-- The document of a loaded image reports what was found in it. -/
theorem tracedDocument_eq {pictures : List Picture} {k : Nat} {p : Picture} (file : String)
    (hp : pictures[k]? = some p)
    (hresults : report.results = some (pictures.map fun p => (Blob.find p cfg).toOption))
    (hfailed : report.failed = Crew.failuresOf pictures cfg) :
    tracedDocument report k file = documentOf file (Blob.find p cfg) := by
  rw [tracedDocument, hfailed, lookup_failuresOf, hp, hresults]
  cases hfind : Blob.find p cfg with
  | error e => simp [Crew.failure?, documentOf, hfind]
  | ok r => simp [Crew.failure?, documentOf, hp, hfind, Except.toOption]

/-- The documents are those of the outcomes of the files. The images of the files before are counted by
`before`. -/
theorem documents_eq (before : List Picture) (attempts : List Attempt)
    (hresults : report.results = some ((before ++ attempts.filterMap Attempt.ink?).map fun p =>
      (Blob.find p cfg).toOption))
    (hfailed : report.failed = Crew.failuresOf (before ++ attempts.filterMap Attempt.ink?) cfg) :
    documents report before.length attempts =
      attempts.map fun a => documentOf a.file (a.outcome cfg) := by
  induction attempts generalizing before with
  | nil => rfl
  | cons a rest ih =>
    rw [documents, List.map_cons]
    cases hloaded : a.loaded with
    | error e =>
      have hink : a.ink? = none := by rw [Attempt.ink?, Attempt.loaded?, hloaded]; rfl
      simp only [List.filterMap_cons, hink] at hresults hfailed
      have hdocument : documentOf a.file (a.outcome cfg) = { file := a.file, error := e.message } := by
        rw [Attempt.outcome, hloaded]
        rfl
      rw [hdocument, ih before hresults hfailed]
    | ok l =>
      have hink : a.ink? = some l.ink := by rw [Attempt.ink?, Attempt.loaded?, hloaded]; rfl
      simp only [List.filterMap_cons, hink] at hresults hfailed
      have hplace : (before ++ l.ink :: rest.filterMap Attempt.ink?)[before.length]? = some l.ink := by
        simp
      have houtcome : a.outcome cfg = Blob.find l.ink cfg := by
        rw [Attempt.outcome, hloaded]
        rfl
      have hrest := ih (before ++ [l.ink]) (by simpa using hresults) (by simpa using hfailed)
      rw [List.length_append, List.length_singleton] at hrest
      rw [houtcome, tracedDocument_eq a.file hplace hresults hfailed, hrest]

/-! ## Counting failures -/

theorem countP_zipIdx {α : Type} (q : α → Bool) (l : List α) :
    l.zipIdx.countP (fun z => q z.1) = l.countP q := by
  conv_rhs => rw [← List.zipIdx_map_fst 0 l, List.countP_map]
  rfl

theorem length_loadFailures (attempts : List Attempt) :
    (loadFailures attempts).length = attempts.countP fun a => a.failure?.isSome := by
  rw [loadFailures, List.length_filterMap_eq_countP]
  simp only [Option.isSome_map]
  exact countP_zipIdx (fun a => a.failure?.isSome) attempts

theorem length_failuresOf (pictures : List Picture) (cfg : Blob.Config) :
    (Crew.failuresOf pictures cfg).length =
      pictures.countP fun p => (Crew.failure? (Blob.find p cfg)).isSome := by
  rw [Crew.failuresOf, List.length_filterMap_eq_countP]
  simp only [Option.isSome_map]
  exact countP_zipIdx (fun p => (Crew.failure? (Blob.find p cfg)).isSome) pictures

/-- A file fails in one of the two phases. -/
theorem length_failures (attempts : List Attempt) (cfg : Blob.Config) :
    (loadFailures attempts).length +
        (Crew.failuresOf (attempts.filterMap Attempt.ink?) cfg).length =
      attempts.countP fun a => (Crew.failure? (a.outcome cfg)).isSome := by
  rw [length_loadFailures, length_failuresOf, List.countP_filterMap]
  induction attempts with
  | nil => rfl
  | cons a rest ih =>
    have hphase : (if a.failure?.isSome then 1 else 0) + (if (a.ink?.map fun p =>
        (Crew.failure? (Blob.find p cfg)).isSome).getD false then 1 else 0) =
          if (Crew.failure? (a.outcome cfg)).isSome then 1 else 0 := by
      rw [Attempt.failure?, Attempt.ink?, Attempt.loaded?, Attempt.outcome]
      cases a.loaded with
      | error e => rfl
      | ok l => exact Nat.zero_add _
    simp only [List.countP_cons]
    omega

section

variable {out : String → Except Failure Blob.Result}
  (hmessage : ∀ f e, out f = .error e → e.message ≠ "")
include hmessage

/-- As many files fail as documents have an error. -/
theorem countP_documents (files : List String) :
    ((files.map fun f => documentOf f (out f)).countP fun d => d.error ≠ "") =
      files.countP fun f => (Crew.failure? (out f)).isSome := by
  rw [List.countP_map]
  refine List.countP_congr fun f _ => ?_
  cases hout : out f with
  | error e => simp [documentOf, Crew.failure?, hmessage f e hout, hout]
  | ok r => simp [documentOf, Crew.failure?, hout]

theorem forall₂_reports (files : List String) :
    Forall₂ (fun f d => Reports f (out f) d) files (files.map fun f => documentOf f (out f)) := by
  rw [List.forall₂_map_right_iff, List.forall₂_same]
  intro f _
  cases hout : out f with
  | error e => exact .error (hmessage f e hout)
  | ok r => exact .result r

end

end Batch

end Perimeter
