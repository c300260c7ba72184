import Perimeter.Proofs.Batch.Documents
import Perimeter.Proofs.Blob.Contours
import Perimeter.Proofs.Crew.Run

/-!
# The books of a batch

A batch that notes failures always comes to its end; the number of failures is that of the documents with
an error, and the events count up to the number of files. A batch that does not note failures ends with
the first one. The crew that shares out the images has no part in it.
-/

namespace Perimeter

open List (Forall₂)

/-! ## Failures have messages -/

theorem Fault.message_ne_empty (f : Fault) : f.message ≠ "" := by
  simp [message, ToString.toString]

/-- A failure says something, unless it was made from an empty text. -/
theorem Failure.message_ne_empty {e : Failure} (h : e ≠ .plain "") : e.message ≠ "" := by
  cases e with
  | fault f => exact f.message_ne_empty
  | image operation cause =>
    change s!"image processing error in {operation}: {cause}" ≠ ""
    simp [ToString.toString]
  | plain text => exact fun hempty => h (congrArg Failure.plain hempty)
  | during activity inner =>
    change s!"{activity}: {inner.message}" ≠ ""
    simp [ToString.toString]

namespace Batch

variable {cfg : Blob.Config} {o : Options} {attempts : List Attempt} {report : Crew.Report}

/-! ## Events -/

/-- The numbers of a progress event: how many files are done, of how many. -/
def Event.progress? : Event → Option (Int × Int)
  | progressed current total => some (current, total)
  | _ => none

/-- The progress of a run, as it was told. -/
def Run.progress (r : Run) : List (Int × Int) := r.events.filterMap Event.progress?

/-- The progress that a notice tells. -/
def Notice.progress? (n : Notice) : Option (Int × Int) := n.event?.bind Event.progress?

theorem Run.progress_eq (r : Run) : r.progress = r.history.filterMap Notice.progress? := by
  rw [progress, events, List.filterMap_filterMap]
  rfl

/-- Nothing that is told about files that were not loaded is progress. -/
theorem progress_skipped (i : Nat) (file : String) (e : Failure) :
    (skipped i file e).filterMap Notice.progress? = [] := rfl

/-- Going through the images at the end tells failures and overlays. -/
theorem progress_wrapUp (o : Options) (report : Crew.Report) (t : FileTree) (k : Nat)
    (images : List (Nat × String × Loaded)) :
    (wrapUp o report t k images).2.filterMap Notice.progress? = [] := by
  induction images generalizing t k with
  | nil => rfl
  | cons z rest ih =>
    rw [wrapUp]
    split
    · exact ih t (k + 1)
    · split
      · exact ih _ (k + 1)
      · exact ih t (k + 1)

/-- What a batch tells of its progress. -/
theorem progress_finish (t : FileTree) (o : Options) (attempts : List Attempt) (report : Crew.Report)
    {before : List Notice} (hbefore : before.filterMap Notice.progress? = []) :
    (finish t o attempts report before).progress =
      report.progress.map fun z =>
        ((((loadFailures attempts).length + z.1 : Nat) : Int), (attempts.length : Int)) := by
  have hevents : ((progressEvents attempts report).map Notice.event).filterMap Notice.progress? =
      report.progress.map fun z =>
        ((((loadFailures attempts).length + z.1 : Nat) : Int), (attempts.length : Int)) := by
    rw [progressEvents, List.map_map, List.filterMap_map, ← List.filterMap_eq_map]
    rfl
  rw [Run.progress_eq, finish]
  split
  · rw [List.filterMap_append, hbefore, hevents, List.nil_append]
  · simp only [List.filterMap_append, hbefore, hevents, progress_wrapUp, List.nil_append]
    simp [Notice.progress?, Notice.event?, Event.progress?]

/-! ## Running over files -/

/-- What comes of a file on its own: what loading it gives, and then its blobs. -/
def fileOutcome (load : String → Except Failure Loaded) (cfg : Blob.Config) (file : String) :
    Except Failure Blob.Result := do
  let l ← load file
  Blob.find l.ink cfg

section

variable {load : String → Except Failure Loaded} {t : FileTree} {files : List String}

/-- Why a file cannot be loaded, if it cannot. -/
def loadFailure? (load : String → Except Failure Loaded) (file : String) : Option Failure :=
  (Attempt.mk file (load file)).failure?

/-- What loading made of the files. -/
def attemptsOf (load : String → Except Failure Loaded) (files : List String) : List Attempt :=
  files.map fun f => ⟨f, load f⟩

theorem countP_attemptsOf (load : String → Except Failure Loaded) (files : List String)
    (cfg : Blob.Config) :
    ((attemptsOf load files).countP fun a => (Crew.failure? (a.outcome cfg)).isSome) =
      files.countP fun f => (Crew.failure? (fileOutcome load cfg f)).isSome := by
  rw [attemptsOf, List.countP_map]
  rfl

/-- The first file that was not loaded decides the failure of loading. -/
theorem head?_loadFailures (load : String → Except Failure Loaded) (files : List String) :
    (loadFailures (attemptsOf load files)).head?.map (fun z => z.2.2) =
      files.findSome? (loadFailure? load) := by
  have hzip := List.findSome?_map (p := Attempt.failure?) (f := Prod.fst)
    (l := (attemptsOf load files).zipIdx)
  rw [List.zipIdx_map_fst, attemptsOf, List.findSome?_map] at hzip
  rw [loadFailures, List.head?_filterMap, List.map_findSome?]
  refine Eq.trans (congrArg (fun g => List.findSome? g _) ?_) hzip.symm
  funext z
  simp only [Function.comp_apply, Option.map_map]
  exact Option.map_id'

/-- What is told before the second phase. -/
def noticesBefore (attempts : List Attempt) : List Notice :=
  .event (.started attempts.length) ::
    (loadFailures attempts).flatMap fun z => skipped z.1 z.2.1 z.2.2

theorem progress_noticesBefore (attempts : List Attempt) :
    (noticesBefore attempts).filterMap Notice.progress? = [] := by
  rw [noticesBefore, List.filterMap_cons, List.filterMap_flatMap]
  simp only [progress_skipped]
  simp [Notice.progress?, Notice.event?, Event.progress?]

/-- The second phase, for images that were loaded from files. -/
def finishFiles (load : String → Except Failure Loaded) (t : FileTree) (files : List String)
    (o : Options) : Run :=
  finish t o (attemptsOf load files) (extract o (attemptsOf load files) false)
    (noticesBefore (attemptsOf load files))

theorem runFiles_eq_error_of_head? {z : Nat × String × Failure} (hstop : o.continueOnError = false)
    (hhead : (loadFailures (attemptsOf load files)).head? = some z) :
    (runFiles load t files o false).outcome = .error z.2.2 := by
  rw [attemptsOf] at hhead
  simp [runFiles, hstop, hhead]

theorem runFiles_eq_finishFiles (h : o.continueOnError = true ∨
    (loadFailures (attemptsOf load files)).head? = none) :
    runFiles load t files o false = finishFiles load t files o := by
  have hhead : (if o.continueOnError then none else (loadFailures (attemptsOf load files)).head?) =
      none := by
    rcases h with hon | hempty
    · rw [if_pos hon]
    · rw [hempty, ite_self]
  rw [attemptsOf] at hhead
  rw [runFiles]
  simp only [hhead]
  rw [finishFiles, noticesBefore, attemptsOf, List.length_map]

/-- The two phases fail together as often as the files. -/
theorem length_failures_attemptsOf (load : String → Except Failure Loaded) (files : List String)
    (cfg : Blob.Config) :
    (loadFailures (attemptsOf load files)).length +
        (Crew.failuresOf ((attemptsOf load files).filterMap Attempt.ink?) cfg).length =
      files.countP fun f => (Crew.failure? (fileOutcome load cfg f)).isSome :=
  (length_failures _ cfg).trans (countP_attemptsOf load files cfg)

/-- The documents are those of the files, each on its own. -/
theorem documents_outcomeOf (load : String → Except Failure Loaded) (files : List String)
    (o : Options) :
    (outcomeOf o (attemptsOf load files) (extract o (attemptsOf load files) false)).documents =
      files.map fun f => documentOf f (fileOutcome load o.blob f) := by
  have hdocuments : documents (extract o (attemptsOf load files) false) 0 (attemptsOf load files) =
      (attemptsOf load files).map fun a => documentOf a.file (a.outcome o.blob) :=
    documents_eq [] (attemptsOf load files) (by rw [extract_eq]; rfl) (by rw [extract_eq]; rfl)
  rw [outcomeOf]
  refine hdocuments.trans ?_
  rw [attemptsOf, List.map_map]
  rfl

theorem failed_outcomeOf (load : String → Except Failure Loaded) (files : List String) (o : Options) :
    (outcomeOf o (attemptsOf load files) (extract o (attemptsOf load files) false)).failed =
      (files.countP fun f => (Crew.failure? (fileOutcome load o.blob f)).isSome : Nat) := by
  rw [← length_failures_attemptsOf, outcomeOf, extract_eq]
  exact (Int.natCast_add _ _).symm

theorem files_outcomeOf (load : String → Except Failure Loaded) (files : List String) (o : Options)
    (report : Crew.Report) : (outcomeOf o (attemptsOf load files) report).files = files := by
  simp [outcomeOf, attemptsOf, Function.comp_def]

/-- When failures are noted, or when there are none, a batch comes to its end. -/
theorem finishes (t : FileTree) (hgo : o.continueOnError = true ∨
    ∀ f ∈ files, ∃ r, fileOutcome load o.blob f = .ok r) :
    runFiles load t files o false = finishFiles load t files o ∧
      (finishFiles load t files o).outcome =
        .ok (outcomeOf o (attemptsOf load files) (extract o (attemptsOf load files) false)) := by
  have hend : (o.continueOnError = true ∨ (loadFailures (attemptsOf load files)).head? = none) ∧
      fatal? o (extract o (attemptsOf load files) false) = none := by
    rw [extract_eq, fatal?]
    rcases hgo with hon | hall
    · simp only [hon, Bool.not_true, Option.isNone_some, Bool.or_self, Bool.false_eq_true, if_false]
      exact ⟨.inl trivial, by split <;> rfl⟩
    · have hcount : (files.countP fun f => (Crew.failure? (fileOutcome load o.blob f)).isSome) = 0 := by
        refine List.countP_eq_zero.2 fun f hf => ?_
        obtain ⟨r, hr⟩ := hall f hf
        simp [hr, Crew.failure?]
      have hlength := length_failures_attemptsOf load files o.blob
      rw [hcount, Nat.add_eq_zero_iff, List.length_eq_zero_iff, List.length_eq_zero_iff] at hlength
      obtain ⟨hloads, hfinds⟩ := hlength
      rw [hloads, hfinds]
      exact ⟨.inr rfl, rfl⟩
  refine ⟨runFiles_eq_finishFiles hend.1, ?_⟩
  simp only [finishFiles, finish, hend.2]

/-- A batch that does not note failures fails if a file does, with the first one that cannot be
loaded. -/
theorem fails (hstop : o.continueOnError = false)
    (hfails : ∃ f ∈ files, ∃ e, fileOutcome load o.blob f = .error e) :
    ∃ e, (runFiles load t files o false).outcome = .error e ∧
      ∀ e', files.findSome? (loadFailure? load) = some e' → e = e' := by
  rw [← head?_loadFailures]
  cases hhead : (loadFailures (attemptsOf load files)).head? with
  | some z => exact ⟨_, runFiles_eq_error_of_head? hstop hhead, fun _ he' => Option.some_inj.1 he'⟩
  | none =>
    -- All files were loaded, so one of them fails in the second phase.
    obtain ⟨f, hf, e, he⟩ := hfails
    have hcount : 0 < files.countP fun f => (Crew.failure? (fileOutcome load o.blob f)).isSome :=
      List.countP_pos_iff.2 ⟨f, hf, by simp [he, Crew.failure?]⟩
    have hlength := length_failures_attemptsOf load files o.blob
    rw [List.head?_eq_none_iff.1 hhead, List.length_nil, Nat.zero_add] at hlength
    rw [runFiles_eq_finishFiles (.inr hhead), finishFiles, finish, extract_eq, fatal?]
    cases hfailed : Crew.failuresOf ((attemptsOf load files).filterMap Attempt.ink?) o.blob with
    | nil =>
      rw [hfailed, List.length_nil] at hlength
      omega
    | cons z rest =>
      simp only [Crew.firstFailure, List.head?_cons, Option.map_some, hstop, Bool.not_false,
        Bool.true_or, if_true]
      exact ⟨_, rfl, fun e' he' => by cases he'⟩

end

/-! ## The books of a run -/

/-- The numbers of files that are done go up and end within the total. -/
structure CountsUp (progress : List (Int × Int)) (total : Nat) : Prop where
  increasing : (progress.map (·.1)).Pairwise (· < ·)
  within : ∀ z ∈ progress, 1 ≤ z.1 ∧ z.1 ≤ z.2 ∧ z.2 = total

/-- A file was either loaded or not. -/
theorem length_loadFailures_add (attempts : List Attempt) :
    (loadFailures attempts).length + (attempts.filterMap Attempt.ink?).length = attempts.length := by
  rw [length_loadFailures, List.length_filterMap_eq_countP, List.length_eq_countP_add_countP
    fun a : Attempt => a.failure?.isSome]
  refine congrArg _ (List.countP_congr fun a _ => ?_)
  rw [Attempt.failure?, Attempt.ink?, Attempt.loaded?]
  cases a.loaded <;> simp

/-- Counting starts after the files that were not loaded and ends at the number of files. -/
theorem progress_finishFiles (load : String → Except Failure Loaded) (t : FileTree)
    (files : List String) (o : Options) :
    CountsUp (finishFiles load t files o).progress files.length ∧
      ((∃ f ∈ files, ∃ l, load f = .ok l) →
        (finishFiles load t files o).progress.getLast? =
          some ((files.length : Int), (files.length : Int))) := by
  have hlength : (attemptsOf load files).length = files.length := List.length_map _
  have hadd := length_loadFailures_add (attemptsOf load files)
  rw [hlength] at hadd
  have hprogress : (finishFiles load t files o).progress =
      (List.range ((attemptsOf load files).filterMap Attempt.ink?).length).map fun k =>
        ((((loadFailures (attemptsOf load files)).length + (k + 1) : Nat) : Int),
          (files.length : Int)) := by
    rw [finishFiles, progress_finish _ _ _ _ (progress_noticesBefore _), extract_eq, hlength,
      List.map_map]
    rfl
  have hpos : (∃ f ∈ files, ∃ l, load f = .ok l) →
      0 < ((attemptsOf load files).filterMap Attempt.ink?).length := by
    rintro ⟨f, hf, l, hl⟩
    refine List.length_pos_of_mem (a := l.ink) (List.mem_filterMap.2 ⟨⟨f, load f⟩, ?_, ?_⟩)
    · exact List.mem_map.2 ⟨f, hf, rfl⟩
    · rw [Attempt.ink?, Attempt.loaded?, hl]
      rfl
  rw [hprogress]
  generalize ((attemptsOf load files).filterMap Attempt.ink?).length = n at hadd hpos ⊢
  refine ⟨⟨?_, fun z hz => ?_⟩, fun hloaded => ?_⟩
  · rw [List.map_map, List.pairwise_map]
    refine List.pairwise_lt_range.imp fun {j k} hlt => ?_
    simp only [Function.comp_apply]
    omega
  · obtain ⟨k, hk, rfl⟩ := List.mem_map.1 hz
    have hlt := List.mem_range.1 hk
    exact ⟨by omega, by omega, rfl⟩
  · have hn := hpos hloaded
    obtain ⟨m, rfl⟩ := Nat.exists_eq_add_of_le' hn
    rw [List.range_succ, List.map_append, List.map_singleton, List.getLast?_concat, hadd]

theorem load_message_ne_empty {t : FileTree} {opts : BinarizeOptions} {file : String} {e : Failure}
    (h : load t opts file = .error e) : e.message ≠ "" := by
  refine Failure.message_ne_empty ?_
  rintro rfl
  rw [load] at h
  cases hload : Image.load t file with
  | error e =>
    rw [hload] at h
    cases h
  | ok image =>
    rw [hload] at h
    cases hink : Image.binarize (some image) opts with
    | error e =>
      simp only [Failure.within, bind, Except.bind, hink] at h
      cases h
    | ok ink =>
      simp only [Failure.within, bind, Except.bind, hink] at h
      cases h

/-- Only the check of a request can fail. -/
theorem find_message_ne_empty {p : Picture} {e : Failure} (h : Blob.find p cfg = .error e) :
    e.message ≠ "" := by
  cases hcheck : Blob.check p cfg with
  | error f =>
    rw [Blob.find, hcheck] at h
    cases h
    exact f.message_ne_empty
  | ok u =>
    simp only [Blob.check] at hcheck
    split_ifs at hcheck with hsize hmax htolerance
    rw [Blob.find_eq (by omega) (by omega) (by omega) htolerance] at h
    cases h

theorem fileOutcome_message_ne_empty {t : FileTree} {opts : BinarizeOptions} {file : String}
    {e : Failure} (h : fileOutcome (load t opts) cfg file = .error e) : e.message ≠ "" := by
  rw [fileOutcome] at h
  cases hload : load t opts file with
  | error e' =>
    rw [hload] at h
    cases h
    exact load_message_ne_empty hload
  | ok l =>
    rw [hload] at h
    exact find_message_ne_empty h

/-- A crew of any size that works in any order reports what the batch works with. -/
theorem extract_eq_of_run {available : Nat} (havailable : 0 < available)
    (himages : attempts.filterMap Attempt.ink? ≠ []) {s : Crew.State}
    (hrun : Crew.Run o.blob (attempts.filterMap Attempt.ink?).length
      (.start (attempts.filterMap Attempt.ink?)
        (Crew.size o.workers available (attempts.filterMap Attempt.ink?).length)) s)
    (hgoing : s.cancelled = false) (hreport : s.answer = some report) :
    report = extract o attempts false := by
  have hpos := List.length_pos_of_ne_nil himages
  have hstart : Crew.State.Sound (attempts.filterMap Attempt.ink?) o.blob _ :=
    Crew.State.sound_start (Crew.size_pos o.workers havailable hpos)
  have hs := hstart.run hrun
  obtain ⟨hconclude, hperm⟩ := hs.answered report hreport
  rw [hconclude, Crew.State.conclude, hgoing, hs.counted, extract_eq,
    ← Crew.conclude_of_perm (hperm hgoing)]
  rfl

/-- The books of a batch over the files that were discovered. When failures are noted, or when there are
none, there is one document for each file, in order, with the error or the result of just this file; as
many files failed as documents have an error; and the events count up to the number of files. When
failures are not noted the first failure ends the batch, and one of loading comes first. All this holds
for crews of any size, in whatever order they work. -/
theorem run_keeps_books {t : FileTree} {paths files : List String} {o : Options}
    (hfiles : discover t paths o.filter = .ok files) (hne : files ≠ []) :
    let outcome := fileOutcome (load t o.binarize) o.blob
    let r := run t paths o false
    (o.continueOnError = true ∨ (∀ f ∈ files, ∃ res, outcome f = .ok res) →
      ∃ out, r.outcome = .ok out ∧ out.files = files ∧
        Forall₂ (fun f d => Reports f (outcome f) d) files out.documents ∧
        out.failed = (out.documents.countP fun d => d.error ≠ "") ∧
        CountsUp r.progress files.length ∧
        ((∃ f ∈ files, ∃ l, load t o.binarize f = .ok l) →
          r.progress.getLast? = some ((files.length : Int), (files.length : Int)))) ∧
    (o.continueOnError = false → (∃ f ∈ files, ∃ e, outcome f = .error e) →
      ∃ e, r.outcome = .error e ∧
        ∀ e', files.findSome? (loadFailure? (load t o.binarize)) = some e' → e = e') ∧
    ∀ pictures, pictures = (attemptsOf (load t o.binarize) files).filterMap Attempt.ink? →
      pictures ≠ [] → ∀ available s report, 0 < available →
        Crew.Run o.blob pictures.length
          (.start pictures (Crew.size o.workers available pictures.length)) s →
        s.cancelled = false → s.answer = some report →
          report = extract o (attemptsOf (load t o.binarize) files) false := by
  have hrun : run t paths o false = runFiles (load t o.binarize) t files o false := by
    rw [run, hfiles]
    cases files with
    | nil => exact absurd rfl hne
    | cons f rest => rfl
  simp only [hrun]
  have hmessage : ∀ f e, fileOutcome (load t o.binarize) o.blob f = .error e → e.message ≠ "" :=
    fun _ _ => fileOutcome_message_ne_empty
  refine ⟨fun hgo => ?_, fails, ?_⟩
  · obtain ⟨hfinish, houtcome⟩ := finishes t hgo
    rw [hfinish]
    refine ⟨_, houtcome, files_outcomeOf _ _ _ _, ?_, ?_, progress_finishFiles _ t files o⟩
    · rw [documents_outcomeOf]
      exact forall₂_reports hmessage files
    · rw [documents_outcomeOf, countP_documents hmessage files]
      exact failed_outcomeOf _ files o
  · rintro _ rfl himages available s report havailable hcrew hgoing hreport
    exact extract_eq_of_run havailable himages hcrew hgoing hreport

/-- A path to a file that is taken stands for itself. -/
theorem expand_file {t : FileTree} {f : Filter} {path : String} {place : List String}
    (hplace : t.locate path = .ok place) (hfile : t.entry? place ≠ some .folder)
    (htakes : f.takes path = true) : f.expand t path = .ok [path] := by
  simp only [Filter.expand, hplace, htakes, if_true]

/-- A batch that goes on past a file that is no image. -/
theorem run_keeps_books_junk :
    let t : FileTree := ⟨[], [(["a.png"], .image ⟨1, 1, #[.gray 0]⟩), (["b.png"], .text "junk")]⟩
    let o : Options := { continueOnError := true }
    discover t ["b.png", "a.png"] o.filter = .ok ["b.png", "a.png"] ∧
      ∃ out, (run t ["b.png", "a.png"] o false).outcome = .ok out ∧ out.files = ["b.png", "a.png"] ∧
        Forall₂ (fun f d => Reports f (fileOutcome (load t o.binarize) o.blob f) d)
          ["b.png", "a.png"] out.documents ∧
        out.failed = (out.documents.countP fun d => d.error ≠ "") := by
  intro t o
  have hnames : Path.names "a.png" = ["a.png"] ∧ Path.names "b.png" = ["b.png"] := by
    simp only [Path.names, String.splitOn]
    iterate 6 unfold String.splitOnAux
    decide +kernel
  have hlocate : t.locate "a.png" = .ok ["a.png"] ∧ t.locate "b.png" = .ok ["b.png"] := by
    rw [FileTree.locate, FileTree.locate, hnames.1, hnames.2]
    decide +kernel
  have hfiles : discover t ["b.png", "a.png"] o.filter = .ok ["b.png", "a.png"] := by
    rw [discover, List.mapM_cons, expand_file hlocate.2 (by decide) (by decide +kernel),
      List.mapM_cons, expand_file hlocate.1 (by decide) (by decide +kernel)]
    decide +kernel
  obtain ⟨out, hout, hlist, hdocuments, hfailed, -⟩ :=
    (run_keeps_books hfiles (List.cons_ne_nil _ _)).1 (.inl rfl)
  exact ⟨hfiles, out, hout, hlist, hdocuments, hfailed⟩

end Batch

end Perimeter
