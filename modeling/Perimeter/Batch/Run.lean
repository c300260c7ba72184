import Perimeter.Batch.Basic

/-!
# Running a batch

A batch has two phases. First every file is loaded, then the blobs of all loaded images are extracted
together. `Batch.Attempt` holds what the first phase made of a file; the documents of the outcome put
the failures of both phases and the results back in the order of the files.
-/

namespace Perimeter.Batch

/-- An image that was loaded, with the ink that was made of it. -/
structure Loaded where
  image : Image
  ink : Picture

/-- A file and what loading it gave. -/
structure Attempt where
  file : String
  loaded : Except Failure Loaded

namespace Attempt

/-- The image, if it was loaded. -/
def loaded? (a : Attempt) : Option Loaded :=
  match a.loaded with
  | .ok l => some l
  | .error _ => none

/-- The failure, if the file was not loaded. -/
def failure? (a : Attempt) : Option Failure :=
  match a.loaded with
  | .ok _ => none
  | .error e => some e

end Attempt

/-- Loads a file and tells ink from background. -/
def load (t : FileTree) (opts : BinarizeOptions) (file : String) : Except Failure Loaded := do
  let image ← Failure.within s!"failed to load {file}" (Image.load t file)
  let ink ← Failure.within s!"failed to binarize {file}" (Image.binarize (some image) opts)
  pure ⟨image, ink.picture⟩

/-- The failure of a batch without files. -/
def noImages : Failure := .plain "no image files found"

/-- The document of a file whose image came `k`-th among those that were loaded. -/
def tracedDocument (report : Crew.Report) (k : Nat) (file : String) : Document :=
  match report.failed.lookup k with
  | some e => { file, error := e.message }
  | none => { file, result := ((report.results.getD [])[k]?).join }

/-- The documents of all files, when `k` images have been loaded before. -/
def documents (report : Crew.Report) : Nat → List Attempt → List Document
  | _, [] => []
  | k, a :: rest =>
    match a.loaded with
    | .error e => { file := a.file, error := e.message } :: documents report k rest
    | .ok _ => tracedDocument report k a.file :: documents report (k + 1) rest

/-- The files that were not loaded, by their places. -/
def loadFailures (attempts : List Attempt) : List (Nat × String × Failure) :=
  attempts.zipIdx.filterMap fun (a, i) => a.failure?.map fun e => (i, a.file, e)

/-- The loaded images with the places of their files. -/
def loadedImages (attempts : List Attempt) : List (Nat × String × Loaded) :=
  attempts.zipIdx.filterMap fun (a, i) => a.loaded?.map fun l => (i, a.file, l)

/-- An event for every image that was finished; files that were not loaded count as done before. -/
def progressEvents (attempts : List Attempt) (report : Crew.Report) : List Event :=
  let missing := (loadFailures attempts).length
  report.progress.map fun (done, _) => .progressed ((missing + done : Nat) : Int) attempts.length

/-- Whether a report of the second phase ends the batch, and how. -/
def fatal? (o : Options) (report : Crew.Report) : Option Failure :=
  match report.failure with
  | some e => if !o.continueOnError || report.results.isNone then some e else none
  | none => none

/-- The path of the overlay of a file: its bare name in the folder for overlays. -/
def overlayPath (folder file : String) : String :=
  let name := Path.base file
  Path.join [folder, Path.dropEnding name (Path.extension name) ++ "_overlay.png"]

/-- Writes the overlay of a file, if there is a folder for overlays. -/
def writeOverlay (o : Options) (t : FileTree) (file : String) (l : Loaded)
    (r : Option Blob.Result) : Except Failure FileTree :=
  if o.overlayFolder.isEmpty then .ok t
  else
    let contours := (r.map Blob.Result.contourList).getD []
    Image.save t (Overlay.draw (some l.image) l.ink contours o.overlay).image
      (overlayPath o.overlayFolder file)

/-- A record about a file. -/
def fileRecord (message file : String) (e : Failure) : Log.Entry :=
  ⟨.warn, message, [("file", .text file), ("error", .text e.message)]⟩

/-- Goes through the loaded images from the `k`-th on: tells the failures and writes the overlays. An
overlay that cannot be written is left out. -/
def wrapUp (o : Options) (report : Crew.Report) :
    FileTree → Nat → List (Nat × String × Loaded) → FileTree × List Notice
  | t, _, [] => (t, [])
  | t, k, (i, file, l) :: rest =>
    match report.failed.lookup k with
    | some e =>
      let (t, notices) := wrapUp o report t (k + 1) rest
      (t, .event (.failed (i : Nat) e.message) :: notices)
    | none =>
      match writeOverlay o t file l ((report.results.getD [])[k]?).join with
      | .ok t => wrapUp o report t (k + 1) rest
      | .error e =>
        let (t, notices) := wrapUp o report t (k + 1) rest
        (t, .record (fileRecord "failed to write overlay" file e) :: notices)

/-- Everything that a batch does. -/
structure Run where
  /-- What the batch told, in order. -/
  history : List Notice
  outcome : Except Failure Outcome
  tree : FileTree

/-- The events of a run. -/
def Run.events (r : Run) : List Event := r.history.filterMap Notice.event?

/-- The outcome of a batch after both phases. -/
def outcomeOf (o : Options) (attempts : List Attempt) (report : Crew.Report) : Outcome where
  documents := documents report 0 attempts
  files := attempts.map (·.file)
  workers := o.workers
  failed := (loadFailures attempts).length + report.failed.length

/-- The record at the end of a batch. -/
def Outcome.record (o : Outcome) : Log.Entry :=
  ⟨.info, "batch finished",
    [("images", .int o.files.length), ("failed", .int o.failed), ("duration", .duration o.duration)]⟩

/-- The second phase, and what follows it. -/
def finish (t : FileTree) (o : Options) (attempts : List Attempt) (report : Crew.Report)
    (before : List Notice) : Run :=
  let history := before ++ (progressEvents attempts report).map .event
  match fatal? o report with
  | some e => ⟨history, .error (.during "batch processing failed" e), t⟩
  | none =>
    let (t, notices) := wrapUp o report t 0 (loadedImages attempts)
    let outcome := outcomeOf o attempts report
    ⟨history ++ notices ++ [.event .completed, .record outcome.record], .ok outcome, t⟩

/-- The extraction of the loaded images; nothing is done when there are none. -/
def extract (o : Options) (attempts : List Attempt) (cancelled : Bool) : Crew.Report :=
  match loadedImages attempts with
  | [] => ⟨some [], [], [], none⟩
  | images => Crew.findAll (images.map fun (_, _, l) => l.ink) o.blob cancelled

/-- What is told about a file that was not loaded. -/
def skipped (i : Nat) (file : String) (e : Failure) : List Notice :=
  [.event (.failed i e.message), .record (fileRecord "skipping image" file e)]

/-- Runs a batch over files with a way to load them. -/
def runFiles (load : String → Except Failure Loaded) (t : FileTree) (files : List String)
    (o : Options) (cancelled : Bool) : Run :=
  let attempts := files.map fun f => Attempt.mk f (load f)
  let failures := loadFailures attempts
  let start := Notice.event (.started files.length)
  match (if o.continueOnError then none else failures.head?) with
  | some (_, _, e) => ⟨[start], .error e, t⟩
  | none =>
    let before := start :: failures.flatMap fun (i, file, e) => skipped i file e
    finish t o attempts (extract o attempts cancelled) before

/-- Runs a batch over the image files that some paths stand for. -/
def run (t : FileTree) (paths : List String) (o : Options) (cancelled : Bool) : Run :=
  match discover t paths o.filter with
  | .error e => ⟨[], .error (.during "failed to discover image files" e), t⟩
  | .ok [] => ⟨[], .error noImages, t⟩
  | .ok files => runFiles (load t o.binarize) t files o cancelled

end Perimeter.Batch
