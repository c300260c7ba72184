import Perimeter.Batch.Discovery
import Perimeter.Crew.Basic
import Perimeter.Image.File
import Perimeter.Image.Overlay
import Perimeter.Log
import Perimeter.Report.Format

/-!
# Batches

A batch extracts the blobs of many image files. This module has what goes into a batch and what comes
out of it: options, events on the way, and the outcome with its report and its statistics.
-/

namespace Perimeter

namespace Batch

/-- What to do with the files. -/
structure Options where
  blob : Blob.Config := {}
  binarize : BinarizeOptions := {}
  workers : Int := 4
  filter : Filter := {}
  /-- Note failures in the documents of their files and go on. -/
  continueOnError : Bool := false
  /-- The folder for overlays; empty for none. -/
  overlayFolder : String := ""
  overlay : Overlay.Options := {}

/-- What happens in the course of a batch. -/
inductive Event where
  | started (total : Int)
  | progressed (current total : Int)
  /-- A file failed, by its place in the list. -/
  | failed (index : Int) (message : String)
  | completed
deriving DecidableEq, Repr

/-- What a batch tells while it runs: an event, or a log record. -/
inductive Notice where
  | event (e : Event)
  | record (r : Log.Entry)

/-- The event of a notice, if it is one. -/
def Notice.event? : Notice → Option Event
  | event e => some e
  | record _ => none

/-- What came out of a batch. -/
structure Outcome where
  /-- One document per file. -/
  documents : List Document
  files : List String
  workers : Int
  /-- The number of files that failed. -/
  failed : Int
  /-- The time spent, in nanoseconds. -/
  duration : Int := 0

namespace Outcome

/-- The report on all files. -/
def report (o : Outcome) (format : String) : Except Failure String :=
  Document.listReport (some o.documents) format

/-- Writes the report to a file, or gives its text back when there is no file. -/
def save (o : Outcome) (t : FileTree) (format file : String) : Except Failure (String × FileTree) := do
  let text ← Failure.within "failed to format results" (o.report format)
  if file.isEmpty then
    return (text, t)
  match t.write file (.text text) with
  | .ok t => pure ("", t)
  | .error e => throw (.during "failed to write output file" (.plain s!"open {file}: {e.message}"))

/-- The results of the files that did not fail. -/
def results (o : Outcome) : List Blob.Result := o.documents.filterMap (·.result)

/-- The number of contours. -/
def contours (o : Outcome) : Nat := o.results.foldr (fun r n => r.contourList.length + n) 0

/-- The number of contours of holes. -/
def holes (o : Outcome) : Nat := o.results.foldr (fun r n => r.holes.length + n) 0

/-- The statistics, in several lines. -/
def statistics (o : Outcome) : String :=
  let total := o.files.length
  let rounded := Duration.text (Duration.round 1000000 o.duration)
  let average := Duration.text (Duration.round 1000 (o.duration.tdiv total))
  "\nProcessing Statistics:\n" ++
    s!"  Total images: {total}\n" ++
    s!"  Processed: {wrap64 (total - o.failed)}\n" ++
    s!"  Failed: {o.failed}\n" ++
    s!"  Contours: {o.contours} ({o.holes} holes)\n" ++
    s!"  Workers: {o.workers}\n" ++
    s!"  Duration: {rounded}\n" ++
    if total == 0 then "" else s!"  Avg per image: {average}\n"

end Outcome

end Batch

end Perimeter
