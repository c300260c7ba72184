import Perimeter.Batch.Progress
import Perimeter.Batch.Run
import Perimeter.Command.Job

/-!
# The command for many images

Runs a batch and shows how it goes, on a bar or in the log.
-/

namespace Perimeter.Command

/-- The batch that a job asks for. -/
def Job.batchOptions (j : Job) : Batch.Options :=
  let s := j.settings
  { blob := s.blobConfig
    binarize := s.binarizeOptions
    workers := s.batching.workers
    filter := ⟨s.batching.recursive, j.words "include", j.words "exclude"⟩
    continueOnError := s.batching.continueOnError
    overlayFolder := s.output.overlayFolder
    overlay := s.overlayOptions }

/-- The time between two notices, in nanoseconds, as far as a bar is concerned. -/
def noticeTime : Int := 1000

/-- Shows notices on a bar, from a point in time on. -/
def showOnBar (b : Batch.Bar) (now : Int) : List Batch.Notice → Action Unit
  | [] => pure ()
  | .record r :: rest => do
    Action.record r
    showOnBar b (now + noticeTime) rest
  | .event e :: rest => do
    match b.follow now e with
    | .ok (text, b) =>
      if !text.isEmpty then
        Action.tell text
      showOnBar b (now + noticeTime) rest
    | .error _ => showOnBar b (now + noticeTime) rest

/-- Shows notices in the log. -/
def showInLog (journal : Batch.Journal) : List Batch.Notice → Action Unit
  | [] => pure ()
  | .record r :: rest => do
    Action.record r
    showInLog journal rest
  | .event e :: rest => do
    let (entries, journal) := journal.follow 0 e
    for r in entries do
      Action.record r
    showInLog journal rest

/-- Runs a batch. -/
def Job.runBatch (j : Job) : Action Unit := do
  let s := j.settings
  let run := Batch.run (← Action.tree) j.arguments j.batchOptions false
  Action.setTree run.tree
  if j.switch "progress" then
    showOnBar { label := "Tracing: ", interval := j.duration "progress-interval" } 0 run.history
  else
    showInLog { level := .debug } run.history
  let outcome ← Action.ofExcept (Failure.within "batch processing failed" run.outcome)
  let (text, t) ← Action.ofExcept (Failure.within "failed to save results"
    (outcome.save (← Action.tree) s.output.format s.output.file))
  Action.setTree t
  Action.print text
  if j.switch "stats" then
    Action.tell outcome.statistics

end Perimeter.Command
