import Perimeter.Command.Job
import Perimeter.Image.File

/-!
# Commands on one image

One boundary from a seed, and all blobs of an image.
-/

namespace Perimeter.Command

/-- Writes a report to the output, or to a file when there is one. -/
def writeReport (text file : String) : Action Unit := do
  if file.isEmpty then
    Action.print text
  else
    match (← Action.tree).write file (.text text) with
    | .ok t =>
      Action.setTree t
      Action.record ⟨.info, "output written", [("file", .text file)]⟩
    | .error e =>
      throw (.during "failed to write output file" (.plain s!"open {file}: {e.message}"))

/-- Saves an overlay, if there is a file for it. -/
def writeOverlay (file : String) (c : Canvas) : Action Unit := do
  if !file.isEmpty then
    let t ← Action.ofExcept
      (Failure.within "failed to write overlay" (Image.save (← Action.tree) c.image file))
    Action.setTree t

/-- The edge to stop on, for which all three flags or none must be given. -/
def Job.stop (j : Job) : Except Failure (Option EdgeSpec) := do
  let given := ["stop-x", "stop-y", "stop-dir"].filter fun name => (j.given.lookup name).isSome
  if given.isEmpty then
    return none
  if given.length < 3 then
    throw (.plain "--stop-x, --stop-y and --stop-dir must be given together")
  match ← liftFault (Course.ofText (j.text "stop-dir")) with
  | .auto => throw (.fault .stopHeadingOpen)
  | course => pure (some ⟨j.int "stop-x", j.int "stop-y", course⟩)

/-- The walk that a job asks for. -/
def Job.walk (j : Job) : Except Failure (Seed × Trace.Options) := do
  let course ← liftFault (Course.ofText (j.text "dir"))
  let stopAt ← j.stop
  pure (⟨j.int "x", j.int "y", course⟩, { j.settings.traceOptions with stopAt })

/-- The record of a finished walk. -/
def walkRecord (file : String) (r : Walk.Result) : Log.Entry :=
  ⟨.debug, "trace finished",
    [("file", .text file), ("start", .text r.start.text), ("stop", .text r.stop.text),
      ("length", .int r.length), ("turns", .int r.turns), ("complete", .flag r.complete)]⟩

/-- Traces one boundary. -/
def Job.runTrace (j : Job) : Action Unit := do
  let (seed, opts) ← Action.ofExcept j.walk
  let path := j.argument
  let s := j.settings
  let (_, ink) ← Action.ofExcept
    (Failure.within "failed to load image" (Image.loadInk (← Action.tree) path s.binarizeOptions))
  let traced ← Action.ofExcept
    (Failure.within "trace failed" (liftFault (Blob.traceSeed ink.picture seed opts s.tracing.chain)))
  let traced := if j.switch "drop-start" && traced.startRedundant
    then { traced with points := traced.points.drop 1 } else traced
  Action.record (walkRecord path traced.result)
  writeOverlay (j.text "overlay") (Overlay.drawPoints ink.picture traced.points s.overlayOptions)
  let text ← Action.ofExcept ((TraceDocument.ofTraced path ink.picture traced).report s.output.format)
  writeReport text s.output.file

/-- Extracts all blobs. -/
def Job.runBlobs (j : Job) : Action Unit := do
  let path := j.argument
  let s := j.settings
  let image ← Action.ofExcept
    (Failure.within "failed to load image" (Image.load (← Action.tree) path))
  let ink ← Action.ofExcept (Image.binarize (some image) s.binarizeOptions)
  let result ← Action.ofExcept
    (Failure.within "blob extraction failed" (Blob.find ink.picture s.blobConfig))
  Action.record ⟨.debug, "blobs extracted",
    [("file", .text path), ("summary", .text result.summary), ("duration", .duration result.duration)]⟩
  writeOverlay (j.text "overlay")
    (Overlay.draw (some image) ink.picture result.contourList s.overlayOptions)
  let text ← Action.ofExcept (Document.listReport (some [⟨path, "", some result⟩]) s.output.format)
  writeReport text s.output.file

end Perimeter.Command
