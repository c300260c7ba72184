import Perimeter.Numeral
import Perimeter.Report.Format
import Perimeter.Service.Basic
import Perimeter.Text.Quoted
import Perimeter.Version
import Perimeter.Web.Form

/-!
# Answers to forms

A client sends an image in a form, with options beside it, and gets back a report on a boundary or on all
blobs. Whatever is wrong first decides the response.
-/

namespace Perimeter.Service

open Web

/-- The response about a failure. -/
def refusal (status : Nat) (message kind : String) : Response :=
  let fields := [("success", Data.flag false), ("error", .text message)] ++
    Data.fieldIf (!kind.isEmpty) "kind" (.text kind)
  let text := match (Data.record fields).json with
    | .ok v => v.compact
    | .error _ => ""
  ⟨status, "application/json", .text (text ++ "\n"), []⟩

/-- The response about a failure of the operation itself. -/
def refusalOf (e : Failure) : Response := refusal (statusOf e) e.message (kindOf e)

/-- The response about a malformed request. -/
def badRequest (message : String) : Response := refusal 400 message ""

/-- An outcome whose failure is told as one of the operation. -/
def orRefusal {α : Type} : Except Failure α → Except Response α
  | .ok a => .ok a
  | .error e => .error (refusalOf e)

/-- An outcome whose failure is told as a malformed request. -/
def orBadRequest {α : Type} : Except Failure α → Except Response α
  | .ok a => .ok a
  | .error e => .error (badRequest e.message)

-- Values of a form ----------------------------------------------------------------------------

/-- The failure to read a value. -/
def invalidValue (f : Form) (name : String) : Failure := .plain s!"invalid {name}: {f.quotedValue name}"

/-- Reads a value with a reader; an absent one is `otherwise`. -/
def valueOr {α : Type} (f : Form) (name : String) (otherwise : α) (reader : String → Option α) :
    Except Failure α :=
  let v := f.value name
  if v.isEmpty then .ok otherwise
  else
    match reader v with
    | some a => .ok a
    | none => .error (invalidValue f name)

/-- An integer that must be there. -/
def requiredInt (f : Form) (name : String) : Except Failure Int :=
  let v := f.value name
  if v.isEmpty then .error (.plain s!"missing {name}")
  else
    match Numeral.decimalInt v with
    | .ok n => .ok n
    | .error _ => .error (invalidValue f name)

/-- An integer. -/
def intOr (f : Form) (name : String) (otherwise : Int) : Except Failure Int :=
  valueOr f name otherwise fun v => (Numeral.decimalInt v).toOption

/-- A float. -/
def floatOr (f : Form) (name : String) (otherwise : Float) : Except Failure Float :=
  valueOr f name otherwise fun v => (Numeral.float v).toOption

/-- A truth value. -/
def flagOr (f : Form) (name : String) (otherwise : Bool) : Except Failure Bool :=
  valueOr f name otherwise Numeral.bool?

/-- The direction of walks. -/
def orientationOr (f : Form) (otherwise : Orientation) : Except Failure Orientation := do
  pure (.ofClockwise (← flagOr f "clockwise" (otherwise == .clockwise)))

/-- The format of the answer, in lower case. -/
def formatOf (f : Form) : String :=
  let v := f.value "format"
  if v.isEmpty then "json" else Text.lower v

/-- The options for telling ink from background. -/
def binarizeOptions (s : Service) (f : Form) : Except Failure BinarizeOptions := do
  let threshold ← intOr f "threshold" s.binarize.threshold.toNat
  if threshold < 0 ∨ 255 < threshold then
    throw (.plain s!"threshold must be between 0 and 255, got {threshold}")
  let invert ← flagOr f "invert" s.binarize.invert
  pure { s.binarize with threshold := UInt8.ofNat threshold.toNat, invert }

/-- The edge to stop on, for which all three values or none must be there. -/
def stopOf (f : Form) : Except Failure (Option EdgeSpec) := do
  let given := ["stop_x", "stop_y", "stop_dir"].filter fun k => !(f.value k).isEmpty
  if given.isEmpty then
    return none
  if given.length < 3 then
    throw (.plain "stop_x, stop_y and stop_dir must be given together")
  let x ← requiredInt f "stop_x"
  let y ← requiredInt f "stop_y"
  match ← liftFault (Course.ofText (f.value "stop_dir")) with
  | .auto => throw (.fault .stopHeadingOpen)
  | course => pure (some ⟨x, y, course⟩)

/-- A walk that a form asks for. -/
structure WalkRequest where
  seed : Seed
  options : Trace.Options
  chain : Bool

/-- The walk that a form asks for. -/
def walkRequest (s : Service) (f : Form) : Except Failure WalkRequest := do
  let x ← requiredInt f "x"
  let y ← requiredInt f "y"
  let course ← liftFault (Course.ofText (f.value "dir"))
  let orientation ← orientationOr f s.blob.orientation
  let suppressBorder ← flagOr f "suppress_border" s.blob.suppressBorder
  let chain ← flagOr f "chain" s.blob.chain
  let maxLength ← intOr f "max_length" s.blob.maxLength
  let stopAt ← stopOf f
  pure ⟨⟨x, y, course⟩, { orientation, suppressBorder, stopAt, maxLength }, chain⟩

/-- The options for extracting blobs. -/
def blobConfig (s : Service) (f : Form) : Except Failure Blob.Config := do
  let orientation ← orientationOr f s.blob.orientation
  let suppressBorder ← flagOr f "suppress_border" s.blob.suppressBorder
  let chain ← flagOr f "chain" s.blob.chain
  let holes ← flagOr f "holes" s.blob.holes
  let minPixels ← intOr f "min_pixels" s.blob.minPixels
  let maxLength ← intOr f "max_length" s.blob.maxLength
  let tolerance ← floatOr f "simplify" s.blob.tolerance
  let hull ← flagOr f "hull" s.blob.hull
  pure { orientation, suppressBorder, chain, holes, minPixels, maxLength, tolerance, hull }

-- Answers -------------------------------------------------------------------------------------

/-- The image of a request. -/
structure Upload where
  form : Form
  name : String
  image : Image
  ink : Picture

/-- Reads the form of a request and its image. -/
def upload (s : Service) (r : Web.Request) : Except Response Upload := do
  let form ← match Form.ofRequest s.limit r with
    | .ok form => pure form
    | .error .tooLarge => throw (refusal 413 "File too large" "")
    | .error .malformed => throw (badRequest "Failed to parse form data")
  let (name, content) ← match form.file? "image" with
    | some file => pure file
    | none => throw (badRequest "No image file provided")
  let image ← match decode content with
    | .ok image => pure image
    | .error _ => throw (badRequest "Invalid image format")
  let opts ← orBadRequest (binarizeOptions s form)
  let ink ← orRefusal (Image.binarize (some image) opts)
  pure ⟨form, name, image, ink.picture⟩

/-- The media type of a report. -/
def reportType : String → String
  | "json" => "application/json"
  | "yaml" => "application/yaml"
  | "csv" => "text/csv"
  | "svg" => "image/svg+xml"
  | _ => "text/plain; charset=utf-8"

/-- The response with a report. -/
def reportResponse (format text : String) : Response := ⟨200, reportType format, .text text, []⟩

/-- The response with an overlay. -/
def overlayResponse (c : Canvas) : Response := ⟨200, "image/png", .image c, []⟩

/-- Answers with one boundary. -/
def answerTrace (s : Service) (r : Web.Request) : Except Response Response := do
  let up ← upload s r
  let walk ← orRefusal (walkRequest s up.form)
  let traced ← orRefusal (liftFault (Blob.traceSeed up.ink walk.seed walk.options walk.chain))
  let format := formatOf up.form
  if format == "overlay" then
    return overlayResponse (Overlay.drawPoints up.ink traced.points s.overlay)
  let text ← orBadRequest ((TraceDocument.ofTraced up.name up.ink traced).report format)
  return reportResponse format text

/-- Answers with all blobs. -/
def answerBlobs (s : Service) (r : Web.Request) : Except Response Response := do
  let up ← upload s r
  let cfg ← orBadRequest (blobConfig s up.form)
  let result ← orRefusal (Blob.find up.ink cfg)
  let format := formatOf up.form
  if format == "overlay" then
    return overlayResponse (Overlay.draw (some up.image) up.ink result.contourList s.overlay)
  let text ← orBadRequest (Document.listReport (some [⟨up.name, "", some result⟩]) format)
  return reportResponse format text

/-- Answers that the service is there. -/
def answerHealth (now : String) : Response :=
  let fields := [("status", Data.text "healthy"), ("version", .text Version.current.number),
    ("time", .text now)]
  match (Data.record fields).json with
  | .ok v => ⟨200, "application/json", .text (v.compact ++ "\n"), []⟩
  | .error _ => ⟨200, "application/json", .text "", []⟩

end Perimeter.Service
