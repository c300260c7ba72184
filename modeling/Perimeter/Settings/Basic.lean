import Perimeter.Blob.Find
import Perimeter.Image.Binarize
import Perimeter.Image.Overlay
import Perimeter.Report.Format

/-!
# Settings

Everything that can be set for the commands, in sections. `Settings.check` refuses values out of range
and names the first one; the other functions hand the sections on to the operations that they are for.
-/

namespace Perimeter

/-- How boundaries are traced. -/
structure Settings.Tracing where
  clockwise : Bool := false
  suppressBorder : Bool := false
  /-- Keep only the end points of straight runs. -/
  chain : Bool := false
  maxLength : Int := 0
  holes : Bool := true
  minPixels : Int := 1
  /-- The tolerance for thinning the outlines of blobs. -/
  tolerance : Float := 0
  hull : Bool := false

/-- How images become pictures of ink. -/
structure Settings.Imaging where
  threshold : Int := 128
  invert : Bool := false
  packed : Bool := false

/-- Where results go and how they look. -/
structure Settings.Output where
  format : String := "text"
  /-- The file for the results; empty for the standard output. -/
  file : String := ""
  overlayFolder : String := ""
  overlayColour : String := "#FF0000"
  holeColour : String := "#0000FF"
  overlayScale : Int := 1

/-- How requests over the network are served. -/
structure Settings.Serving where
  host : String := "localhost"
  port : Int := 8080
  corsOrigin : String := "*"
  /-- The greatest size of a request, in units of 2²⁰ bytes. -/
  maxUpload : Int := 50
  /-- Seconds until a request is given up. -/
  timeout : Int := 30
  shutdownTimeout : Int := 10
  /-- The number of edges in a message of a streamed walk. -/
  chunkSize : Int := 256

/-- How many images are processed at once. -/
structure Settings.Batching where
  workers : Int := 4
  recursive : Bool := false
  continueOnError : Bool := false

/-- All settings. -/
structure Settings where
  logLevel : String := "info"
  verbose : Bool := false
  tracing : Settings.Tracing := {}
  imaging : Settings.Imaging := {}
  output : Settings.Output := {}
  serving : Settings.Serving := {}
  batching : Settings.Batching := {}

namespace Settings

/-- The record of the tracing section. -/
def Tracing.data (s : Tracing) : Data :=
  .record
    [("clockwise", .flag s.clockwise), ("suppress_border", .flag s.suppressBorder),
      ("chain_approx", .flag s.chain), ("max_length", .int s.maxLength), ("holes", .flag s.holes),
      ("min_pixels", .int s.minPixels), ("simplify", .real s.tolerance), ("hull", .flag s.hull)]

/-- The record of the imaging section. -/
def Imaging.data (s : Imaging) : Data :=
  .record [("threshold", .int s.threshold), ("invert", .flag s.invert), ("packed", .flag s.packed)]

/-- The record of the output section. -/
def Output.data (s : Output) : Data :=
  .record
    [("format", .text s.format), ("file", .text s.file), ("overlay_dir", .text s.overlayFolder),
      ("overlay_color", .text s.overlayColour), ("hole_color", .text s.holeColour),
      ("overlay_scale", .int s.overlayScale)]

/-- The record of the serving section. -/
def Serving.data (s : Serving) : Data :=
  .record
    [("host", .text s.host), ("port", .int s.port), ("cors_origin", .text s.corsOrigin),
      ("max_upload_mb", .int s.maxUpload), ("timeout_sec", .int s.timeout),
      ("shutdown_timeout", .int s.shutdownTimeout), ("chunk_size", .int s.chunkSize)]

/-- The record of the batching section. -/
def Batching.data (s : Batching) : Data :=
  .record
    [("workers", .int s.workers), ("recursive", .flag s.recursive),
      ("continue_on_error", .flag s.continueOnError)]

/-- The record of all settings. -/
def data (s : Settings) : Data :=
  .record
    [("log_level", .text s.logLevel), ("verbose", .flag s.verbose), ("trace", s.tracing.data),
      ("image", s.imaging.data), ("output", s.output.data), ("server", s.serving.data),
      ("batch", s.batching.data)]

/-- The log levels by name. -/
def logLevels : List String := ["debug", "info", "warn", "error"]

/-- Refuses with a message unless a condition holds. -/
def require (ok : Bool) (message : String) : Except Failure Unit :=
  if ok then .ok () else .error (.plain message)

/-- Refuses a text that is no colour, under the name of its setting. -/
def requireColour (name text : String) : Except Failure Unit := do
  let _ ← Failure.within s!"invalid {name}" (Colour.parse text)

/-- Refuses settings out of range. -/
def check (s : Settings) : Except Failure Unit := do
  let levels := ", ".intercalate logLevels
  require (logLevels.contains s.logLevel)
    s!"invalid log level: {s.logLevel} (must be one of: {levels})"
  let formats := ", ".intercalate (Format.all.map Format.name)
  require (s.output.format.isEmpty || Format.isName s.output.format)
    s!"invalid output format: {s.output.format} (must be one of: {formats})"
  requireColour "output.overlay_color" s.output.overlayColour
  requireColour "output.hole_color" s.output.holeColour
  require (1 ≤ s.output.overlayScale && s.output.overlayScale ≤ 32)
    s!"invalid overlay scale: {s.output.overlayScale} (must be between 1 and 32)"
  require (0 ≤ s.imaging.threshold && s.imaging.threshold ≤ 255)
    s!"invalid image threshold: {s.imaging.threshold} (must be between 0 and 255)"
  require (0 ≤ s.tracing.maxLength)
    s!"invalid trace max length: {s.tracing.maxLength} (must not be negative)"
  require (0 ≤ s.tracing.minPixels)
    s!"invalid trace min pixels: {s.tracing.minPixels} (must not be negative)"
  let tolerance := Decimal.general.text s.tracing.tolerance
  require (!(s.tracing.tolerance < 0))
    s!"invalid trace simplify tolerance: {tolerance} (must not be negative)"
  require (0 < s.serving.port && s.serving.port ≤ 65535)
    s!"invalid server port: {s.serving.port} (must be between 1 and 65535)"
  require (0 < s.serving.maxUpload)
    s!"invalid max upload size: {s.serving.maxUpload} (must be positive)"
  require (0 < s.serving.timeout) s!"invalid timeout: {s.serving.timeout} (must be positive)"
  require (0 < s.serving.chunkSize) s!"invalid chunk size: {s.serving.chunkSize} (must be positive)"
  require (0 < s.batching.workers) s!"invalid batch workers: {s.batching.workers} (must be positive)"

/-- The tracing section for the extraction of blobs. -/
def blobConfig (s : Settings) : Blob.Config where
  orientation := .ofClockwise s.tracing.clockwise
  suppressBorder := s.tracing.suppressBorder
  chain := s.tracing.chain
  holes := s.tracing.holes
  minPixels := s.tracing.minPixels
  maxLength := s.tracing.maxLength
  tolerance := s.tracing.tolerance
  hull := s.tracing.hull

/-- The tracing section for a single boundary. -/
def traceOptions (s : Settings) : Trace.Options where
  orientation := .ofClockwise s.tracing.clockwise
  suppressBorder := s.tracing.suppressBorder
  maxLength := s.tracing.maxLength

/-- The imaging section. A threshold out of range keeps its lowest eight bits. -/
def binarizeOptions (s : Settings) : BinarizeOptions where
  threshold := UInt8.ofNat (s.imaging.threshold % 256).toNat
  invert := s.imaging.invert
  packed := s.imaging.packed

/-- The output section for overlays, with the default for what cannot be used. -/
def overlayOptions (s : Settings) : Overlay.Options :=
  let default : Overlay.Options := {}
  let colour (text : String) (otherwise : Colour) : Colour :=
    match Colour.parse text with
    | .ok c => c
    | .error _ => otherwise
  { outer := colour s.output.overlayColour default.outer
    hole := colour s.output.holeColour default.hole
    scale := if 0 < s.output.overlayScale then s.output.overlayScale else default.scale }

end Settings

end Perimeter
