import Perimeter.Json.Fields
import Perimeter.Settings.Basic

/-!
# Patched settings

Settings with some values replaced by those of a JSON record, which has the names that settings are
written with.
-/

namespace Perimeter

/-- The options for extracting blobs, with some values replaced. -/
def Blob.Config.patched (c : Blob.Config) (j : Json) : Blob.Config where
  orientation := .ofClockwise (j.flagD "clockwise" (c.orientation == .clockwise))
  suppressBorder := j.flagD "suppress_border" c.suppressBorder
  chain := j.flagD "chain_approx" c.chain
  holes := j.flagD "holes" c.holes
  minPixels := j.intD "min_pixels" c.minPixels
  maxLength := j.intD "max_length" c.maxLength
  tolerance := j.floatD "simplify" c.tolerance
  hull := j.flagD "hull" c.hull

/-- The record of the options for extracting blobs. -/
def Blob.Config.data (c : Blob.Config) : Data :=
  .record
    [("clockwise", .flag (c.orientation == .clockwise)), ("suppress_border", .flag c.suppressBorder),
      ("chain_approx", .flag c.chain), ("holes", .flag c.holes), ("min_pixels", .int c.minPixels),
      ("max_length", .int c.maxLength), ("simplify", .real c.tolerance), ("hull", .flag c.hull)]

namespace Settings

/-- The tracing section with some values replaced. -/
def Tracing.patched (s : Tracing) (j : Json) : Tracing where
  clockwise := j.flagD "clockwise" s.clockwise
  suppressBorder := j.flagD "suppress_border" s.suppressBorder
  chain := j.flagD "chain_approx" s.chain
  maxLength := j.intD "max_length" s.maxLength
  holes := j.flagD "holes" s.holes
  minPixels := j.intD "min_pixels" s.minPixels
  tolerance := j.floatD "simplify" s.tolerance
  hull := j.flagD "hull" s.hull

/-- The imaging section with some values replaced. -/
def Imaging.patched (s : Imaging) (j : Json) : Imaging where
  threshold := j.intD "threshold" s.threshold
  invert := j.flagD "invert" s.invert
  packed := j.flagD "packed" s.packed

/-- The output section with some values replaced. -/
def Output.patched (s : Output) (j : Json) : Output where
  format := j.textD "format" s.format
  file := j.textD "file" s.file
  overlayFolder := j.textD "overlay_dir" s.overlayFolder
  overlayColour := j.textD "overlay_color" s.overlayColour
  holeColour := j.textD "hole_color" s.holeColour
  overlayScale := j.intD "overlay_scale" s.overlayScale

/-- The serving section with some values replaced. -/
def Serving.patched (s : Serving) (j : Json) : Serving where
  host := j.textD "host" s.host
  port := j.intD "port" s.port
  corsOrigin := j.textD "cors_origin" s.corsOrigin
  maxUpload := j.intD "max_upload_mb" s.maxUpload
  timeout := j.intD "timeout_sec" s.timeout
  shutdownTimeout := j.intD "shutdown_timeout" s.shutdownTimeout
  chunkSize := j.intD "chunk_size" s.chunkSize

/-- The batching section with some values replaced. -/
def Batching.patched (s : Batching) (j : Json) : Batching where
  workers := j.intD "workers" s.workers
  recursive := j.flagD "recursive" s.recursive
  continueOnError := j.flagD "continue_on_error" s.continueOnError

/-- Settings with some values replaced. -/
def patched (s : Settings) (j : Json) : Settings where
  logLevel := j.textD "log_level" s.logLevel
  verbose := j.flagD "verbose" s.verbose
  tracing := s.tracing.patched (j.get "trace")
  imaging := s.imaging.patched (j.get "image")
  output := s.output.patched (j.get "output")
  serving := s.serving.patched (j.get "server")
  batching := s.batching.patched (j.get "batch")

end Settings

end Perimeter
