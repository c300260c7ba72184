import Perimeter.Command.Console
import Perimeter.Command.Tree
import Perimeter.Settings.Load

/-!
# Jobs

A command with everything that it was given: flags, arguments, settings and the environment. Flags that
stand for settings come first among the places where settings are given.
-/

namespace Perimeter.Command

/-- The settings that flags stand for. -/
def boundSettings : List (String × String) :=
  [("log-level", "log_level"), ("verbose", "verbose"),
    ("clockwise", "trace.clockwise"), ("suppress-border", "trace.suppress_border"),
    ("chain", "trace.chain_approx"), ("max-length", "trace.max_length"), ("holes", "trace.holes"),
    ("min-pixels", "trace.min_pixels"), ("simplify", "trace.simplify"), ("hull", "trace.hull"),
    ("threshold", "image.threshold"), ("invert", "image.invert"), ("packed", "image.packed"),
    ("format", "output.format"), ("output", "output.file"), ("overlay-dir", "output.overlay_dir"),
    ("overlay-color", "output.overlay_color"), ("hole-color", "output.hole_color"),
    ("overlay-scale", "output.overlay_scale"),
    ("host", "server.host"), ("port", "server.port"), ("cors-origin", "server.cors_origin"),
    ("max-upload-size", "server.max_upload_mb"), ("timeout", "server.timeout_sec"),
    ("shutdown-timeout", "server.shutdown_timeout"), ("chunk-size", "server.chunk_size"),
    ("workers", "batch.workers"), ("recursive", "batch.recursive"),
    ("continue-on-error", "batch.continue_on_error")]

/-- The value of a flag as a setting. -/
def Value.tree : Value → Tree
  | .text s => .text s
  | .switch b => .bool b
  | .int n => .int n
  | .real x => .text (Decimal.general.text x)
  | .duration n => .text (Duration.text n)
  | .words l => .list (l.map .text)

/-- The settings that were given by flags. -/
def Given.settings (g : Given) : List (String × Tree) :=
  g.filterMap fun (name, v) => (boundSettings.lookup name).map fun key => (key, v.tree)

/-- A command with everything that it was given. -/
structure Job where
  command : Name
  given : Given
  arguments : List String
  environment : Environment
  loaded : Settings.Loaded

namespace Job

/-- The settings. -/
def settings (j : Job) : Settings := j.loaded.settings

/-- The value of a flag. -/
def value? (j : Job) (name : String) : Option Value :=
  match j.given.lookup name with
  | some v => some v
  | none => (j.command.flags.find? (·.name == name)).map (·.value)

/-- The value of a flag for a text. -/
def text (j : Job) (name : String) : String :=
  match j.value? name with
  | some (.text s) => s
  | _ => ""

/-- The value of a flag for an integer. -/
def int (j : Job) (name : String) : Int :=
  match j.value? name with
  | some (.int n) => n
  | _ => 0

/-- The value of a switch. -/
def switch (j : Job) (name : String) : Bool :=
  match j.value? name with
  | some (.switch b) => b
  | _ => false

/-- The value of a flag for several words. -/
def words (j : Job) (name : String) : List String :=
  match j.value? name with
  | some (.words l) => l
  | _ => []

/-- The value of a flag for a duration. -/
def duration (j : Job) (name : String) : Int :=
  match j.value? name with
  | some (.duration n) => n
  | _ => 0

/-- The first argument. -/
def argument (j : Job) : String := j.arguments.head?.getD ""

end Job

/-- The least level of log records for some settings. -/
def logThreshold (s : Settings) : Log.Level :=
  if s.verbose then .debug
  else
    match s.logLevel with
    | "debug" => .debug
    | "warn" => .warn
    | "error" => .error
    | _ => .info

end Perimeter.Command
