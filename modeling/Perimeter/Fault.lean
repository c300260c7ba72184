import Perimeter.Edge
import Perimeter.Text.Quoted

/-!
# Faults

Everything that can be wrong with a request to trace, label or view a raster, as one type of causes.
`Fault.kind` sorts the causes into five kinds, and `Fault.message` is the only place that words them.
-/

namespace Perimeter

/-- The five kinds of faults. -/
inductive Fault.Kind where
  | configuration
  | bounds
  | geometry
  | layout
  | state
deriving DecidableEq, Repr, Inhabited

/-- The word for a kind. -/
def Fault.Kind.name : Fault.Kind → String
  | configuration => "configuration"
  | bounds => "bounds"
  | geometry => "geometry"
  | layout => "layout"
  | state => "state"

/-- The storage layouts of a raster that are checked against their buffer. -/
inductive LayoutName where
  | bytes
  | threshold
  | bits
deriving DecidableEq, Repr, Inhabited

/-- The word for a layout. -/
def LayoutName.name : LayoutName → String
  | bytes => "bytes"
  | threshold => "threshold"
  | bits => "bits"

/-- The activity that found an image empty or a cap negative. -/
inductive Activity where
  | seeding
  | tracing
  | extraction
deriving DecidableEq, Repr, Inhabited

/-- The word for an activity. -/
def Activity.name : Activity → String
  | seeding => "seed"
  | tracing => "trace"
  | extraction => "blob"

/-- Why a request was refused. -/
inductive Fault where
  /-- The text names no heading. -/
  | unknownHeadingText (text : String)
  /-- A cap on the length is below zero. -/
  | negativeMaxLength (activity : Activity) (n : Int)
  /-- The tolerance of simplification, as written, is below zero. -/
  | negativeTolerance (written : String)
  /-- The number of the seed's heading stands for no heading. -/
  | invalidHeading (code : Int)
  /-- The image has no pixels. -/
  | emptyImage (activity : Activity) (width height : Int)
  /-- The seed lies outside the image. -/
  | seedOutside (x y width height : Int)
  /-- The seed is a background pixel. -/
  | seedNotInk (x y : Int)
  /-- The seed and all its neighbours are ink. -/
  | noBoundary (x y : Int)
  /-- No boundary edge belongs to the seed and the requested heading. -/
  | badSeedHeading (h : Heading) (x y : Int)
  /-- The number of the stop edge's heading stands for no heading. -/
  | invalidStopHeading (code : Int)
  /-- The stop edge leaves its heading open. -/
  | stopHeadingOpen
  /-- The stop edge lies outside the image. -/
  | stopOutside (e : Edge) (width height : Int)
  /-- The stop edge belongs to a background pixel. -/
  | stopNotInk (x y : Int)
  /-- The bordering side of the stop edge is ink. -/
  | stopNotBoundary (e : Edge)
  /-- A walk in chunks was given a stop edge. -/
  | stopInChunks
  /-- A walk in chunks was continued after its end. -/
  | walkFinished
  /-- A point was appended to a chain whose result was read. -/
  | chainClosed
  /-- A raster has no columns or no rows. -/
  | invalidSize (layout : LayoutName) (width height : Int)
  /-- Rows overlap. -/
  | strideTooSmall (layout : LayoutName) (stride width : Int)
  /-- The buffer ends before the last pixel. -/
  | bufferTooShort (layout : LayoutName) (available needed : Int)
deriving DecidableEq, Repr

namespace Fault

/-- The kind of a fault. -/
def kind : Fault → Kind
  | unknownHeadingText _ | negativeMaxLength .. | negativeTolerance _ | invalidHeading _
  | invalidStopHeading _ | stopHeadingOpen | stopInChunks => .configuration
  | emptyImage .. | seedOutside .. | seedNotInk .. | stopOutside .. | stopNotInk .. => .bounds
  | noBoundary .. | badSeedHeading .. | stopNotBoundary _ => .geometry
  | invalidSize .. | strideTooSmall .. | bufferTooShort .. => .layout
  | walkFinished | chainClosed => .state

/-- The operation that a message names. -/
def operation : Fault → String
  | unknownHeadingText _ => "parse direction"
  | negativeMaxLength a _ => a.name
  | negativeTolerance _ => Activity.extraction.name
  | emptyImage a _ _ => a.name
  | invalidHeading _ | seedOutside .. | seedNotInk .. | noBoundary .. | badSeedHeading .. => "seed"
  | invalidStopHeading _ | stopHeadingOpen | stopOutside .. | stopNotInk .. | stopNotBoundary _ =>
    "stop"
  | stopInChunks => "tracer"
  | walkFinished => "next"
  | chainClosed => "chain append"
  | invalidSize l _ _ | strideTooSmall l _ _ | bufferTooShort l _ _ => l.name

/-- What is wrong, without the operation and the kind. -/
def detail : Fault → String
  | unknownHeadingText s => s!"unknown direction {Text.quoted s}"
  | negativeMaxLength _ n => s!"negative max length {n}"
  | negativeTolerance s => s!"negative simplify tolerance {s}"
  | invalidHeading n => s!"invalid direction {n}"
  | emptyImage _ w h => s!"empty image {w}x{h}"
  | seedOutside x y w h => s!"seed ({x},{y}) outside {w}x{h} image"
  | seedNotInk x y => s!"seed pixel ({x},{y}) is not foreground"
  | noBoundary x y => s!"bad seed pixel ({x},{y}): no boundary edge"
  | badSeedHeading h x y => s!"bad seed direction {h.name} at ({x},{y})"
  | invalidStopHeading n => s!"invalid stop direction {n}"
  | stopHeadingOpen => "stop direction must be explicit"
  | stopOutside e w h => s!"stop edge {e.text} outside {w}x{h} image"
  | stopNotInk x y => s!"stop pixel ({x},{y}) is not foreground"
  | stopNotBoundary e => s!"stop edge {e.text} is not a boundary edge"
  | stopInChunks => "stop edge is not supported for chunked traces"
  | walkFinished => "trace already complete"
  | chainClosed => "contour already closed"
  | invalidSize _ w h => s!"invalid size {w}x{h}"
  | strideTooSmall _ s w => s!"stride {s} smaller than width {w}"
  | bufferTooShort _ n m => s!"buffer holds {n} pixels, need {m}"

/-- The full message. -/
def message (f : Fault) : String :=
  s!"trace: {f.operation}: {f.kind.name} error: {f.detail}"

end Fault

/-- Reads a heading given by name or by number. -/
def Course.ofText (s : String) : Except Fault Course :=
  match Course.ofText? s with
  | some c => .ok c
  | none => .error (.unknownHeadingText s)

end Perimeter
