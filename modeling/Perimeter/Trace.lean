import Perimeter.Seed

/-!
# Traces

`Trace.run` checks a request, resolves its seed and walks the boundary. A walk that stopped early
goes on when its stop edge is given as the next seed, with the heading, and its start edge as the
next stop. `Tracer` does that bookkeeping for a walk in chunks.
-/

namespace Perimeter

namespace Trace

/-- How to trace. -/
structure Options where
  orientation : Orientation := .counterclockwise
  suppressBorder : Bool := false
  /-- An extra edge to stop on; a walk always stops on its own start. -/
  stopAt : Option EdgeSpec := none
  /-- Caps the number of steps when positive. -/
  maxLength : Int := 0
deriving DecidableEq, Repr

/-- The cap that applies to a picture: the caller's, but never above the upper limit. -/
def effectiveLimit (p : Picture) (maxLength : Int) : Int :=
  let limit := Picture.upperLimit p.width p.height
  if 0 < maxLength ∧ maxLength < limit then maxLength else limit

/-- Checks a request and gives back its stop edge: first the cap, then the seed, then the stop. -/
def check (p : Picture) (s : Seed) (opts : Options) : Except Fault (Option Edge) := do
  if opts.maxLength < 0 then
    throw (.negativeMaxLength .tracing opts.maxLength)
  s.check p
  match opts.stopAt with
  | none => pure none
  | some stop => some <$> stop.checkStop p opts.orientation

/-- The walk that a request asks for. -/
def plan (p : Picture) (s : Seed) (opts : Options) : Except Fault Walk.Plan := do
  let stop ← check p s opts
  let start ← s.start p opts.orientation
  pure
    { orientation := opts.orientation
      suppressBorder := opts.suppressBorder
      start
      stop
      limit := effectiveLimit p opts.maxLength }

/-- Walks the boundary through the seed. -/
def run (p : Picture) (s : Seed) (opts : Options) : Except Fault Walk.Outcome := do
  let plan ← plan p s opts
  pure (plan.run p)

end Trace

/-- A walk in chunks: where it stands and what remains. The picture is passed to every chunk, so its
pixels may change between chunks. -/
structure Tracer where
  orientation : Orientation
  suppressBorder : Bool
  start : Edge
  /-- The edge on which the next chunk starts. -/
  position : Edge
  limit : Int
  length : Int
  turns : Int
  /-- At least one chunk was walked. -/
  begun : Bool
  done : Bool
deriving DecidableEq, Repr

namespace Tracer

/-- Resolves the seed and prepares a walk in chunks. The cap holds for all chunks together. -/
def create (p : Picture) (s : Seed) (opts : Trace.Options) : Except Fault Tracer := do
  if opts.stopAt.isSome then
    throw .stopInChunks
  let _ ← Trace.check p s opts
  let start ← s.start p opts.orientation
  pure
    { orientation := opts.orientation
      suppressBorder := opts.suppressBorder
      start
      position := start
      limit := Trace.effectiveLimit p opts.maxLength
      length := 0
      turns := 0
      begun := false
      done := false }

/-- The number of steps that a chunk of the requested size may make. A size of zero or less asks for
all that remain. -/
def budget (t : Tracer) (maxEdges : Int) : Int :=
  let rest := t.limit - t.length
  if 0 < maxEdges ∧ maxEdges < rest then maxEdges else rest

/-- The options of the next chunk. From the second chunk on the start of the whole walk is an extra
stop. -/
def chunkOptions (t : Tracer) (maxEdges : Int) : Trace.Options where
  orientation := t.orientation
  suppressBorder := t.suppressBorder
  stopAt := if t.begun then some (.ofEdge t.start) else none
  maxLength := t.budget maxEdges

/-- Walks the next chunk. -/
def next (t : Tracer) (p : Picture) (maxEdges : Int) : Except Fault (Walk.Outcome × Tracer) := do
  if t.done then
    throw .walkFinished
  let seed : Seed := ⟨t.position.x, t.position.y, .toward t.position.heading⟩
  let out ← Trace.run p seed (t.chunkOptions maxEdges)
  let length := t.length + out.result.length
  pure
    (out,
      { t with
        position := out.result.stop
        length
        turns := t.turns + out.result.turns
        begun := true
        done := out.result.stop == t.start || decide (t.limit ≤ length) })

/-- The walk came back to its start edge. -/
def closed (t : Tracer) : Bool := t.done && t.position == t.start

end Tracer

end Perimeter
