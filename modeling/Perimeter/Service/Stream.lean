import Perimeter.Data
import Perimeter.Image.Png
import Perimeter.Json.Parser
import Perimeter.Numeral
import Perimeter.Report.Document
import Perimeter.Service.Basic
import Perimeter.Text.Base64

/-!
# Streamed walks

A client asks for a walk and gets it in messages. `Service.stream` answers a request with the list of all
messages: a single error, or chunks of the walk followed by one message that tells that it is done.
-/

namespace Perimeter.Service

namespace Stream

/-- A request for a walk. -/
structure Request where
  /-- The image file, if there is one. -/
  image : Option Web.Content := none
  x : Int := 0
  y : Int := 0
  direction : String := ""
  clockwise : Bool := false
  suppressBorder : Bool := false
  maxLength : Int := 0
  /-- The number of edges in a message; that of the service unless positive. -/
  chunk : Int := 0
  threshold : Option Int := none
  invert : Bool := false

/-- A message to the client. -/
inductive Message where
  /-- A chunk: its points, the edge where it stopped, and the length and turns of the walk up to there. -/
  | chunk (points : List Point) (stop : Edge) (length turns : Int)
  /-- The walk is done. -/
  | done (start stop : Edge) (length turns : Int) (closed : Bool)
  /-- The request failed. -/
  | error (message kind : String)
deriving DecidableEq, Repr

namespace Message

/-- The record of an edge. -/
def edge (e : Edge) : Data := (EdgeSpec.ofEdge e).data

/-- The record of a message. -/
def data : Message → Data
  | chunk points stop length turns =>
    .record <|
      [("type", .text "chunk")] ++
      Data.fieldIf (!points.isEmpty) "points" (.list (points.map Point.data)) ++
      [("stop", edge stop), ("length", .int length), ("turns", .int turns)]
  | done start stop length turns closed =>
    .record <|
      [("type", .text "done"), ("start", edge start), ("stop", edge stop), ("length", .int length),
        ("turns", .int turns)] ++
      Data.fieldIf closed "closed" (.flag true)
  | error message kind =>
    .record <|
      [("type", .text "error"), ("length", .int 0), ("turns", .int 0)] ++
      Data.fieldIf (!message.isEmpty) "error" (.text message) ++
      [("error_type", .text kind)]

/-- The message about a request that cannot be used. -/
def invalid (message : String) : Message := error message "invalid_request"

/-- The message about a failure. -/
def ofFailure (e : Failure) : Message :=
  let kind := kindOf e
  if kind.isEmpty then invalid e.message else error e.message kind

end Message

-- Reading requests ----------------------------------------------------------------------------

/-- Takes an integer. -/
def takeInt : Json → Option Int
  | .num l =>
    match Numeral.decimalInt l with
    | .ok n => some n
    | .error _ => none
  | _ => none

/-- Takes a truth value. -/
def takeFlag : Json → Option Bool
  | .bool b => some b
  | _ => none

/-- Takes a text. -/
def takeText : Json → Option String
  | .str s => some s
  | _ => none

/-- A list of bytes. -/
def takeBytes (items : List Json) : Option (List UInt8) :=
  items.mapM fun
    | .null => some 0
    | v => (takeInt v).bind fun n => if 0 ≤ n ∧ n < 256 then some (UInt8.ofNat n.toNat) else none

/-- The content of a file from its bytes; absent when there are none. Only images are understood. -/
def contentOf (bytes : List UInt8) : Option Web.Content :=
  if bytes.isEmpty then none
  else
    match Png.decode? bytes with
    | some i => some (.image i)
    | none => some (.text "")

/-- Takes a file. -/
def takeFile : Json → Option (Option Web.Content)
  | .str s => (Base64.decode? s).map contentOf
  | .arr items => (takeBytes items).map contentOf
  | _ => none

/-- A letter of a name without regard to case. Two letters outside the basic ones are forms of basic
ones. -/
def foldLetter (c : Char) : Char :=
  if c.toNat == 0x17F then 's' else if c.toNat == 0x212A then 'k' else c.toLower

/-- Sets the field of a request. Names are taken in any case, unknown ones are skipped and nothing is set
by null. -/
def Request.set (r : Request) (name : String) (v : Json) : Option Request :=
  match v, name.map foldLetter with
  | .null, "threshold" => some { r with threshold := none }
  | .null, "image" => some { r with image := none }
  | .null, _ => some r
  | v, "image" => (takeFile v).map fun image => { r with image }
  | v, "x" => (takeInt v).map fun x => { r with x }
  | v, "y" => (takeInt v).map fun y => { r with y }
  | v, "dir" => (takeText v).map fun direction => { r with direction }
  | v, "clockwise" => (takeFlag v).map fun clockwise => { r with clockwise }
  | v, "suppress_border" => (takeFlag v).map fun suppressBorder => { r with suppressBorder }
  | v, "max_length" => (takeInt v).map fun maxLength => { r with maxLength }
  | v, "chunk" => (takeInt v).map fun chunk => { r with chunk }
  | v, "threshold" => (takeInt v).map fun n => { r with threshold := some n }
  | v, "invert" => (takeFlag v).map fun invert => { r with invert }
  | _, _ => some r

/-- Reads a request. -/
def Request.ofJson? : Json → Option Request
  | .null => some {}
  | .obj fields => fields.foldlM (fun r (k, v) => r.set k v) {}
  | _ => none

/-- The message about a text that is no request. -/
def unreadable : Message := .invalid "Failed to parse request: malformed request"

-- Answering -----------------------------------------------------------------------------------

/-- The messages of the rest of a walk. The first argument bounds the number of chunks. -/
def rest (p : Picture) (chunk : Int) : Nat → Tracer → List Message
  | 0, _ => []
  | n + 1, t =>
    if t.done then [.done t.start t.position t.length t.turns t.closed]
    else
      match t.next p chunk with
      | .error f => [.ofFailure (.fault f)]
      | .ok (out, t') =>
        .chunk out.points.toList out.result.stop t'.length t'.turns :: rest p chunk n t'

/-- The messages of a walk. Every chunk has an edge, so the cap of the walk bounds their number. -/
def messages (p : Picture) (chunk : Int) (t : Tracer) : List Message :=
  rest p chunk (t.limit.toNat + 2) t

/-- The options for telling ink from background. -/
def binarizeOptions (s : Service) (r : Request) : Except Message BinarizeOptions :=
  let opts := { s.binarize with invert := r.invert }
  match r.threshold with
  | none => .ok opts
  | some n =>
    if n < 0 ∨ 255 < n then .error (.invalid "threshold must be between 0 and 255")
    else .ok { opts with threshold := UInt8.ofNat n.toNat }

/-- A failure as a message. -/
def orMessage {α : Type} : Except Failure α → Except Message α
  | .ok a => .ok a
  | .error e => .error (.ofFailure e)

/-- The picture of a request. -/
def picture (s : Service) (r : Request) : Except Message Picture := do
  let content ← match r.image with
    | some content => pure content
    | none => throw (.invalid "No image data provided")
  let image ← match decode content with
    | .ok image => pure image
    | .error e => throw (.invalid s!"Failed to decode image: {e.message}")
  let opts ← binarizeOptions s r
  let ink ← orMessage (Image.binarize (some image) opts)
  pure ink.picture

/-- The walk that a request asks for. -/
def tracer (p : Picture) (r : Request) : Except Message Tracer := do
  let course ← orMessage (liftFault (Course.ofText r.direction))
  orMessage (liftFault (Tracer.create p ⟨r.x, r.y, course⟩
    { orientation := .ofClockwise r.clockwise
      suppressBorder := r.suppressBorder
      maxLength := r.maxLength }))

/-- The number of edges in a chunk for a request. -/
def chunkFor (s : Service) (r : Request) : Int := if 0 < r.chunk then r.chunk else s.chunkSize

end Stream

/-- All messages for a request. -/
def stream (s : Service) (r : Stream.Request) : List Stream.Message :=
  let answer : Except Stream.Message (List Stream.Message) := do
    let p ← Stream.picture s r
    let t ← Stream.tracer p r
    pure (Stream.messages p (Stream.chunkFor s r) t)
  match answer with
  | .ok messages => messages
  | .error m => [m]

/-- All messages for the text of a request. -/
def streamText (s : Service) (text : String) : List Stream.Message :=
  match (Json.parse? text).bind Stream.Request.ofJson? with
  | some r => s.stream r
  | none => [Stream.unreadable]

end Perimeter.Service
