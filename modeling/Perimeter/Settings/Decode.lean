import Perimeter.Settings.Layers

/-!
# From layers to settings

Values are taken leniently: texts are read as numbers and truth values, numbers as texts and truth
values, and truth values as numbers. What cannot be taken is collected, one line for each setting.
-/

namespace Perimeter.Settings

/-- A value with the problems met on the way to it. -/
structure Reading (α : Type) where
  value : α
  problems : List String

namespace Reading

/-- A value without problems. -/
def fine {α : Type} (a : α) : Reading α := ⟨a, []⟩

/-- Applies a function under reading. -/
def ap {α β : Type} (f : Reading (α → β)) (a : Reading α) : Reading β :=
  ⟨f.value a.value, f.problems ++ a.problems⟩

end Reading

/-- The kinds of settings. -/
inductive Kind where
  | text
  | flag
  | int
  | real
deriving DecidableEq, Repr

/-- The word for a kind. -/
def Kind.name : Kind → String
  | text => "string"
  | flag => "bool"
  | int => "int"
  | real => "float64"

/-- The word for the type of a value that cannot be taken. -/
def typeName : Tree → String
  | .null => "nil"
  | .bool _ => "bool"
  | .int _ => "int"
  | .real _ => "float64"
  | .text _ => "string"
  | .moment _ => "time.Time"
  | .list _ => "[]interface \x7b\x7d"
  | .map _ => "map[string]interface \x7b\x7d"

/-- The complaint about a value of the wrong type. -/
def unsuitable (k : Kind) (t : Tree) : String :=
  s!"expected type '{k.name}', got unconvertible type '{typeName t}'"

/-- The complaint about a text that does not read as a value of a kind. -/
def unreadable (k : Kind) (reader : String) (e : Numeral.Trouble) : String :=
  s!"cannot parse value as '{k.name}': strconv.{reader}: {e.message}"

/-- Takes a value as a text. -/
def takeText : Tree → Except String String
  | .text s => .ok s
  | .int n => .ok (toString n)
  | .bool b => .ok (if b then "1" else "0")
  | .real x => .ok (Decimal.plain.text x)
  | t => .error (unsuitable .text t)

/-- Takes a value as a truth value. -/
def takeFlag : Tree → Except String Bool
  | .bool b => .ok b
  | .int n => .ok (n != 0)
  | .real x => .ok (x != 0)
  | .text s =>
    if s.isEmpty then .ok false
    else
      match Numeral.bool? s with
      | some b => .ok b
      | none => .error (unreadable .flag "ParseBool" .malformed)
  | t => .error (unsuitable .flag t)

/-- The whole part of a float, toward zero; what does not fit a word becomes the least word. -/
def wholePart (x : Float) : Int :=
  if x.isNaN || x.abs ≥ 9223372036854775808.0 then -9223372036854775808
  else if x < 0 then -((-x).toUInt64.toNat : Int)
  else x.toUInt64.toNat

/-- Takes a value as an integer. -/
def takeInt : Tree → Except String Int
  | .int n => .ok (wrap64 n)
  | .real x => .ok (wholePart x)
  | .bool b => .ok (if b then 1 else 0)
  | .text s =>
    match Numeral.int true (if s.isEmpty then "0" else s) with
    | .ok n => .ok n
    | .error e => .error (unreadable .int "ParseInt" e)
  | t => .error (unsuitable .int t)

/-- Takes a value as a float. -/
def takeReal : Tree → Except String Float
  | .int n => .ok (Float.ofInt n)
  | .real x => .ok x
  | .bool b => .ok (if b then 1 else 0)
  | .text s =>
    match Numeral.float (if s.isEmpty then "0" else s) with
    | .ok x => .ok x
    | .error e => .error (unreadable .real "ParseFloat" e)
  | t => .error (unsuitable .real t)

/-- Reads a setting. One without a value gets `absent`. -/
def Layers.read {α : Type} (l : Layers) (take : Tree → Except String α) (absent : α)
    (path : List String) : Reading α :=
  match l.find path with
  | none => .fine absent
  | some t =>
    match take t with
    | .ok a => .fine a
    | .error problem =>
      let name := ".".intercalate path
      ⟨absent, [s!"'{name}' {problem}"]⟩

/-- The word for the sort of a value that stands where a section belongs. -/
def sortName : Tree → String
  | .int n => if FitsWord n then "int" else "uint64"
  | .real _ => "float64"
  | .bool _ => "bool"
  | .text _ => "string"
  | .list _ => "slice"
  | _ => "struct"

/-- Reads a section, unless a value stands in its place. A point in time counts as a section without
fields. -/
def Layers.readSection {α : Type} (l : Layers) (name : String) (absent : α) (fields : Reading α) :
    Reading α :=
  match l.misplaced? name with
  | none | some (.moment _) => fields
  | some t => ⟨absent, [s!"'{name}' expected a map or struct, got {Text.quoted (sortName t)}"]⟩

/-- Reads the tracing section. -/
def Layers.tracing (l : Layers) : Reading Tracing :=
  let flag (k : String) := l.read takeFlag false ["trace", k]
  let int (k : String) := l.read takeInt 0 ["trace", k]
  l.readSection "trace" {} <|
    ((((((((Reading.fine Tracing.mk).ap (flag "clockwise")).ap (flag "suppress_border")).ap
      (flag "chain_approx")).ap (int "max_length")).ap (flag "holes")).ap (int "min_pixels")).ap
      (l.read takeReal 0 ["trace", "simplify"])).ap (flag "hull")

/-- Reads the imaging section. -/
def Layers.imaging (l : Layers) : Reading Imaging :=
  let flag (k : String) := l.read takeFlag false ["image", k]
  l.readSection "image" {} <|
    (((Reading.fine Imaging.mk).ap (l.read takeInt 0 ["image", "threshold"])).ap
      (flag "invert")).ap (flag "packed")

/-- Reads the output section. -/
def Layers.output (l : Layers) : Reading Output :=
  let text (k : String) := l.read takeText "" ["output", k]
  l.readSection "output" {} <|
    ((((((Reading.fine Output.mk).ap (text "format")).ap (text "file")).ap
      (text "overlay_dir")).ap (text "overlay_color")).ap (text "hole_color")).ap
      (l.read takeInt 0 ["output", "overlay_scale"])

/-- Reads the serving section. -/
def Layers.serving (l : Layers) : Reading Serving :=
  let text (k : String) := l.read takeText "" ["server", k]
  let int (k : String) := l.read takeInt 0 ["server", k]
  l.readSection "server" {} <|
    (((((((Reading.fine Serving.mk).ap (text "host")).ap (int "port")).ap (text "cors_origin")).ap
      (int "max_upload_mb")).ap (int "timeout_sec")).ap (int "shutdown_timeout")).ap
      (int "chunk_size")

/-- Reads the batching section. -/
def Layers.batching (l : Layers) : Reading Batching :=
  let flag (k : String) := l.read takeFlag false ["batch", k]
  l.readSection "batch" {} <|
    (((Reading.fine Batching.mk).ap (l.read takeInt 0 ["batch", "workers"])).ap
      (flag "recursive")).ap (flag "continue_on_error")

/-- Reads all settings, with all problems in the order of the settings. -/
def Layers.reading (l : Layers) : Reading Settings :=
  (((((((Reading.fine Settings.mk).ap (l.read takeText "" ["log_level"])).ap
    (l.read takeFlag false ["verbose"])).ap l.tracing).ap l.imaging).ap l.output).ap
    l.serving).ap l.batching

/-- The settings of the layers. -/
def Layers.settings (l : Layers) : Except Failure Settings :=
  let r := l.reading
  if r.problems.isEmpty then .ok r.value
  else
    let lines := "\n".intercalate r.problems
    .error (.plain s!"decoding failed due to the following error(s):\n\n{lines}")

/-- A value as a text for messages. -/
def shownText : Tree → String
  | .text s => s
  | .int n => toString n
  | .bool b => if b then "true" else "false"
  | .real x => Decimal.plain.text x
  | _ => ""

/-- The log level of the layers. -/
def Layers.logLevel (l : Layers) : String := ((l.find ["log_level"]).map shownText).getD ""

end Perimeter.Settings
