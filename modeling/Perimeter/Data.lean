import Perimeter.Duration
import Perimeter.Failure
import Perimeter.Json.Basic
import Perimeter.Yaml.Printer

/-!
# Data

Records as they are handed to a writer of a data format. JSON and YAML show the same records with the
same fields; they differ in how they write an absent list, a duration and the values that are no
numbers.
-/

namespace Perimeter

/-- A value to be written. -/
inductive Data where
  | int (n : Int)
  | real (x : Float)
  | flag (b : Bool)
  | text (s : String)
  | duration (nanoseconds : Int)
  /-- A list that is not there. -/
  | absent
  | list (items : List Data)
  | record (fields : List (String × Data))
deriving Inhabited

namespace Data

/-- The failure to write a float that is no number. -/
def notANumber (x : Float) : Failure :=
  .plain s!"json: unsupported value: {Decimal.data.text x}"

mutual

/-- The value for JSON. An absent list is `null` and a duration its number; floats must be finite. -/
def json : Data → Except Failure Json
  | int n => .ok (.ofInt n)
  | real x => if x.isNaN || x.isInf then .error (notANumber x) else .ok (.ofFloat x)
  | flag b => .ok (.bool b)
  | text s => .ok (.str s)
  | duration n => .ok (.ofInt n)
  | absent => .ok .null
  | list items => (jsonItems items).map .arr
  | record fields => (jsonFields fields).map .obj

/-- The items of a list for JSON. -/
def jsonItems : List Data → Except Failure (List Json)
  | [] => .ok []
  | v :: rest => do
    let w ← v.json
    let ws ← jsonItems rest
    pure (w :: ws)

/-- The fields of a record for JSON. -/
def jsonFields : List (String × Data) → Except Failure (List (String × Json))
  | [] => .ok []
  | (k, v) :: rest => do
    let w ← v.json
    let ws ← jsonFields rest
    pure ((k, w) :: ws)

end

/-- A float as a YAML scalar. -/
def yamlReal (x : Float) : String :=
  if x.isNaN then ".nan"
  else if x.isInf then (if Decimal.isNegative x then "-.inf" else ".inf")
  else Decimal.general.text x

mutual

/-- The value for YAML. An absent list has no items and a duration is its text. -/
def yaml : Data → Yaml
  | int n => .plain (toString n)
  | real x => .plain (yamlReal x)
  | flag b => .plain (if b then "true" else "false")
  | text s => .str s
  | duration n => .str (Duration.text n)
  | absent => .seq []
  | list items => .seq (yamlItems items)
  | record fields => .map (yamlFields fields)

/-- The items of a list for YAML. -/
def yamlItems : List Data → List Yaml
  | [] => []
  | v :: rest => v.yaml :: yamlItems rest

/-- The fields of a record for YAML. -/
def yamlFields : List (String × Data) → List (String × Yaml)
  | [] => []
  | (k, v) :: rest => (k, v.yaml) :: yamlFields rest

end

/-- The value as a JSON text of several lines. -/
def jsonText (d : Data) : Except Failure String := do
  let v ← d.json
  pure (v.pretty ++ "\n")

/-- The value as a YAML text. -/
def yamlText (d : Data) : String := d.yaml.render 2

/-- A field that is left out unless a condition holds. -/
def fieldIf (present : Bool) (name : String) (d : Data) : List (String × Data) :=
  if present then [(name, d)] else []

end Data

end Perimeter
