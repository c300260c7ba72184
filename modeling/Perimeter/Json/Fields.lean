import Perimeter.Json.Basic
import Perimeter.Numeral

/-!
# Fields of records

The fields of JSON objects by name, with the type that is expected of them. A field that is missing has
the zero value of its type, or a value that is given with the name.
-/

namespace Perimeter.Json

/-- The value is null. -/
def isNull : Json → Bool
  | null => true
  | _ => false

/-- A number as an integer; a fraction is dropped. -/
def asInt : Json → Int
  | num l =>
    match Numeral.decimalInt l with
    | .ok n => n
    | .error _ =>
      match Numeral.float l with
      | .ok x => if x < 0 then -((-x).toUInt64.toNat : Int) else x.toUInt64.toNat
      | .error _ => 0
  | _ => 0

/-- A number as a float. -/
def asFloat : Json → Float
  | num l =>
    match Numeral.float l with
    | .ok x => x
    | .error _ => 0
  | _ => 0

/-- A text. -/
def asText : Json → String
  | str s => s
  | _ => ""

/-- A truth value. -/
def asFlag : Json → Bool
  | bool b => b
  | _ => false

/-- The items of an array. -/
def asList : Json → List Json
  | arr l => l
  | _ => []

/-- The value of a field; null when it is missing. -/
def get (j : Json) (name : String) : Json := (j.field? name).getD null

/-- The field is there and not null. -/
def has (j : Json) (name : String) : Bool := !(j.get name).isNull

/-- A field that is an integer. -/
def int (j : Json) (name : String) : Int := (j.get name).asInt

/-- A field that is a float. -/
def float (j : Json) (name : String) : Float := (j.get name).asFloat

/-- A field that is a text. -/
def text (j : Json) (name : String) : String := (j.get name).asText

/-- A field that is a truth value. -/
def flag (j : Json) (name : String) : Bool := (j.get name).asFlag

/-- A field that is an array. -/
def list (j : Json) (name : String) : List Json := (j.get name).asList

/-- The items of a field that is an array, if it is one. -/
def list? (j : Json) (name : String) : Option (List Json) :=
  match j.get name with
  | arr l => some l
  | _ => none

/-- A field that is an integer, or what it is without the field. -/
def intD (j : Json) (name : String) (otherwise : Int) : Int :=
  if j.has name then j.int name else otherwise

/-- A field that is a float, or what it is without the field. -/
def floatD (j : Json) (name : String) (otherwise : Float) : Float :=
  if j.has name then j.float name else otherwise

/-- A field that is a text, or what it is without the field. -/
def textD (j : Json) (name : String) (otherwise : String) : String :=
  if j.has name then j.text name else otherwise

/-- A field that is a truth value, or what it is without the field. -/
def flagD (j : Json) (name : String) (otherwise : Bool) : Bool :=
  if j.has name then j.flag name else otherwise

end Perimeter.Json
