import Perimeter.Json.Basic
import Perimeter.Numeral

/-!
# Trees of values

What a data file holds, without regard to its format. The fields of a mapping are in the order of the
file.
-/

namespace Perimeter

/-- A value read from a data file. -/
inductive Tree where
  | null
  | bool (b : Bool)
  | int (n : Int)
  | real (x : Float)
  | text (s : String)
  /-- A point in time, as written. -/
  | moment (written : String)
  | list (items : List Tree)
  | map (fields : List (String × Tree))
deriving Inhabited

namespace Tree

mutual

/-- The tree of a JSON value. All numbers are floats, and one that does not fit a float has no tree. -/
def ofJson? : Json → Option Tree
  | .null => some null
  | .bool b => some (bool b)
  | .num l =>
    match Numeral.float l with
    | .ok x => some (real x)
    | .error _ => none
  | .str s => some (text s)
  | .arr items => (ofJsonItems? items).map list
  | .obj fields => (ofJsonFields? fields).map map

/-- The trees of the items of an array. -/
def ofJsonItems? : List Json → Option (List Tree)
  | [] => some []
  | v :: rest => do
    let t ← ofJson? v
    return t :: (← ofJsonItems? rest)

/-- The trees of the fields of an object. -/
def ofJsonFields? : List (String × Json) → Option (List (String × Tree))
  | [] => some []
  | (k, v) :: rest => do
    let t ← ofJson? v
    return (k, t) :: (← ofJsonFields? rest)

end

/-- The value is absent. -/
def isNull : Tree → Bool
  | null => true
  | _ => false

/-- The value is a mapping. -/
def isMap : Tree → Bool
  | map _ => true
  | _ => false

/-- The value of a key, the last one if the key is repeated. -/
def get? (t : Tree) (key : String) : Option Tree :=
  match t with
  | map fields => fields.reverse.lookup key
  | _ => none

end Tree

end Perimeter
