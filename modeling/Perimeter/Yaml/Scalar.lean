import Perimeter.Numeral
import Perimeter.Yaml.Timestamp

/-!
# Plain scalars

What a scalar without quotes stands for: nothing, a truth value, a number, a point in time, or else
its own text.
-/

namespace Perimeter.Yaml

/-- The value of a plain scalar. -/
inductive Scalar where
  | null
  | bool (b : Bool)
  | int (n : Int)
  | float (x : Float)
  | timestamp (text : String)
  | str (text : String)

/-- The words with a fixed meaning. -/
def Scalar.word? (s : String) : Option Scalar :=
  if ["", "~", "null", "Null", "NULL"].contains s then some .null
  else if ["true", "True", "TRUE"].contains s then some (.bool true)
  else if ["false", "False", "FALSE"].contains s then some (.bool false)
  else if [".nan", ".NaN", ".NAN"].contains s then some (.float (0.0 / 0.0))
  else if [".inf", ".Inf", ".INF", "+.inf", "+.Inf", "+.INF"].contains s then
    some (.float (1.0 / 0.0))
  else if ["-.inf", "-.Inf", "-.INF"].contains s then some (.float (-1.0 / 0.0))
  else none

/-- Drops a sign. -/
def dropSign : List Char → List Char
  | '+' :: r | '-' :: r => r
  | r => r

/-- An exponent with at least one digit, or nothing. -/
def isExponent : List Char → Bool
  | [] => true
  | e :: r =>
    let ds := dropSign r
    (e == 'e' || e == 'E') && !ds.isEmpty && ds.all Char.isDigit

/-- A decimal number with an optional sign, point and exponent. -/
def isDecimal (cs : List Char) : Bool :=
  let cs := dropSign cs
  let whole := cs.takeWhile Char.isDigit
  match cs.dropWhile Char.isDigit with
  | '.' :: r =>
    let fraction := r.takeWhile Char.isDigit
    (!whole.isEmpty || !fraction.isEmpty) && isExponent (r.dropWhile Char.isDigit)
  | r => !whole.isEmpty && isExponent r

/-- A number in base sixty: digit groups after the first are below sixty, and a fraction may follow. -/
def isBaseSixty (cs : List Char) : Bool :=
  match dropSign cs with
  | c :: r => c.isDigit && groups false (r.dropWhile fun c => c.isDigit || c == '_')
  | [] => false
where
  /-- The groups after the first, of which `seen` tells whether there was one. -/
  groups (seen : Bool) : List Char → Bool
    | [] => seen
    | ':' :: a :: b :: rest =>
      if a.isDigit && b.isDigit then a.toNat ≤ '5'.toNat && groups true rest
      else a.isDigit && groups true (b :: rest)
    | [':', a] => a.isDigit
    | '.' :: rest => seen && rest.all fun c => c.isDigit || c == '_'
    | _ => false

/-- Reads an integer that fits a signed or an unsigned 64-bit word. -/
def wideInt? (s : String) : Option Int :=
  match Numeral.int true s with
  | .ok n => some n
  | .error _ =>
    match Numeral.magnitude true 18446744073709551615 s.toList with
    | .ok n => some n
    | .error _ => none

/-- The base of a mark for binary or octal digits. -/
def markedBase? (c : Char) : Option Nat :=
  match c with
  | 'b' => some 2
  | 'o' => some 8
  | _ => none

/-- Reads an integer whose sign stands behind the mark of its base. -/
def innerSigned? : List Char → Option Int
  | '0' :: mark :: sign :: digit :: digits => do
    let base ← markedBase? mark
    let n ← (Numeral.natural base false 9223372036854775808 (digit :: digits)).toOption
    if sign == '-' then some (-(n : Int))
    else if sign == '+' && n < 9223372036854775808 then some n
    else none
  | _ => none

/-- A scalar that starts with a sign or a digit. -/
def Scalar.numeric (s : String) : Scalar :=
  if Timestamp.recognises s.toList then .timestamp s
  else
    let digits := s.toList.filter (· != '_')
    let text := String.ofList digits
    match wideInt? text with
    | some n => .int n
    | none =>
      match if isDecimal digits then Numeral.float text else .error .malformed with
      | .ok x => .float x
      | .error _ => ((innerSigned? digits).map Scalar.int).getD (.str s)

/-- What a plain scalar stands for. -/
def Scalar.resolve (s : String) : Scalar :=
  match Scalar.word? s with
  | some v => v
  | none =>
    match s.toList with
    | c :: _ =>
      if c == '+' || c == '-' || c.isDigit then Scalar.numeric s
      else if c == '.' then
        match Numeral.float s with
        | .ok x => .float x
        | .error _ => .str s
      else .str s
    | [] => .str s

/-- The words that older readers take for truth values. -/
def isOldTruthWord (s : String) : Bool :=
  ["y", "Y", "yes", "Yes", "YES", "on", "On", "ON", "n", "N", "no", "No", "NO", "off", "Off",
    "OFF"].contains s

/-- The text would read back as itself without quotes, as far as its meaning goes. -/
def readsAsText (s : String) : Bool :=
  match Scalar.resolve s with
  | .str _ => !isOldTruthWord s && !(s.toList.contains ':' && isBaseSixty s.toList)
  | _ => false

end Perimeter.Yaml
