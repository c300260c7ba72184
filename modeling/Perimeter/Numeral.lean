/-!
# Numerals

Reading integers and floats from text. Integers may carry a sign; with an automatic base also the
markers `0x`, `0o`, `0b`, a leading zero for octal, and underscores between digits. Floats are decimal or
hexadecimal, or one of the words for infinity and not-a-number.
-/

namespace Perimeter.Numeral

/-- Why a text is no number. -/
inductive Trouble where
  /-- The text is not a numeral. -/
  | malformed
  /-- The number does not fit. -/
  | outOfRange
deriving DecidableEq, Repr

/-- The wording of a trouble. -/
def Trouble.message : Trouble → String
  | malformed => "invalid syntax"
  | outOfRange => "value out of range"

/-- The value of a digit or letter in bases up to 36. -/
def digitValue? (c : Char) : Option Nat :=
  if '0' ≤ c ∧ c ≤ '9' then some (c.toNat - 48)
  else if 'a' ≤ c ∧ c ≤ 'z' then some (c.toNat - 87)
  else if 'A' ≤ c ∧ c ≤ 'Z' then some (c.toNat - 55)
  else none

/-- The kind of the character before an underscore. -/
inductive Before where
  | beginning
  | digit
  | underscore
  | other
deriving DecidableEq

/-- Underscores stand only between digits; a base marker counts as a digit. -/
def underscoresAllowed (cs : List Char) : Bool :=
  let cs := match cs with
    | '-' :: r | '+' :: r => r
    | r => r
  match cs with
  | '0' :: m :: r =>
    let m := m.toLower
    if m == 'b' || m == 'o' || m == 'x' then go (m == 'x') .digit r else go false .beginning cs
  | _ => go false .beginning cs
where
  /-- Scans the rest of a numeral after a character of kind `before`. -/
  go (hex : Bool) (before : Before) : List Char → Bool
    | [] => before != .underscore
    | c :: r =>
      let lc := c.toLower
      if c.isDigit || (hex && 'a' ≤ lc && lc ≤ 'f') then go hex .digit r
      else if c == '_' then before == .digit && go hex .underscore r
      else before != .underscore && go hex .other r

/-- Reads digits from the left and stops at the first trouble. -/
def natural (base : Nat) (underscores : Bool) (max : Nat) (cs : List Char) : Except Trouble Nat :=
  go 0 cs
where
  /-- Continues from the value `n`. -/
  go (n : Nat) : List Char → Except Trouble Nat
    | [] => .ok n
    | c :: r =>
      if c == '_' && underscores then go n r
      else
        match digitValue? c with
        | none => .error .malformed
        | some d =>
          if base ≤ d then .error .malformed
          else if max < n * base + d then .error .outOfRange
          else go (n * base + d) r

/-- Reads the digits of an unsigned number, in base ten or with a base marker. -/
def magnitude (autoBase : Bool) (max : Nat) (cs : List Char) : Except Trouble Nat := do
  if cs.isEmpty then
    throw .malformed
  if !autoBase then
    natural 10 false max cs
  else
    let n ← match cs with
      | '0' :: m :: d :: r =>
        match m.toLower with
        | 'b' => natural 2 true max (d :: r)
        | 'o' => natural 8 true max (d :: r)
        | 'x' => natural 16 true max (d :: r)
        | _ => natural 8 true max (m :: d :: r)
      | '0' :: r => natural 8 true max r
      | cs => natural 10 true max cs
    if cs.contains '_' && !underscoresAllowed cs then
      throw .malformed
    pure n

/-- Reads a signed 64-bit integer. -/
def int (autoBase : Bool) (s : String) : Except Trouble Int := do
  let (negative, cs) := match s.toList with
    | '-' :: r => (true, r)
    | '+' :: r => (false, r)
    | r => (false, r)
  let n ← magnitude autoBase 18446744073709551615 cs
  if negative then
    if n ≤ 9223372036854775808 then pure (-(n : Int)) else throw .outOfRange
  else
    if n < 9223372036854775808 then pure n else throw .outOfRange

/-- Reads a decimal integer. -/
def decimalInt (s : String) : Except Trouble Int := int false s

/-- Reads a truth value: one of `1 t T TRUE true True` or `0 f F FALSE false False`. -/
def bool? (s : String) : Option Bool :=
  if ["1", "t", "T", "TRUE", "true", "True"].contains s then some true
  else if ["0", "f", "F", "FALSE", "false", "False"].contains s then some false
  else none

/-- The digits of a numeral before its exponent, with the point taken out. -/
structure Mantissa where
  value : Nat
  /-- The number of digits after the point. -/
  fraction : Nat
  /-- There was at least one digit. -/
  hasDigits : Bool
  rest : List Char

/-- Reads digits with at most one point. Underscores are skipped. -/
def mantissa (base : Nat) (cs : List Char) : Mantissa :=
  go 0 0 false false cs
where
  /-- Continues after some digits. -/
  go (n fraction : Nat) (point digits : Bool) : List Char → Mantissa
    | [] => ⟨n, fraction, digits, []⟩
    | c :: r =>
      if c == '_' then go n fraction point digits r
      else if c == '.' && !point then go n fraction true digits r
      else
        match digitValue? c with
        | some d =>
          if d < base then go (n * base + d) (if point then fraction + 1 else fraction) point true r
          else ⟨n, fraction, digits, c :: r⟩
        | none => ⟨n, fraction, digits, c :: r⟩

/-- Reads the digits of an exponent, with a bound so that no exponent costs much; underscores are
skipped. -/
def exponentDigits (cs : List Char) : Option (Nat × List Char) :=
  match cs with
  | c :: _ => if c.isDigit then some (go 0 cs) else none
  | [] => none
where
  /-- Continues from the value `n`. -/
  go (n : Nat) : List Char → Nat × List Char
    | [] => (n, [])
    | c :: r =>
      if c == '_' then go n r
      else if c.isDigit then go (if n < 10000 then n * 10 + (c.toNat - 48) else n) r
      else (n, c :: r)

/-- Reads an exponent behind its mark. -/
def exponent? (mark : Char) (cs : List Char) : Option (Option (Int × List Char)) :=
  match cs with
  | c :: r =>
    if c.toLower == mark then
      let (negative, r) := match r with
        | '-' :: r => (true, r)
        | '+' :: r => (false, r)
        | r => (false, r)
      some ((exponentDigits r).map fun (n, rest) => (if negative then -(n : Int) else n, rest))
    else none
  | [] => none

/-- The float nearest to `m * 10 ^ e`. -/
def scaledByTen (m : Nat) (e : Int) : Float :=
  if m == 0 then 0
  else if 400 < e then Float.ofScientific m false 800
  else if e < -((m.log2 : Int) + 1200) then 0
  else Float.ofScientific m (e < 0) e.natAbs

/-- The float nearest to `m * 2 ^ e`. -/
def scaledByTwo (m : Nat) (e : Int) : Float :=
  if m == 0 then 0
  else if 0 ≤ e then scaledByTen (m * Nat.pow 2 (min e.toNat 3000)) 0
  else if e < -((m.log2 : Int) + 1200) then 0
  else Float.ofScientific (m * Nat.pow 5 e.natAbs) true e.natAbs

/-- The words for the values that are no numbers. -/
def special? (cs : List Char) : Option Float :=
  let word := String.ofList (cs.map Char.toLower)
  if ["inf", "infinity", "+inf", "+infinity"].contains word then some (1.0 / 0.0)
  else if ["-inf", "-infinity"].contains word then some (-1.0 / 0.0)
  else if word == "nan" then some (0.0 / 0.0)
  else none

/-- Reads a float. A finite numeral whose value rounds to infinity is out of range. -/
def float (s : String) : Except Trouble Float := do
  let cs := s.toList
  if let some x := special? cs then
    return x
  let (negative, body) := match cs with
    | '-' :: r => (true, r)
    | '+' :: r => (false, r)
    | r => (false, r)
  let (hex, digits) := match body with
    | '0' :: m :: d :: r => if m.toLower == 'x' then (true, d :: r) else (false, body)
    | _ => (false, body)
  let m := mantissa (if hex then 16 else 10) digits
  if !m.hasDigits then
    throw .malformed
  let (e, rest) ← match exponent? (if hex then 'p' else 'e') m.rest with
    | some (some (e, rest)) => pure (e, rest)
    | some none => throw .malformed
    | none => if hex then throw .malformed else pure (0, m.rest)
  if !rest.isEmpty || (cs.contains '_' && !underscoresAllowed cs) then
    throw .malformed
  let x := if hex then scaledByTwo m.value (e - 4 * m.fraction) else scaledByTen m.value (e - m.fraction)
  if x.isInf then
    throw .outOfRange
  pure (if negative then -x else x)

end Perimeter.Numeral
