import Perimeter.Json.Basic

/-!
# Reading JSON

A strict reader of JSON texts over lists of characters. Every function consumes a front part of its
input and gives back the rest. The recursion over nested values is bounded by the length of the
text.
-/

namespace Perimeter.Json

/-- Drops the white space that JSON allows between tokens. -/
def skipSpace (cs : List Char) : List Char :=
  cs.dropWhile fun c => c == ' ' || c == '\t' || c == '\n' || c == '\r'

/-- The value of four hexadecimal digits. -/
def hex4? : List Char → Option (Nat × List Char)
  | a :: b :: c :: d :: rest => do
    let value (c : Char) : Option Nat :=
      if c.isDigit then some (c.toNat - 48)
      else if 'a' ≤ c ∧ c ≤ 'f' then some (c.toNat - 87)
      else if 'A' ≤ c ∧ c ≤ 'F' then some (c.toNat - 55)
      else none
    let w ← value a
    let x ← value b
    let y ← value c
    let z ← value d
    pure (((w * 16 + x) * 16 + y) * 16 + z, rest)
  | _ => none

/-- The character of a `\u` escape and what follows it. Two escapes may form a surrogate pair; a
surrogate without its partner becomes the replacement character. -/
def unicodeEscape? (cs : List Char) : Option (Char × List Char) := do
  let (n, rest) ← hex4? cs
  if n < 0xD800 || 0xE000 ≤ n then
    return (Char.ofNat n, rest)
  match rest with
  | '\\' :: 'u' :: more =>
    match hex4? more with
    | some (m, rest') =>
      if n < 0xDC00 && 0xDC00 ≤ m && m < 0xE000 then
        some (Char.ofNat (0x10000 + (n - 0xD800) * 0x400 + (m - 0xDC00)), rest')
      else some ('\ufffd', rest)
    | none => some ('\ufffd', rest)
  | _ => some ('\ufffd', rest)

/-- The character of a one-letter escape. -/
def letterEscape? : Char → Option Char
  | '"' => some '"'
  | '\\' => some '\\'
  | '/' => some '/'
  | 'b' => some '\x08'
  | 'f' => some '\x0c'
  | 'n' => some '\n'
  | 'r' => some '\r'
  | 't' => some '\t'
  | _ => none

/-- Reads the rest of a string literal after its opening quote. -/
def stringBody? : Nat → String → List Char → Option (String × List Char)
  | 0, _, _ => none
  | n + 1, acc, cs =>
    match cs with
    | [] => none
    | '"' :: rest => some (acc, rest)
    | '\\' :: 'u' :: rest =>
      match unicodeEscape? rest with
      | some (c, rest') => stringBody? n (acc.push c) rest'
      | none => none
    | '\\' :: l :: rest =>
      match letterEscape? l with
      | some c => stringBody? n (acc.push c) rest
      | none => none
    | c :: rest => if c.toNat < 0x20 || c == '\\' then none else stringBody? n (acc.push c) rest

/-- Splits off the leading digits. -/
def spanDigits (cs : List Char) : List Char × List Char :=
  (cs.takeWhile Char.isDigit, cs.dropWhile Char.isDigit)

/-- Reads a number literal. -/
def number? (cs : List Char) : Option (String × List Char) := do
  let (sign, cs) := match cs with
    | '-' :: r => (['-'], r)
    | r => ([], r)
  let (whole, cs) ← match cs with
    | '0' :: r => some (['0'], r)
    | c :: _ => if c.isDigit then some (spanDigits cs) else none
    | [] => none
  let (fraction, cs) ← match cs with
    | '.' :: r =>
      let (ds, r') := spanDigits r
      if ds.isEmpty then none else some ('.' :: ds, r')
    | r => some ([], r)
  let (exponent, cs) ← match cs with
    | e :: r =>
      if e == 'e' || e == 'E' then
        let (sign, r) := match r with
          | '+' :: r => (['+'], r)
          | '-' :: r => (['-'], r)
          | r => ([], r)
        let (ds, r') := spanDigits r
        if ds.isEmpty then none else some (e :: sign ++ ds, r')
      else some ([], cs)
    | [] => some ([], [])
  pure (String.ofList (sign ++ whole ++ fraction ++ exponent), cs)

/-- Drops a word from the front. -/
def word? (w : List Char) (cs : List Char) : Option (List Char) :=
  if w.isPrefixOf cs then some (cs.drop w.length) else none

mutual

/-- Reads one value, nested at most `n` deep. -/
def value? : Nat → List Char → Option (Json × List Char)
  | 0, _ => none
  | n + 1, cs =>
    match skipSpace cs with
    | '"' :: rest => (stringBody? (rest.length + 1) "" rest).map fun (s, r) => (str s, r)
    | '[' :: rest =>
      match skipSpace rest with
      | ']' :: rest' => some (arr [], rest')
      | rest' => items? n [] rest'
    | '\x7b' :: rest =>
      match skipSpace rest with
      | '\x7d' :: rest' => some (obj [], rest')
      | rest' => fields? n [] rest'
    | 't' :: rest => (word? ['r', 'u', 'e'] rest).map fun r => (bool true, r)
    | 'f' :: rest => (word? ['a', 'l', 's', 'e'] rest).map fun r => (bool false, r)
    | 'n' :: rest => (word? ['u', 'l', 'l'] rest).map fun r => (null, r)
    | cs' => (number? cs').map fun (l, r) => (num l, r)

/-- Reads the items of an array up to its closing bracket. -/
def items? : Nat → List Json → List Char → Option (Json × List Char)
  | 0, _, _ => none
  | n + 1, acc, cs =>
    match value? n cs with
    | none => none
    | some (v, rest) =>
      match skipSpace rest with
      | ',' :: rest' => items? n (v :: acc) rest'
      | ']' :: rest' => some (arr (v :: acc).reverse, rest')
      | _ => none

/-- Reads the fields of an object up to its closing brace. -/
def fields? : Nat → List (String × Json) → List Char → Option (Json × List Char)
  | 0, _, _ => none
  | n + 1, acc, cs =>
    match skipSpace cs with
    | '"' :: rest =>
      match stringBody? (rest.length + 1) "" rest with
      | none => none
      | some (k, rest') =>
        match skipSpace rest' with
        | ':' :: rest'' =>
          match value? n rest'' with
          | none => none
          | some (v, more) =>
            match skipSpace more with
            | ',' :: more' => fields? n ((k, v) :: acc) more'
            | '\x7d' :: more' => some (obj ((k, v) :: acc).reverse, more')
            | _ => none
        | _ => none
    | _ => none

end

/-- Reads a whole text as one value. -/
def parse? (s : String) : Option Json :=
  let cs := s.toList
  match value? (cs.length + 2) cs with
  | some (v, rest) => if (skipSpace rest).isEmpty then some v else none
  | none => none

end Perimeter.Json
