import Perimeter.Text.Utf8

/-!
# Percent encoding

In addresses a byte may be written as a percent sign and two hexadecimal digits. A query lists names
with values in that form, where a plus sign stands for a space.
-/

namespace Perimeter.Web

/-- The value of a hexadecimal digit. -/
def hexDigit? (c : Char) : Option Nat :=
  if c.isDigit then some (c.toNat - 48)
  else if 'a' ≤ c ∧ c ≤ 'f' then some (c.toNat - 87)
  else if 'A' ≤ c ∧ c ≤ 'F' then some (c.toNat - 55)
  else none

/-- The bytes of an encoded text. -/
def percentBytes? (plusIsSpace : Bool) : List Char → Option (List UInt8)
  | [] => some []
  | '%' :: a :: b :: rest => do
    let hi ← hexDigit? a
    let lo ← hexDigit? b
    let tail ← percentBytes? plusIsSpace rest
    pure (UInt8.ofNat (hi * 16 + lo) :: tail)
  | c :: rest =>
    if c == '%' then none
    else do
      let tail ← percentBytes? plusIsSpace rest
      let c := if plusIsSpace && c == '+' then ' ' else c
      pure (c.toString.toUTF8.toList ++ tail)

/-- The text of an encoded text. -/
def percentDecode? (plusIsSpace : Bool) (s : String) : Option String := do
  let bytes ← percentBytes? plusIsSpace s.toList
  pure (Text.ofBytes bytes)

/-- Splits a text at the first occurrence of a character. -/
def cut (c : Char) (s : String) : String × String :=
  let cs := s.toList
  (String.ofList (cs.takeWhile (· != c)), String.ofList ((cs.dropWhile (· != c)).drop 1))

/-- One name with the bytes of its value. -/
def queryPair? (s : String) : Option (String × List UInt8) := do
  if s.toList.contains ';' then
    none
  else
    let (name, value) := cut '=' s
    let name ← percentDecode? true name
    let value ← percentBytes? true value.toList
    pure (name, value)

/-- The names and values of a query. -/
def query? (s : String) : Option (List (String × List UInt8)) :=
  ((s.splitOn "&").filter (!·.isEmpty)).mapM queryPair?

/-- The character stands for itself in a path. -/
def isPathChar (c : Char) : Bool := c.isAlphanum || "-_.~$&+,/:;=@".toList.contains c

/-- The digits of a byte behind a percent sign, in upper case. -/
def percentByte (b : UInt8) : List Char :=
  let digit (n : Nat) : Char := (Nat.digitChar n).toUpper
  ['%', digit (b.toNat / 16), digit (b.toNat % 16)]

/-- The encoded form of the bytes of a path. -/
def encodeBytes (bytes : List UInt8) : String :=
  String.ofList (bytes.flatMap fun b =>
    let c := Char.ofNat b.toNat
    if isPathChar c then [c] else percentByte b)

/-- The encoded form of a path. -/
def encodePath (s : String) : String := encodeBytes s.toUTF8.toList

end Perimeter.Web
