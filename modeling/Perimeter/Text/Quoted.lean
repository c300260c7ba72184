import Perimeter.Text.Printable
import Perimeter.Text.Utf8

/-!
# Quoted text

Messages show a text that came from outside between double quotes, with one-letter escapes for the
usual control characters, `\x`, `\u` and `\U` escapes for everything else that is not printable, and
all printable characters as themselves.
-/

namespace Perimeter.Text

/-- The digits of `n` in base sixteen, lower case, padded with zeros to `width`. -/
def hexPadded (width n : Nat) : String :=
  let ds := Nat.toDigits 16 n
  String.ofList (List.replicate (width - ds.length) '0' ++ ds)

/-- The letter that follows the backslash for a character with a one-letter escape. -/
def escapeLetter? : Char → Option Char
  | '"' => some '"'
  | '\\' => some '\\'
  | '\x07' => some 'a'
  | '\x08' => some 'b'
  | '\x0c' => some 'f'
  | '\n' => some 'n'
  | '\r' => some 'r'
  | '\t' => some 't'
  | '\x0b' => some 'v'
  | _ => none

/-- One character of a quoted text. -/
def quotedChar (c : Char) : String :=
  match escapeLetter? c with
  | some l => String.ofList ['\\', l]
  | none =>
    if isPrintable c then c.toString
    else if c.toNat < 0x80 then "\\x" ++ hexPadded 2 c.toNat
    else if c.toNat < 0x10000 then "\\u" ++ hexPadded 4 c.toNat
    else "\\U" ++ hexPadded 8 c.toNat

/-- The text between double quotes. -/
def quoted (s : String) : String :=
  "\"" ++ s.foldl (fun acc c => acc ++ quotedChar c) "" ++ "\""

/-- Bytes behind `skip` bytes that are spent, as in a quoted text. A byte that belongs to no character is
shown by its code. -/
def quotedFrom : Nat → List UInt8 → String
  | _, [] => ""
  | skip + 1, _ :: rest => quotedFrom skip rest
  | 0, b :: rest =>
    match charAt? (b :: rest) with
    | some (c, width) => quotedChar c ++ quotedFrom (width - 1) rest
    | none => "\\x" ++ hexPadded 2 b.toNat ++ quotedFrom 0 rest

/-- Bytes between double quotes. -/
def quotedBytes (bytes : List UInt8) : String := "\"" ++ quotedFrom 0 bytes ++ "\""

end Perimeter.Text
