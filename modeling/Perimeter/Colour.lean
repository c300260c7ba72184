import Perimeter.Failure
import Perimeter.Numeral

/-!
# Colours

A colour with straight alpha, written as six hexadecimal digits with an optional `#` in front.
-/

namespace Perimeter

/-- A colour with straight alpha. -/
structure Colour where
  red : UInt8
  green : UInt8
  blue : UInt8
  alpha : UInt8
deriving DecidableEq, Repr, Inhabited

namespace Colour

/-- An opaque shade of gray. -/
def gray (v : UInt8) : Colour := ⟨v, v, v, 255⟩

/-- The opaque colour of a number `0xrrggbb`. -/
def ofNumber (n : Nat) : Colour :=
  ⟨UInt8.ofNat (n / 65536), UInt8.ofNat (n / 256), UInt8.ofNat n, 255⟩

/-- The text after a leading `#`, if there is one. -/
def withoutMark (s : String) : String :=
  match s.toList with
  | '#' :: r => String.ofList r
  | _ => s

/-- Reads an opaque colour. -/
def parse (s : String) : Except Failure Colour :=
  let digits := withoutMark s
  let quoted := Text.quoted digits
  if digits.utf8ByteSize ≠ 6 then .error (.plain s!"invalid color {quoted}")
  else
    match Numeral.natural 16 false 0xFFFFFFFF digits.toList with
    | .ok n => .ok (ofNumber n)
    | .error e =>
      .error (.plain s!"invalid color {quoted}: strconv.ParseUint: parsing {quoted}: {e.message}")

end Colour

end Perimeter
