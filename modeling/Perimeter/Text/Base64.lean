/-!
# Base64

Bytes written with 64 characters, four for three bytes, with padding at the end. Line breaks inside the
text are ignored, and so are bits that do not fill a byte.
-/

namespace Perimeter.Base64

/-- The value of a character. -/
def digit? (c : Char) : Option Nat :=
  if 'A' ≤ c ∧ c ≤ 'Z' then some (c.toNat - 65)
  else if 'a' ≤ c ∧ c ≤ 'z' then some (c.toNat - 71)
  else if '0' ≤ c ∧ c ≤ '9' then some (c.toNat + 4)
  else if c = '+' then some 62
  else if c = '/' then some 63
  else none

/-- The first `count` of the three bytes of a number of 24 bits. -/
def bytes (count n : Nat) : List UInt8 :=
  [UInt8.ofNat (n / 65536), UInt8.ofNat (n / 256), UInt8.ofNat n].take count

/-- The number of 24 bits of four digits. -/
def quantum? (a b c d : Char) : Option Nat := do
  let w ← digit? a
  let x ← digit? b
  let y ← digit? c
  let z ← digit? d
  pure (((w * 64 + x) * 64 + y) * 64 + z)

/-- Reads groups of four characters, of which only the last may be padded. -/
def groups? : List Char → Option (List UInt8)
  | [] => some []
  | [a, b, '=', '='] => (quantum? a b 'A' 'A').map (bytes 1)
  | [a, b, c, '='] => (quantum? a b c 'A').map (bytes 2)
  | a :: b :: c :: d :: rest => do
    let n ← quantum? a b c d
    let tail ← groups? rest
    pure (bytes 3 n ++ tail)
  | _ => none

/-- The bytes of a text. -/
def decode? (s : String) : Option (List UInt8) :=
  groups? (s.toList.filter fun c => c != '\n' && c != '\r')

end Perimeter.Base64
