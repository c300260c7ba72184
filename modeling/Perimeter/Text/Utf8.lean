/-!
# Bytes as text

Reads bytes as text in which a character takes one to four bytes. Every byte that belongs to no character
becomes the replacement character.
-/

namespace Perimeter.Text

/-- The number of bytes of a character by its first byte. No character starts with a byte that gives
zero. -/
def byteWidth (b : Nat) : Nat :=
  if b < 0x80 then 1
  else if b / 0x20 == 0x6 then 2
  else if b / 0x10 == 0xE then 3
  else if b / 0x08 == 0x1E then 4
  else 0

/-- The bits that the first of `width` bytes gives to its character. -/
def leadBits (width b : Nat) : Nat :=
  match width with
  | 1 => b
  | 2 => b % 0x20
  | 3 => b % 0x10
  | _ => b % 0x08

/-- The least code point that takes `width` bytes. -/
def leastOfWidth (width : Nat) : Nat :=
  match width with
  | 1 => 0
  | 2 => 0x80
  | 3 => 0x800
  | _ => 0x10000

/-- Adds the bits of a further byte of a character. -/
def addBits? (n : Nat) (b : UInt8) : Option Nat :=
  if b.toNat / 0x40 == 2 then some (n * 0x40 + b.toNat % 0x40) else none

/-- The character at the front of some bytes and the number of its bytes. Its code point does not fit
fewer bytes. -/
def charAt? (bytes : List UInt8) : Option (Char × Nat) := do
  let first ← bytes.head?
  let width := byteWidth first.toNat
  let more := (bytes.drop 1).take (width - 1)
  let n ← more.foldlM addBits? (leadBits width first.toNat)
  if width == 0 || more.length + 1 != width || n < leastOfWidth width || !n.isValidChar then none
  else some (Char.ofNat n, width)

/-- The characters of some bytes behind `skip` bytes that are spent. -/
def charsFrom : Nat → List UInt8 → List Char
  | _, [] => []
  | skip + 1, _ :: rest => charsFrom skip rest
  | 0, b :: rest =>
    match charAt? (b :: rest) with
    | some (c, width) => c :: charsFrom (width - 1) rest
    | none => '\ufffd' :: charsFrom 0 rest

/-- The text of some bytes. -/
def ofBytes (bytes : List UInt8) : String := String.ofList (charsFrom 0 bytes)

end Perimeter.Text
