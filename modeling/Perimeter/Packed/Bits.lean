/-!
# Streams of bits

Bytes read bit by bit, the lowest bit of a byte first. A position is a number of bits from the start.
-/

namespace Perimeter.Packed

/-- The bit at a position. -/
def bit? (data : Array UInt8) (pos : Nat) : Option Nat :=
  (data[pos / 8]?).map fun b => b.toNat / Nat.pow 2 (pos % 8) % 2

/-- The number that the next `n` bits make, the first bit being the lowest. -/
def bits? (data : Array UInt8) : Nat → Nat → Option (Nat × Nat)
  | 0, pos => some (0, pos)
  | n + 1, pos => do
    let b ← bit? data pos
    let (rest, pos) ← bits? data n (pos + 1)
    pure (b + 2 * rest, pos)

/-- The position of the next whole byte. -/
def wholeByte (pos : Nat) : Nat := (pos + 7) / 8 * 8

end Perimeter.Packed
