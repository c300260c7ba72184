/-!
# Checksums

Two sums over bytes that tell whether data arrived whole: the remainder of a division of polynomials over
bits, and a pair of running sums modulo a prime.
-/

namespace Perimeter.Packed

/-- One step of the division, by the polynomial `0xEDB88320` with the lowest bit first. -/
def remainderStep (c : UInt32) : UInt32 := if c &&& 1 == 1 then (c >>> 1) ^^^ 0xEDB88320 else c >>> 1

/-- Eight steps of the division. -/
def remainderOfByte (c : UInt32) : UInt32 := (List.range 8).foldl (fun c _ => remainderStep c) c

/-- The remainders of all bytes. -/
def remainderTable : Array UInt32 := Array.ofFn fun (k : Fin 256) => remainderOfByte (UInt32.ofNat k.val)

/-- Takes one more byte into a remainder. -/
def takeByte (c : UInt32) (b : UInt8) : UInt32 :=
  remainderTable.getD ((c ^^^ b.toUInt32) &&& 0xFF).toNat 0 ^^^ (c >>> 8)

/-- The remainder of some bytes. -/
def remainder (bytes : List UInt8) : UInt32 := bytes.foldl takeByte 0xFFFFFFFF ^^^ 0xFFFFFFFF

/-- The running sums of some bytes: that of the bytes and that of the sums before, both modulo 65521. -/
def runningSums (bytes : List UInt8) : UInt32 :=
  let (a, b) := bytes.foldl (fun ((a, b) : Nat × Nat) v =>
    let a := (a + v.toNat) % 65521
    (a, (b + a) % 65521)) (1, 0)
  UInt32.ofNat (b * 65536 + a)

example : remainder "123456789".toUTF8.toList = 0xCBF43926 := by decide +kernel

example : runningSums "123456789".toUTF8.toList = 0x091E01DE := by decide +kernel

end Perimeter.Packed
