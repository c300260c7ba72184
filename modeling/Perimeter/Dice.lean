import Perimeter.Misuse

/-!
# Random numbers

A reproducible stream of random numbers: each draw adds a constant to a 64-bit state and mixes the
bits of the sum. Ranges and fractions are drawn from it by rejection.
-/

namespace Perimeter

/-- A stream of random numbers. -/
structure Dice where
  state : UInt64
deriving DecidableEq, Repr

namespace Dice

/-- The stream that a seed starts. -/
def ofSeed (seed : Int) : Dice := ⟨UInt64.ofNat (seed % 18446744073709551616).toNat⟩

/-- A number of 63 bits. -/
def draw (d : Dice) : UInt64 × Dice :=
  let s := d.state + 0x9E3779B97F4A7C15
  let z := (s ^^^ (s >>> 30)) * 0xBF58476D1CE4E5B9
  let z := (z ^^^ (z >>> 27)) * 0x94D049BB133111EB
  ((z ^^^ (z >>> 31)) >>> 1, ⟨s⟩)

/-- A number of 31 bits. -/
def draw31 (d : Dice) : Nat × Dice :=
  let (v, d) := d.draw
  ((v >>> 32).toNat, d)

/-- A fraction below one. A draw that rounds to one is repeated, at most `n` times. -/
def fractionIn : Nat → Dice → Float × Dice
  | 0, d => (0, d)
  | n + 1, d =>
    let (v, d) := d.draw
    let x := v.toFloat / 9223372036854775808.0
    if x == 1 then fractionIn n d else (x, d)

/-- A fraction below one. -/
def fraction (d : Dice) : Float × Dice := fractionIn 64 d

/-- Draws 31 bits until they are at most `max`, at most `n` times. -/
def drawUpTo (max : Nat) : Nat → Dice → Nat × Dice
  | 0, d => (max, d)
  | n + 1, d =>
    let (v, d) := d.draw31
    if v ≤ max then (v, d) else drawUpTo max n d

/-- A number below `n`, for `n` of at most 31 bits. -/
def below (n : Int) (d : Dice) : Except Misuse (Int × Dice) :=
  if n ≤ 0 then .error (.emptyRange n)
  else
    let k := n.toNat
    if k &&& (k - 1) == 0 then
      let (v, d) := d.draw31
      .ok ((v % k : Nat), d)
    else
      let (v, d) := drawUpTo (2147483647 - 2147483648 % k) 1000 d
      .ok ((v % k : Nat), d)

end Dice

end Perimeter
