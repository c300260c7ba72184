/-!
# Shortest decimals

A binary64 value stands for the interval of reals that round to it. `Binary.shortest` finds the
decimal with the fewest digits in that interval, and among those the one nearest to the value, by
exact integer arithmetic on the bits.
-/

namespace Perimeter.Decimal

/-- A finite non-negative binary64 value, `m * 2 ^ q`. -/
structure Binary where
  m : Nat
  q : Int
  /-- The gap to the value below is half the gap to the value above. -/
  narrowBelow : Bool
deriving DecidableEq, Repr

/-- The magnitude that the bits of a finite value stand for. -/
def Binary.ofBits (bits : UInt64) : Binary :=
  let e := ((bits >>> 52) &&& 0x7FF).toNat
  let f := (bits &&& 0xFFFFFFFFFFFFF).toNat
  if e == 0 then ⟨f, -1074, false⟩ else ⟨Nat.pow 2 52 + f, (e : Int) - 1075, f == 0 && e > 1⟩

/-- The decimal number `digits * 10 ^ exponent`. -/
structure Dec where
  digits : Nat
  exponent : Int
deriving DecidableEq, Repr

/-- Compares `a * 10 ^ i` with `n * 2 ^ j`. -/
def compareScaled (a : Nat) (i : Int) (n : Nat) (j : Int) : Ordering :=
  compare (a * Nat.pow 10 i.toNat * Nat.pow 2 (-j).toNat)
    (n * Nat.pow 2 j.toNat * Nat.pow 10 (-i).toNat)

/-- The decimal lies among the reals that round to `x`, to nearest with ties to even. -/
def Binary.readsBack (x : Binary) (d : Dec) : Bool :=
  let low := if x.narrowBelow then 4 * x.m - 1 else 4 * x.m - 2
  let high := 4 * x.m + 2
  let closed := x.m % 2 == 0
  let atLow := compareScaled d.digits d.exponent low (x.q - 2)
  let atHigh := compareScaled d.digits d.exponent high (x.q - 2)
  (atLow == .gt || (closed && atLow == .eq)) && (atHigh == .lt || (closed && atHigh == .eq))

/-- Raises `k` until `x < 10 ^ k`, at most `n` times. -/
def Binary.raiseScale (x : Binary) : Nat → Int → Int
  | 0, k => k
  | n + 1, k => if compareScaled 1 k x.m x.q == .gt then k else x.raiseScale n (k + 1)

/-- The least `k` with `x < 10 ^ k`, for a non-zero `x`: an estimate from the binary logarithm that
is never too high, raised where it is too low. -/
def Binary.scale (x : Binary) : Int :=
  x.raiseScale 4 (Int.fdiv (((x.m.log2 : Int) + x.q) * 30103) 100000 - 1)

/-- The two neighbours of `x` on the grid of multiples of `10 ^ g`: the one below or equal, the one
above, and how `x` compares with the point halfway between them. -/
def Binary.neighbours (x : Binary) (g : Int) : Nat × Nat × Ordering :=
  let num := x.m * Nat.pow 2 x.q.toNat * Nat.pow 10 (-g).toNat
  let den := Nat.pow 2 (-x.q).toNat * Nat.pow 10 g.toNat
  (num / den, num / den + 1, compare (2 * (num % den)) den)

/-- The nearer of the neighbours of `x` on a grid that read back as `x`. Of two equally near ones
the even one is taken. -/
def Binary.onGrid? (x : Binary) (g : Int) : Option Dec :=
  let (a, b, side) := x.neighbours g
  match x.readsBack ⟨a, g⟩, x.readsBack ⟨b, g⟩ with
  | true, true =>
    match side with
    | .lt => some ⟨a, g⟩
    | .gt => some ⟨b, g⟩
    | .eq => some ⟨if a % 2 == 0 then a else b, g⟩
  | true, false => some ⟨a, g⟩
  | false, true => some ⟨b, g⟩
  | false, false => none

/-- Moves factors of ten from the digits to the exponent. -/
def Dec.strip : Nat → Dec → Dec
  | 0, d => d
  | n + 1, d =>
    if d.digits != 0 && d.digits % 10 == 0 then Dec.strip n ⟨d.digits / 10, d.exponent + 1⟩ else d

/-- The exact value as a decimal. -/
def Binary.exact (x : Binary) : Dec :=
  ⟨x.m * Nat.pow 2 x.q.toNat * Nat.pow 5 (-x.q).toNat, if x.q < 0 then x.q else 0⟩

/-- The shortest decimal that reads back as `x`. Zero has the digit zero. -/
def Binary.shortest (x : Binary) : Dec :=
  if x.m == 0 then ⟨0, 0⟩
  else
    let k := x.scale
    let found := (List.range 17).findSome? fun n => x.onGrid? (k - (n + 1 : Nat))
    (found.getD x.exact).strip 400

end Perimeter.Decimal
