import Perimeter.Decimal.Shortest

/-!
# Layout of numbers

How the digits of a number are laid out. `Layout` holds the decisions in which the output formats
differ; `fixed` writes a set number of decimal places of the exact value.
-/

namespace Perimeter.Decimal

/-- Where positional notation ends and how wide an exponent is. -/
structure Layout where
  /-- The least exponent of the leading digit that is written positionally. -/
  plainFrom : Int
  /-- The least exponent of the leading digit, above `plainFrom`, that is not. -/
  plainBelow : Int
  /-- The least number of digits of an exponent. -/
  exponentWidth : Nat

/-- General numbers: positional for leading digits from 10⁻⁴ up to 10⁵, and exponents of at least
two digits. -/
def general : Layout := ⟨-4, 6, 2⟩

/-- Numbers of data files: positional for leading digits from 10⁻⁶ up to 10²⁰. -/
def data : Layout := ⟨-6, 21, 1⟩

/-- Positional notation, whatever the size of the number. -/
def plain : Layout := ⟨-400, 400, 2⟩

/-- The digits of a natural number. -/
def digitChars (n : Nat) : List Char := Nat.toDigits 10 n

/-- An exponent with its sign, padded with zeros. -/
def exponentText (width : Nat) (e : Int) : String :=
  let ds := digitChars e.natAbs
  let pad := List.replicate (width - ds.length) '0'
  (if e < 0 then "e-" else "e+") ++ String.ofList (pad ++ ds)

/-- Digits with the point after the first one, followed by an exponent. -/
def scientific (width : Nat) (ds : List Char) (e : Int) : String :=
  match ds with
  | [] => ""
  | [d] => String.ofList [d] ++ exponentText width e
  | d :: r => String.ofList (d :: '.' :: r) ++ exponentText width e

/-- Digits with the point in its place, for a leading digit of exponent `e`. -/
def positional (ds : List Char) (e : Int) : String :=
  if e < 0 then
    String.ofList ('0' :: '.' :: List.replicate (-e - 1).toNat '0' ++ ds)
  else
    let whole := e.toNat + 1
    if ds.length ≤ whole then String.ofList (ds ++ List.replicate (whole - ds.length) '0')
    else String.ofList (ds.take whole ++ '.' :: ds.drop whole)

/-- A decimal laid out. -/
def Layout.write (l : Layout) (d : Dec) : String :=
  let ds := digitChars d.digits
  let e := d.exponent + (ds.length : Int) - 1
  if d.digits == 0 then "0"
  else if e < l.plainFrom ∨ l.plainBelow ≤ e then scientific l.exponentWidth ds e
  else positional ds e

/-- The sign bit of a float is set. -/
def isNegative (x : Float) : Bool := x.toBits >>> 63 == 1

/-- The magnitude of a finite float. -/
def magnitude (x : Float) : Binary := Binary.ofBits (x.toBits &&& 0x7FFFFFFFFFFFFFFF)

/-- The shortest text of a float that reads back as the float. -/
def Layout.text (l : Layout) (x : Float) : String :=
  if x.isNaN then "NaN"
  else if x.isInf then (if isNegative x then "-Inf" else "+Inf")
  else (if isNegative x then "-" else "") ++ l.write (magnitude x).shortest

/-- The quotient rounded to the nearest integer, ties to even. -/
def roundDiv (num den : Nat) : Nat :=
  let q := num / den
  match compare (2 * (num % den)) den with
  | .lt => q
  | .gt => q + 1
  | .eq => if q % 2 == 0 then q else q + 1

/-- The exact value of a float rounded to a number of decimal places, ties to even. -/
def fixed (places : Nat) (x : Float) : String :=
  if x.isNaN then "NaN"
  else if x.isInf then (if isNegative x then "-Inf" else "+Inf")
  else
    let b := magnitude x
    let n := roundDiv (b.m * Nat.pow 2 b.q.toNat * Nat.pow 10 places) (Nat.pow 2 (-b.q).toNat)
    let ds := digitChars n
    let ds := List.replicate (places + 1 - ds.length) '0' ++ ds
    let whole := ds.length - places
    (if isNegative x then "-" else "") ++
      if places == 0 then String.ofList ds
      else String.ofList (ds.take whole ++ '.' :: ds.drop whole)

end Perimeter.Decimal
