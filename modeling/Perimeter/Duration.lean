/-!
# Durations

Durations count nanoseconds. Their text uses the largest units that fit, down to a fraction of a
second, millisecond or microsecond without trailing zeros.
-/

namespace Perimeter.Duration

/-- The digits of `n` as a fraction of `places` decimal places, with the point, and nothing for zero. -/
def fraction (places n : Nat) : String :=
  let ds := Nat.toDigits 10 n
  let ds := List.replicate (places - ds.length) '0' ++ ds
  if n == 0 then "" else "." ++ String.ofList (ds.reverse.dropWhile (· == '0')).reverse

/-- A number of nanoseconds in a unit of `10 ^ places` nanoseconds. -/
def inUnit (places n : Nat) (unit : String) : String :=
  let one := Nat.pow 10 places
  s!"{n / one}{fraction places (n % one)}{unit}"

/-- A number of nanoseconds that make a second or more. -/
def clock (n : Nat) : String :=
  let seconds := n / 1000000000
  let rest := fraction 9 (n % 1000000000)
  let minutes := seconds / 60
  let hours := minutes / 60
  (if hours == 0 then "" else s!"{hours}h") ++
    (if minutes == 0 then "" else s!"{minutes % 60}m") ++ s!"{seconds % 60}{rest}s"

/-- The text of a duration. -/
def text (nanoseconds : Int) : String :=
  let n := nanoseconds.natAbs
  (if nanoseconds < 0 then "-" else "") ++
    if n == 0 then "0s"
    else if n < 1000 then s!"{n}ns"
    else if n < 1000000 then inUnit 3 n "µs"
    else if n < 1000000000 then inUnit 6 n "ms"
    else clock n

/-- The multiple of a unit that is nearest to a duration; a half goes away from zero. What does not fit a
word becomes the outermost one. -/
def round (unit nanoseconds : Int) : Int :=
  let n := (nanoseconds.natAbs + unit.natAbs / 2) / unit.natAbs * unit.natAbs
  if nanoseconds < 0 then max (-9223372036854775808) (-(n : Int)) else min 9223372036854775807 (n : Int)

/-- The number of nanoseconds of a unit. -/
def unit? : String → Option Nat
  | "ns" => some 1
  | "us" | "µs" | "μs" => some 1000
  | "ms" => some 1000000
  | "s" => some 1000000000
  | "m" => some 60000000000
  | "h" => some 3600000000000
  | _ => none

/-- The character is part of a number. -/
def isNumeric (c : Char) : Bool := c == '.' || c.isDigit

/-- Two digits for every byte of a character. -/
def hexBytes (c : Char) : String :=
  String.join (c.toString.toUTF8.toList.map fun b =>
    "\\x" ++ String.ofList [Nat.digitChar (b.toNat / 16), Nat.digitChar (b.toNat % 16)])

/-- A text in quotes, with the bytes of all but the plain characters as numbers. -/
def quote (s : String) : String :=
  let shown (c : Char) : String :=
    if c == '"' || c == '\\' then "\\" ++ c.toString
    else if c.toNat < 0x20 || 0x7f < c.toNat then hexBytes c
    else c.toString
  "\"" ++ String.join (s.toList.map shown) ++ "\""

/-- The number of digits of fractions that count. -/
def fractionDigits : Nat := 18

/-- The part of a unit that the digits of a fraction stand for. -/
def fractionOf (unit : Nat) (digits : List Char) : Nat :=
  let ds := digits.take fractionDigits
  let value := ds.foldl (fun n c => n * 10 + (c.toNat - 48)) 0
  value * unit / Nat.pow 10 ds.length

/-- The greatest number of nanoseconds on either side of zero. -/
def bound : Nat := 9223372036854775808

/-- Reads numbers with units up to the end, at most `n` of them, and adds them up. -/
def sum (whole : String) : Nat → Nat → List Char → Except String Nat
  | 0, _, _ => .error s!"time: invalid duration {quote whole}"
  | n + 1, total, cs =>
    match cs with
    | [] => .ok total
    | cs =>
      let digits := cs.takeWhile Char.isDigit
      let (fraction, rest) := match cs.dropWhile Char.isDigit with
        | '.' :: r => (r.takeWhile Char.isDigit, r.dropWhile Char.isDigit)
        | r => ([], r)
      let name := String.ofList (rest.takeWhile (!isNumeric ·))
      let value := digits.foldl (fun n c => n * 10 + (c.toNat - 48)) 0
      if (digits.isEmpty && fraction.isEmpty) || bound < value then
        .error s!"time: invalid duration {quote whole}"
      else if name.isEmpty then .error s!"time: missing unit in duration {quote whole}"
      else
        match unit? name with
        | none => .error s!"time: unknown unit {quote name} in duration {quote whole}"
        | some unit =>
          let total := total + value * unit + fractionOf unit fraction
          if bound < total then .error s!"time: invalid duration {quote whole}"
          else sum whole n total (rest.dropWhile (!isNumeric ·))

/-- Reads a duration: a sign and numbers with units, or just zero. -/
def parse (s : String) : Except String Int := do
  let (negative, cs) := match s.toList with
    | '-' :: r => (true, r)
    | '+' :: r => (false, r)
    | r => (false, r)
  if cs == ['0'] then
    return 0
  if cs.isEmpty then
    throw s!"time: invalid duration {quote s}"
  let n ← sum s (cs.length + 1) 0 cs
  if !negative && n == bound then
    throw s!"time: invalid duration {quote s}"
  return if negative then -(n : Int) else n

end Perimeter.Duration
