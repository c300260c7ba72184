/-!
# Timestamps

Recognises the plain scalars that stand for a point in time: a date, or a date and a time of day with
an optional fraction of a second and an offset.
-/

namespace Perimeter.Yaml.Timestamp

/-- Splits off one or two digits and gives their value. -/
def shortNumber? : List Char → Option (Nat × List Char)
  | a :: b :: rest =>
    if !a.isDigit then none
    else if b.isDigit then some ((a.toNat - 48) * 10 + (b.toNat - 48), rest)
    else some (a.toNat - 48, b :: rest)
  | [a] => if a.isDigit then some (a.toNat - 48, []) else none
  | [] => none

/-- Splits off a character. -/
def mark? (c : Char) : List Char → Option (List Char)
  | d :: rest => if c == d then some rest else none
  | [] => none

/-- A year has a leap day. -/
def isLeap (year : Nat) : Bool := year % 4 == 0 && (year % 100 != 0 || year % 400 == 0)

/-- The number of days of a month. -/
def daysIn (year month : Nat) : Nat :=
  if month == 2 then (if isLeap year then 29 else 28)
  else if month == 4 || month == 6 || month == 9 || month == 11 then 30
  else 31

/-- Reads a date with a year of four digits and gives what follows it. -/
def date? (cs : List Char) : Option (List Char) := do
  let year := cs.takeWhile Char.isDigit
  if year.length ≠ 4 then
    none
  let rest ← mark? '-' (cs.drop 4)
  let (month, rest) ← shortNumber? rest
  let rest ← mark? '-' rest
  let (day, rest) ← shortNumber? rest
  let y := year.foldl (fun n c => n * 10 + (c.toNat - 48)) 0
  if 1 ≤ month ∧ month ≤ 12 ∧ 1 ≤ day ∧ day ≤ daysIn y month then some rest else none

/-- Drops a fraction of a second. -/
def dropFraction : List Char → List Char
  | p :: d :: rest =>
    if (p == '.' || p == ',') && d.isDigit then rest.dropWhile Char.isDigit else p :: d :: rest
  | cs => cs

/-- Reads a time of day and gives what follows it. -/
def time? (cs : List Char) : Option (List Char) := do
  let (hour, rest) ← shortNumber? cs
  let rest ← mark? ':' rest
  let (minute, rest) ← shortNumber? rest
  let rest ← mark? ':' rest
  let (second, rest) ← shortNumber? rest
  if hour < 24 ∧ minute < 60 ∧ second < 60 then some (dropFraction rest) else none

/-- The text is an offset from universal time. -/
def isOffset : List Char → Bool
  | ['Z'] => true
  | [s, a, b, ':', c, d] =>
    (s == '+' || s == '-') && a.isDigit && b.isDigit && c.isDigit && d.isDigit
      && decide ((a.toNat - 48) * 10 + (b.toNat - 48) ≤ 24)
      && decide ((c.toNat - 48) * 10 + (d.toNat - 48) ≤ 60)
  | _ => false

/-- The text stands for a point in time. With a letter between date and time there is an offset, with
blanks there is none. -/
def recognises (cs : List Char) : Bool :=
  match date? cs with
  | none => false
  | some [] => true
  | some (sep :: rest) =>
    if sep == 'T' || sep == 't' then ((time? rest).map isOffset).getD false
    else sep == ' ' && ((time? (rest.dropWhile (· == ' '))).map List.isEmpty).getD false

end Perimeter.Yaml.Timestamp
