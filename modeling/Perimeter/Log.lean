import Perimeter.Data

/-!
# Log records

What happens is recorded as a level, a message and named values. The named levels are four apart; a
level between them is written as the one below it and the distance.
-/

namespace Perimeter.Log

/-- The weight of a record. -/
structure Level where
  code : Int
deriving DecidableEq, Repr

namespace Level

/-- For finding errors in the program. -/
def debug : Level := ⟨-4⟩

/-- The ordinary course of things. -/
def info : Level := ⟨0⟩

/-- Something was left out or done in another way. -/
def warn : Level := ⟨4⟩

/-- Something went wrong. -/
def error : Level := ⟨8⟩

/-- A named level and the distance to it. -/
def offset (base : String) (distance : Int) : String :=
  if distance == 0 then base else if distance < 0 then s!"{base}{distance}" else s!"{base}+{distance}"

/-- The word for a level. -/
def name (l : Level) : String :=
  if l.code < info.code then offset "DEBUG" (l.code - debug.code)
  else if l.code < warn.code then offset "INFO" l.code
  else if l.code < error.code then offset "WARN" (l.code - warn.code)
  else offset "ERROR" (l.code - error.code)

end Level

/-- A log record. -/
structure Entry where
  level : Level
  message : String
  values : List (String × Data) := []

/-- The record as one line, without the time. -/
def Entry.line (e : Entry) : String :=
  match Data.json (.record ([("level", .text e.level.name), ("msg", .text e.message)] ++ e.values)) with
  | .ok v => v.compact
  | .error _ => ""

end Perimeter.Log
