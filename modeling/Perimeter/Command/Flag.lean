import Perimeter.Csv
import Perimeter.Duration
import Perimeter.Failure
import Perimeter.Numeral
import Perimeter.Text.Quoted

/-!
# Flags

Options on a command line. A flag has a long name and perhaps a letter. Its value follows an equals
sign or is the next argument; a switch needs none. Letters of switches may be written together.
Whatever is no flag is an argument of the command, and so is everything behind two dashes.
-/

namespace Perimeter.Command

/-- The value of a flag. -/
inductive Value where
  | text (s : String)
  | switch (b : Bool)
  | int (n : Int)
  | real (x : Float)
  /-- A duration in nanoseconds. -/
  | duration (n : Int)
  | words (l : List String)

/-- A flag with the value that it has when it is not given, which also tells its type. -/
structure Flag where
  name : String
  letter : Option Char := none
  value : Value

namespace Flag

/-- The flag needs no value. -/
def isSwitch (f : Flag) : Bool :=
  match f.value with
  | .switch _ => true
  | _ => false

/-- The names of a flag, as messages show them. -/
def shown (f : Flag) : String :=
  match f.letter with
  | some c => s!"-{c}, --{f.name}"
  | none => s!"--{f.name}"

/-- The outcome of reading a number or truth value. -/
def parsed (reader text : String) {α : Type} (make : α → Value) :
    Except Numeral.Trouble α → Except String Value
  | .ok a => .ok (make a)
  | .error e => .error s!"strconv.{reader}: parsing {Text.quoted text}: {e.message}"

/-- Reads the value of a flag. -/
def read (f : Flag) (s : String) : Except String Value :=
  match f.value with
  | .text _ => .ok (.text s)
  | .switch _ =>
    parsed "ParseBool" s .switch (match Numeral.bool? s with
      | some b => .ok b
      | none => .error .malformed)
  | .int _ => parsed "ParseInt" s .int (Numeral.int true s)
  | .real _ => parsed "ParseFloat" s .real (Numeral.float s)
  | .duration _ => (Duration.parse s).map .duration
  | .words _ => if s.isEmpty then .ok (.words []) else (Csv.readRow s).map .words

end Flag

/-- The flags that were given, each with its value. -/
abbrev Given := List (String × Value)

/-- Notes a value. A later value replaces an earlier one; words are added to those before. -/
def Given.put (g : Given) (name : String) (v : Value) : Given :=
  let v := match v, g.lookup name with
    | .words l, some (.words before) => .words (before ++ l)
    | v, _ => v
  g.filter (·.1 != name) ++ [(name, v)]

/-- A flag that waits for its value. -/
structure Waiting where
  flag : Flag
  /-- The complaint if no value comes. -/
  complaint : String

/-- What has been read of a command line. -/
structure Line where
  given : Given := []
  /-- Arguments, last first. -/
  arguments : List String := []
  waiting : Option Waiting := none
  /-- Two dashes have ended the flags. -/
  ended : Bool := false

namespace Line

/-- Gives a flag its value. -/
def assign (l : Line) (f : Flag) (s : String) : Except Failure Line :=
  match f.read s with
  | .ok v => .ok { l with given := l.given.put f.name v, waiting := none }
  | .error cause =>
    .error (.plain s!"invalid argument {Text.quoted s} for {Text.quoted f.shown} flag: {cause}")

/-- Gives a flag the value that comes with it, or waits for one. -/
def meet (l : Line) (f : Flag) (value : Option String) (complaint : String) : Except Failure Line :=
  match value with
  | some v => l.assign f v
  | none =>
    if f.isSwitch then l.assign f "true" else .ok { l with waiting := some ⟨f, complaint⟩ }

/-- A character in single quotes. -/
def quotedLetter (c : Char) : String :=
  if c == '\'' then "'\\''" else if c == '"' then "'\"'" else s!"'{Text.quotedChar c}'"

/-- The character of the first byte of a text. -/
def firstByte (s : String) : Char := Char.ofNat ((s.toUTF8.toList.head?.map UInt8.toNat).getD 0)

/-- Reads the letters behind a dash. -/
def letters (flags : List Flag) (l : Line) : List Char → Except Failure Line
  | [] => .ok l
  | c :: rest =>
    let all := String.ofList (c :: rest)
    let shown := quotedLetter (firstByte all)
    match flags.find? (·.letter == some c) with
    | none => .error (.plain s!"unknown shorthand flag: {shown} in -{all}")
    | some f =>
      match rest with
      | '=' :: v :: more => l.assign f (String.ofList (v :: more))
      | rest =>
        if f.isSwitch then do
          letters flags (← l.assign f "true") rest
        else if rest.isEmpty then l.meet f none s!"flag needs an argument: {shown} in -{all}"
        else l.assign f (String.ofList rest)

/-- Reads a long name behind two dashes. -/
def long (flags : List Flag) (l : Line) (whole : String) (cs : List Char) : Except Failure Line :=
  let name := String.ofList (cs.takeWhile (· != '='))
  let value := match cs.dropWhile (· != '=') with
    | [] => none
    | _ :: v => some (String.ofList v)
  if name.isEmpty || name.toList.head? == some '-' then .error (.plain s!"bad flag syntax: {whole}")
  else
    match flags.find? (·.name == name) with
    | none => .error (.plain s!"unknown flag: --{name}")
    | some f => l.meet f value s!"flag needs an argument: --{name}"

/-- Reads one more word of the command line. A dash in front of `test.` marks options of a test runner,
which are skipped. -/
def read (flags : List Flag) (l : Line) (word : String) : Except Failure Line :=
  match l.waiting with
  | some w => l.assign w.flag word
  | none =>
    let argument := { l with arguments := word :: l.arguments }
    if l.ended then .ok argument
    else
      match word.toList with
      | ['-', '-'] => .ok { l with ended := true }
      | '-' :: '-' :: rest => l.long flags word rest
      | '-' :: c :: rest =>
        if ['t', 'e', 's', 't', '.'].isPrefixOf (c :: rest) then .ok l else l.letters flags (c :: rest)
      | _ => .ok argument

/-- Reads a command line. -/
def parse (flags : List Flag) (args : List String) : Except Failure Line := do
  let l ← args.foldlM (read flags) {}
  match l.waiting with
  | some w => throw (.plain w.complaint)
  | none => pure { l with arguments := l.arguments.reverse }

end Line

end Perimeter.Command
