import Perimeter.Yaml.Letter

/-!
# Places in a text

A `Cursor` is a place in a text: what follows it, and the line and column where it stands. Readers take
a cursor and give back the one behind what they read.
-/

namespace Perimeter.Yaml

/-- A place in a text. -/
structure Cursor where
  rest : List Char
  index : Nat := 0
  line : Nat := 0
  column : Nat := 0
  /-- The number of line ends since the last character that is not blank. -/
  newlines : Nat := 0

namespace Cursor

/-- The character at the cursor. -/
def head? (c : Cursor) : Option Char := c.rest.head?

/-- The character behind the one at the cursor. -/
def second? (c : Cursor) : Option Char := c.rest[1]?

/-- Goes past a character inside a line. -/
def step (c : Cursor) : Cursor :=
  match c.rest with
  | [] => c
  | x :: rest =>
    { rest
      index := c.index + 1
      line := c.line
      column := c.column + 1
      newlines := if isGap x then c.newlines else 0 }

/-- Goes past `n` characters inside a line. -/
def steps : Nat → Cursor → Cursor
  | 0, c => c
  | n + 1, c => steps n c.step

/-- Goes past a line end, which may have two characters. -/
def breakLine (c : Cursor) : Cursor :=
  let next (size : Nat) (rest : List Char) : Cursor :=
    { rest, index := c.index + size, line := c.line + 1, column := 0, newlines := c.newlines + 1 }
  match c.rest with
  | '\r' :: '\n' :: rest => next 2 rest
  | x :: rest => if isBreak x then next 1 rest else c
  | [] => c

/-- What the line end at the cursor stands for in a text that spans lines. Separators of lines and
paragraphs stand for themselves. -/
def lineEnd (c : Cursor) : List Char :=
  match c.rest with
  | x :: _ =>
    if x.toNat == 0x2028 || x.toNat == 0x2029 then [x] else if isBreak x then ['\n'] else []
  | [] => []

/-- Splits off the longest run of characters of a kind inside a line. -/
def cut (p : Char → Bool) (c : Cursor) : List Char × Cursor :=
  let run := c.rest.takeWhile p
  (run, c.steps run.length)

/-- Goes past spaces and tabs. -/
def skipGaps (c : Cursor) : Cursor := (c.cut isGap).2

/-- Goes to the end of the line. -/
def skipLine (c : Cursor) : Cursor := (c.cut (!isBreak ·)).2

/-- The cursor is at the end of a line or of the text. -/
def atLineEnd (c : Cursor) : Bool := (c.head?.map isBreak).getD true

/-- The line at the cursor is the given mark of three characters. -/
def atMark (mark : List Char) (c : Cursor) : Bool :=
  c.column == 0 && mark.isPrefixOf c.rest && endsWord c.rest[3]?

/-- A document starts or ends here. -/
def atDocumentMark (c : Cursor) : Bool := c.atMark ['-', '-', '-'] || c.atMark ['.', '.', '.']

/-- The distance within which a comment belongs to what stands before it. -/
def commentReach : Nat := 512

/-- Goes past a comment and those on the lines below it, at most `n`. Blank lines may stand between
them. -/
def skipComments : Nat → Cursor → Cursor
  | 0, c => c
  | n + 1, c =>
    let c := c.skipLine
    let between := c.rest.takeWhile fun x => isGap x || x == '\n' || x == '\r'
    if between.length < commentReach && c.rest[between.length]? == some '#' then
      skipComments n (pass between.length c)
    else c
where
  /-- Goes past `n` characters, line ends among them. -/
  pass : Nat → Cursor → Cursor
    | 0, c => c
    | n + 1, c =>
      match c.rest with
      | '\r' :: '\n' :: _ => pass (n - 1) c.breakLine
      | x :: _ => pass n (if isBreak x then c.breakLine else c.step)
      | [] => c

/-- Goes past a comment on the line of what was just read. -/
def skipTrailingComment (c : Cursor) : Cursor :=
  let gap := c.rest.takeWhile isGap
  if c.newlines == 0 && gap.length < commentReach && c.rest[gap.length]? == some '#' then c.skipLine
  else c

end Cursor

end Perimeter.Yaml
