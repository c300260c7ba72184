import Perimeter.Yaml.Cursor

/-!
# Block scalars

Scalars that are written on the lines below a mark, either line by line or folded into paragraphs.
-/

namespace Perimeter.Yaml

/-- What becomes of the line ends at the end of a block scalar. -/
inductive Chomp where
  /-- None is kept. -/
  | strip
  /-- One is kept. -/
  | clip
  /-- All are kept. -/
  | keep
deriving DecidableEq, Repr

/-- The marks behind the mark of a block scalar. -/
structure BlockHeader where
  chomp : Chomp := .clip
  /-- The indentation below that of the collection around it, if it is given. -/
  indent : Option Nat := none

namespace BlockHeader

/-- Reads the mark for line ends, if there is one. -/
def chomp? (c : Cursor) : Option (Chomp × Cursor) :=
  match c.head? with
  | some '+' => some (.keep, c.step)
  | some '-' => some (.strip, c.step)
  | _ => none

/-- Reads a digit for the indentation, which is not zero. -/
def indent? (h : BlockHeader) (c : Cursor) : Option (BlockHeader × Cursor) :=
  match c.head? with
  | some x =>
    if !x.isDigit then some (h, c)
    else if x == '0' then none
    else some ({ h with indent := some (x.toNat - 48) }, c.step)
  | none => some (h, c)

/-- Reads the marks in either order. -/
def marks? (c : Cursor) : Option (BlockHeader × Cursor) :=
  match chomp? c with
  | some (chomp, c) => indent? { chomp } c
  | none => do
    let (h, c) ← indent? {} c
    match h.indent, chomp? c with
    | some _, some (chomp, c) => pure ({ h with chomp }, c)
    | _, _ => pure (h, c)

/-- Reads the marks and the rest of the line, on which only a comment may follow. -/
def read? (c : Cursor) : Option (BlockHeader × Cursor) := do
  let (h, c) ← marks? c
  let c := c.skipGaps
  let c := if c.head? == some '#' then c.skipLine else c
  if c.atLineEnd then some (h, c.breakLine) else none

end BlockHeader

/-- The lines in front of a line with content. -/
structure Margin where
  /-- What their line ends stand for. -/
  breaks : List Char
  /-- The greatest column that their blanks reach. -/
  widest : Nat
  cursor : Cursor

/-- Reads indentation up to column `indent`, or all there is, and the lines that hold nothing else, at
most `n`. A tab is no indentation. -/
def margin? (indent : Option Nat) : Nat → List Char → Nat → Cursor → Option Margin
  | 0, breaks, widest, c => some ⟨breaks, widest, c⟩
  | n + 1, breaks, widest, c =>
    let blanks := c.rest.takeWhile (· == ' ')
    let room := match indent with
      | some k => min blanks.length (k - c.column)
      | none => blanks.length
    let c := c.steps room
    let widest := max widest c.column
    let inside := match indent with
      | some k => decide (c.column < k)
      | none => true
    match c.head? with
    | some x =>
      if inside && x == '\t' then none
      else if isBreak x then margin? indent n (breaks ++ c.lineEnd) widest c.breakLine
      else some ⟨breaks, widest, c⟩
    | none => some ⟨breaks, widest, c⟩

/-- Where the reading of a block scalar stands. -/
structure BlockLines where
  /-- The text so far. -/
  text : List Char := []
  /-- The end of the latest line. -/
  last : List Char := []
  /-- The ends of the empty lines below it. -/
  further : List Char := []
  /-- The latest line starts with a blank. -/
  indented : Bool := false

/-- Takes one more line with content. The line end before it is folded unless one of the two lines
starts with a blank. -/
def BlockLines.add (folded : Bool) (b : BlockLines) (line : List Char) : BlockLines :=
  let blank := (line.head?.map isGap).getD false
  let joint :=
    if folded && !b.indented && !blank && b.last.head? == some '\n' then
      if b.further.isEmpty then [' '] else []
    else b.last
  { text := b.text ++ joint ++ b.further ++ line, last := [], further := [], indented := blank }

/-- Reads the lines with content at column `indent`, at most `n`. -/
def blockLines? (folded : Bool) (indent : Nat) : Nat → BlockLines → Cursor → Option (BlockLines × Cursor)
  | 0, b, c => some (b, c)
  | n + 1, b, c =>
    if c.column != indent || c.rest.isEmpty then some (b, c)
    else
      let (line, c) := c.cut (!isBreak ·)
      let b := { b.add folded line with last := c.lineEnd }
      match margin? (some indent) c.rest.length [] 0 c.breakLine with
      | none => none
      | some m => blockLines? folded indent n { b with further := m.breaks } m.cursor

/-- The text of a block scalar with the line ends at its end. -/
def BlockLines.finish (b : BlockLines) : Chomp → String
  | .strip => String.ofList b.text
  | .clip => String.ofList (b.text ++ b.last)
  | .keep => String.ofList (b.text ++ b.last ++ b.further)

/-- Reads a block scalar behind its mark, inside a collection at indentation `around`. Without a mark for
it the first line with content sets the indentation. -/
def blockScalar? (folded : Bool) (around : Int) (c : Cursor) : Option (String × Cursor) := do
  let (h, c) ← BlockHeader.read? c
  let given := h.indent.map fun k => (max around 0).toNat + k
  let m ← margin? given (c.rest.length + 1) [] 0 c
  let indent := given.getD (max (max m.widest (around + 1).toNat) 1)
  let (b, c) ← blockLines? folded indent (c.rest.length + 1) { further := m.breaks } m.cursor
  pure (b.finish h.chomp, c)

end Perimeter.Yaml
