import Perimeter.Numeral
import Perimeter.Yaml.Cursor

/-!
# Flowing scalars

Scalars without quotes and scalars in quotes. They may span lines: a single line end becomes a space and
further ones are kept.
-/

namespace Perimeter.Yaml

/-- The blanks and line ends between two words of a scalar. -/
structure Gap where
  /-- The blanks, the latest first. They count only when no line ends. -/
  blanks : List Char := []
  /-- What the first line end stands for. -/
  first : List Char := []
  /-- What the further line ends stand for, the latest first. -/
  further : List Char := []
  /-- A line ends in the gap. -/
  broken : Bool := false

/-- What a gap becomes in the text of a scalar. -/
def Gap.text (g : Gap) : List Char :=
  if !g.broken then g.blanks.reverse
  else if g.first.head? == some '\n' then if g.further.isEmpty then [' '] else g.further.reverse
  else g.first ++ g.further.reverse

/-- Reads a gap, at most `n` characters of it. A tab in front of column `limit` of a new line is
refused. -/
def gap? (limit : Int) : Nat → Gap → Cursor → Option (Gap × Cursor)
  | 0, g, c => some (g, c)
  | n + 1, g, c =>
    match c.head? with
    | none => some (g, c)
    | some x =>
      if isGap x then
        if !g.broken then gap? limit n { g with blanks := x :: g.blanks } c.step
        else if x == '\t' && decide ((c.column : Int) < limit) then none
        else gap? limit n g c.step
      else if isBreak x then
        if g.broken then
          gap? limit n { g with further := c.lineEnd.reverse ++ g.further } c.breakLine
        else gap? limit n { g with blanks := [], first := c.lineEnd, broken := true } c.breakLine
      else some (g, c)

/-! ## Without quotes -/

/-- The character ends a word inside a flow collection. -/
def endsFlowWord (c : Char) : Bool := c == '?' || isFlowMark c

/-- The length of the word at the front. -/
def wordLength (flow : Bool) : List Char → Nat
  | [] => 0
  | c :: rest =>
    if isGap c || isBreak c || (c == ':' && endsWord rest.head?) || (flow && endsFlowWord c) then 0
    else wordLength flow rest + 1

/-- A scalar without quotes that has been read. -/
structure Plain where
  text : String
  /-- The scalar was followed by a line end. -/
  broken : Bool
  cursor : Cursor

/-- Reads words, at most `n` of them, behind the text `done` (the latest first) and a gap. Lines have
to be indented up to column `limit`, except in a flow collection. -/
def plainWords? (flow : Bool) (limit : Int) : Nat → List Char → Gap → Cursor → Option Plain
  | 0, done, g, c => some ⟨String.ofList done.reverse, g.broken, c⟩
  | n + 1, done, g, c =>
    if c.atDocumentMark || c.head? == some '#' then some ⟨String.ofList done.reverse, g.broken, c⟩
    else
      let size := wordLength flow c.rest
      let done := if size == 0 then done
        else (c.rest.take size).reverse ++ (g.text.reverse ++ done)
      let g : Gap := if size == 0 then g else {}
      let c := c.steps size
      if c.rest.isEmpty || !endsWord c.head? then some ⟨String.ofList done.reverse, g.broken, c⟩
      else
        match gap? limit c.rest.length g c with
        | none => none
        | some (g, c) =>
          if !flow && decide ((c.column : Int) < limit) then
            some ⟨String.ofList done.reverse, g.broken, c⟩
          else plainWords? flow limit n done g c

/-- Reads a scalar without quotes. -/
def plain? (flow : Bool) (limit : Int) (c : Cursor) : Option Plain :=
  plainWords? flow limit (c.rest.length + 1) [] {} c

/-- A scalar without quotes may start at the cursor. -/
def startsPlain (flow : Bool) (c : Cursor) : Bool :=
  match c.head? with
  | none => false
  | some x =>
    if x == '-' then !((c.second?.map isGap).getD false)
    else if x == '?' || x == ':' then !flow && !endsWord c.second?
    else !isGap x && !isBreak x && !isFlowMark x && !("#&*!|>'\"%@`".toList.contains x)

/-! ## In quotes -/

/-- The value of hexadecimal digits. -/
def hexValue? (cs : List Char) : Option Nat :=
  cs.foldlM (fun n c =>
    match Numeral.digitValue? c with
    | some d => if d < 16 then some (n * 16 + d) else none
    | none => none) 0

/-- The character of an escape of `k` hexadecimal digits. -/
def hexEscape? (k : Nat) (cs : List Char) : Option Char := do
  let digits := cs.take k
  if digits.length < k then
    none
  let v ← hexValue? digits
  if v.isValidChar then some (Char.ofNat v) else none

/-- The character of an escape of one letter. -/
def letterEscape? (c : Char) : Option Char :=
  match c with
  | '0' => some '\x00'
  | 'a' => some '\x07'
  | 'b' => some '\x08'
  | 't' | '\t' => some '\t'
  | 'n' => some '\n'
  | 'v' => some '\x0b'
  | 'f' => some '\x0c'
  | 'r' => some '\r'
  | 'e' => some '\x1b'
  | ' ' => some ' '
  | '"' => some '"'
  | '\'' => some '\''
  | '\\' => some '\\'
  | 'N' => some '\u0085'
  | '_' => some '\u00a0'
  | 'L' => some '\u2028'
  | 'P' => some '\u2029'
  | _ => none

/-- The number of digits of an escape, or zero for an escape of one letter. -/
def escapeDigits (c : Char) : Nat :=
  if c == 'x' then 2 else if c == 'u' then 4 else if c == 'U' then 8 else 0

/-- Reads an escape behind its backslash: its character and its length. -/
def escape? (cs : List Char) : Option (Char × Nat) := do
  let c ← cs.head?
  let digits := escapeDigits c
  if digits == 0 then
    let d ← letterEscape? c
    pure (d, 1)
  else
    let d ← hexEscape? digits (cs.drop 1)
    pure (d, digits + 1)

/-- Reads a word in quotes, at most `n` characters of it, behind the text `done` (the latest first). The
flag tells of an escaped line end behind the word. -/
def quotedWord? (quote : Char) : Nat → List Char → Cursor → Option (List Char × Bool × Cursor)
  | 0, done, c => some (done, false, c)
  | n + 1, done, c =>
    match c.head? with
    | none => some (done, false, c)
    | some x =>
      if isGap x || isBreak x then some (done, false, c)
      else if x == quote then
        if quote == '\'' && c.second? == some '\'' then quotedWord? quote n ('\'' :: done) (c.steps 2)
        else some (done, false, c)
      else if x == '\\' && quote == '"' then
        if (c.second?.map isBreak).getD false then some (done, true, c.step.breakLine)
        else
          match escape? (c.rest.drop 1) with
          | none => none
          | some (d, size) => quotedWord? quote n (d :: done) (c.steps (size + 1))
      else quotedWord? quote n (x :: done) c.step

/-- Reads words up to the closing quote, at most `n` of them. -/
def quotedWords? (quote : Char) : Nat → List Char → Cursor → Option (String × Cursor)
  | 0, _, _ => none
  | n + 1, done, c =>
    if c.atDocumentMark || c.rest.isEmpty then none
    else
      match quotedWord? quote c.rest.length done c with
      | none => none
      | some (done, escaped, c) =>
        if c.head? == some quote then some (String.ofList done.reverse, c.step)
        else
          match gap? 0 c.rest.length { broken := escaped } c with
          | none => none
          | some (g, c) => quotedWords? quote n (g.text.reverse ++ done) c

/-- Reads a scalar in quotes. -/
def quoted? (quote : Char) (c : Cursor) : Option (String × Cursor) :=
  quotedWords? quote (c.rest.length + 1) [] c.step

end Perimeter.Yaml
