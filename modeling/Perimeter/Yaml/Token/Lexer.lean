import Perimeter.Yaml.Token.Block
import Perimeter.Yaml.Token.Tag

/-!
# From text to tokens

The lexer goes through a text once. It keeps the indentations of the block collections around it and, for
every flow collection around it, the place where a key may have started: whether a scalar is a key shows
only at the colon behind it, and the tokens that announce the key are then put in front of it.

A text that cannot be cut into tokens gives those that a reader could still use: a reader looks two
tokens ahead, and does not get a token that may turn out to be a key.
-/

namespace Perimeter.Yaml

/-- The place of a token that may turn out to be a key. -/
structure PendingKey where
  /-- The number of the token. -/
  token : Nat
  /-- The token can be nothing else. -/
  required : Bool
  index : Nat
  line : Nat
  column : Nat

/-- The greatest distance between the start of a key and its colon. -/
def keyReach : Nat := 1024

/-- A colon at the cursor would make the token a key. -/
def PendingKey.reaches (k : PendingKey) (c : Cursor) : Bool :=
  k.line == c.line && c.index ≤ k.index + keyReach

/-- Where the cutting of a text stands. -/
structure Lexer where
  cursor : Cursor
  tokens : Array Token := #[]
  /-- The indentation of the block collection at hand, `-1` outside all of them. -/
  indent : Int := -1
  /-- The indentations around it. -/
  indents : List Int := []
  /-- The place where a key may have started. -/
  pending : Option PendingKey := none
  /-- The same for the flow collections around the one at hand, one for each. -/
  outer : List (Option PendingKey) := []
  /-- A key may start here. -/
  keyAllowed : Bool := true
  /-- The text starts with a mark of the order of its bytes, and a character at the start of every line
  is skipped. -/
  marked : Bool := false

namespace Lexer

/-- The cursor is inside a flow collection. -/
def inFlow (l : Lexer) : Bool := !l.outer.isEmpty

/-- The greatest depth of collections. -/
def maxDepth : Nat := 10000

/-- Adds a token and goes to a place. -/
def emit (l : Lexer) (t : Token) (c : Cursor) : Lexer :=
  { l with tokens := l.tokens.push t, cursor := c }

/-- Puts a token in front of the token of a number. -/
def insert (l : Lexer) (place : Nat) (t : Token) : Lexer :=
  { l with tokens := (l.tokens.extract 0 place).push t ++ l.tokens.extract place l.tokens.size }

/-! ## Keys -/

/-- Gives up the place where a key may have started. One that is required cannot be given up. -/
def dropKey? (l : Lexer) : Option Lexer :=
  match l.pending with
  | some k => if k.required then none else some { l with pending := none }
  | none => some l

/-- A key that starts at the cursor. At the indentation of a block collection there can be nothing
else. -/
def keyHere (l : Lexer) : PendingKey where
  token := l.tokens.size
  required := !l.inFlow && l.indent == (l.cursor.column : Int)
  index := l.cursor.index
  line := l.cursor.line
  column := l.cursor.column

/-- Notes that a key may start at the cursor. -/
def noteKey? (l : Lexer) : Option Lexer :=
  if l.keyAllowed then l.dropKey?.map fun l => { l with pending := some l.keyHere } else some l

/-! ## Indentation -/

/-- Starts a block collection at a column that is deeper than the one at hand. Its token comes in front
of the token of a number. -/
def openBlock? (l : Lexer) (column place : Nat) (t : Token) : Option Lexer :=
  if l.inFlow || decide ((column : Int) ≤ l.indent) then some l
  else if maxDepth ≤ l.indents.length then none
  else some { l.insert place t with indent := column, indents := l.indent :: l.indents }

/-- Ends the block collections that are deeper than a column. -/
def closeBlocks (l : Lexer) (column : Int) : Lexer :=
  if l.inFlow then l
  else
    let (indent, indents, tokens) := go l.indent l.indents l.tokens
    { l with indent, indents, tokens }
where
  /-- Ends the collection at an indentation and those around it. -/
  go (indent : Int) : List Int → Array Token → Int × List Int × Array Token
    | [], tokens => (indent, [], tokens)
    | around :: rest, tokens =>
      if column < indent then go around rest (tokens.push .blockEnd)
      else (indent, around :: rest, tokens)

/-! ## Tokens -/

/-- Goes to the next token, over at most `n` lines. At the start of a line, where a key may start, a
tab is no blank. -/
def skipToToken : Nat → Lexer → Lexer
  | 0, l => l
  | n + 1, l =>
    let c := if l.marked && l.cursor.column == 0 then l.cursor.step else l.cursor
    let c := (c.cut fun x => x == ' ' || (x == '\t' && (l.inFlow || !l.keyAllowed))).2
    let c := if c.head? == some '#' then c.skipComments c.rest.length else c
    if c.rest.isEmpty || !c.atLineEnd then { l with cursor := c }
    else skipToToken n { l with cursor := c.breakLine, keyAllowed := l.keyAllowed || !l.inFlow }

/-- Leaves all block collections, as in front of a document. -/
def leaveBlocks? (l : Lexer) : Option Lexer := do
  let l ← (l.closeBlocks (-1)).dropKey?
  pure { l with keyAllowed := false }

/-- Reads a mark that may start a key, and enters a flow collection. -/
def openFlow? (l : Lexer) (t : Token) : Option Lexer := do
  let l ← l.noteKey?
  if maxDepth ≤ l.outer.length then
    none
  pure { l.emit t l.cursor.step with
    pending := none, outer := l.pending :: l.outer, keyAllowed := true }

/-- Leaves a flow collection. -/
def closeFlow? (l : Lexer) (t : Token) : Option Lexer := do
  let l ← l.dropKey?
  let l := { l.emit t l.cursor.step with keyAllowed := false }
  match l.outer with
  | k :: rest => pure { l with pending := k, outer := rest }
  | [] => pure l

/-- Reads the mark between the items of a flow collection. -/
def comma? (l : Lexer) : Option Lexer := do
  let l ← l.dropKey?
  pure { l.emit .comma l.cursor.step with keyAllowed := true }

/-- Reads the mark of an item of a block sequence. -/
def item? (l : Lexer) : Option Lexer := do
  if !l.inFlow && !l.keyAllowed then
    none
  let l ← l.openBlock? l.cursor.column l.tokens.size .blockSequence
  let l ← l.dropKey?
  pure { l.emit .item l.cursor.step with keyAllowed := true }

/-- Reads the mark of a key. -/
def key? (l : Lexer) : Option Lexer := do
  if !l.inFlow && !l.keyAllowed then
    none
  let l ← l.openBlock? l.cursor.column l.tokens.size .blockMapping
  let l ← l.dropKey?
  pure { l.emit .key l.cursor.step with keyAllowed := !l.inFlow }

/-- Reads the mark of a value. If a key may have started before, it did. -/
def value? (l : Lexer) : Option Lexer := do
  let simple ← match l.pending with
    | none => pure none
    | some k => if k.reaches l.cursor then pure (some k) else if k.required then none else pure none
  match simple with
  | some k =>
    let l ← (l.insert k.token .key).openBlock? k.column k.token .blockMapping
    pure { l.emit .value l.cursor.step with pending := none, keyAllowed := false }
  | none =>
    if !l.inFlow && !l.keyAllowed then
      none
    let l ← ({ l with pending := none }).openBlock? l.cursor.column l.tokens.size .blockMapping
    pure { l.emit .value l.cursor.step with keyAllowed := !l.inFlow }

/-- Reads a token that may be a key or start one. -/
def keyLike? (l : Lexer) (read : Cursor → Option (Token × Cursor)) : Option Lexer := do
  let l ← l.noteKey?
  let (t, c) ← read l.cursor
  pure { l.emit t c with keyAllowed := false }

/-- Reads a block scalar. -/
def block? (l : Lexer) (folded : Bool) : Option Lexer := do
  let l ← l.dropKey?
  let (s, c) ← blockScalar? folded l.indent l.cursor.step
  pure { l.emit (.scalar s false) c with keyAllowed := true }

/-- Reads a scalar without quotes. A key may start behind it on a new line. -/
def plain? (l : Lexer) : Option Lexer := do
  let l ← l.noteKey?
  let p ← Yaml.plain? l.inFlow (l.indent + 1) l.cursor
  pure { l.emit (.scalar p.text true) p.cursor with keyAllowed := p.broken }

/-- Reads the token that a character starts. -/
def token? (l : Lexer) (x : Char) : Option Lexer :=
  let stands := endsWord l.cursor.second?
  match x with
  | '[' => l.openFlow? .flowSequence
  | '\x7b' => l.openFlow? .flowMapping
  | ']' => l.closeFlow? .flowSequenceEnd
  | '\x7d' => l.closeFlow? .flowMappingEnd
  | ',' => l.comma?
  | '*' => l.keyLike? fun c => (name? c).map fun (s, c) => (.reference s, c)
  | '&' => l.keyLike? fun c => (name? c).map fun (s, c) => (.anchor s, c)
  | '!' => l.keyLike? tag?
  | '\'' | '"' => l.keyLike? fun c => (quoted? x c).map fun (s, c) => (.scalar s false, c)
  | _ =>
    if x == '-' && stands then l.item?
    else if x == '?' && (l.inFlow || stands) then l.key?
    else if x == ':' && (l.inFlow || stands) then l.value?
    else if (x == '|' || x == '>') && !l.inFlow then l.block? (x == '>')
    else if startsPlain l.inFlow l.cursor then l.plain?
    else none

/-- Goes past a comment behind a token. The mark of an item has none. -/
def skipTrailing (l : Lexer) : Lexer :=
  if l.tokens.back? == some .item then l else { l with cursor := l.cursor.skipTrailingComment }

/-- Reads the next token. -/
def next? (l : Lexer) : Option Lexer := do
  let l := skipToToken (l.cursor.rest.length + 1) l
  let l := l.closeBlocks l.cursor.column
  match l.cursor.head? with
  | none =>
    let l ← l.leaveBlocks?
    pure (l.emit .finish l.cursor)
  | some x =>
    let c := l.cursor
    if c.column == 0 && x == '%' then
      let l ← l.leaveBlocks?
      let (t, c) ← directive? c
      pure (l.emit t c)
    else if c.atDocumentMark then
      let l ← l.leaveBlocks?
      pure (l.emit (if x == '-' then .documentStart else .documentEnd) (c.steps 3))
    else
      let l ← l.token? x
      pure l.skipTrailing

/-- The tokens that a reader gets of a text that breaks off here. -/
def usable (l : Lexer) : List Token :=
  let open_ := (l.pending :: l.outer).filterMap fun k =>
    k.bind fun k => if k.required || k.reaches l.cursor then some k.token else none
  l.tokens.toList.take (open_.foldl min (l.tokens.size - 2))

/-- Cuts the rest of a text into at most `n` tokens. -/
def run : Nat → Lexer → List Token
  | 0, l => l.usable
  | n + 1, l =>
    match l.next? with
    | none => l.usable
    | some l' => if l'.tokens.back? == some .finish then l'.tokens.toList else run n l'

end Lexer

/-- The tokens of a text. Those of a text that can be cut to its end close with `finish`. -/
def tokens (cs : List Char) : List Token :=
  Lexer.run (cs.length + 2) { cursor := { rest := cs }, marked := cs.head? == some '\ufeff' }

end Perimeter.Yaml
