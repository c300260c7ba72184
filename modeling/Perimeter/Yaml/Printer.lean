import Perimeter.Text.Quoted
import Perimeter.Yaml.Basic
import Perimeter.Yaml.Letter
import Perimeter.Yaml.Scalar

/-!
# Writing YAML

Block style throughout. Mappings and sequences inside a mapping are indented, lists without items are
`[]`, and long lines are never folded. A text is written plain where that reads back as the text, as a
literal block when it has several lines, and otherwise between single or double quotes.
-/

namespace Perimeter.Yaml

/-- Where a text starts, a character may announce something other than a text. -/
def startsSpecial : List Char → Bool
  | '-' :: '-' :: '-' :: _ => true
  | '.' :: '.' :: '.' :: _ => true
  | [c] => "#,[]\x7b\x7d&*!|>'\"%@`?:-".toList.contains c
  | c :: d :: _ =>
    "#,[]\x7b\x7d&*!|>'\"%@`".toList.contains c || ("?:-".toList.contains c && isGap d)
  | [] => false

/-- Inside a text, `: ` ends a key and ` #` starts a comment. The flag tells of a gap before. -/
def hasInnerSpecial : Bool → List Char → Bool
  | _, [] => false
  | gap, c :: rest =>
    (c == ':' && (rest.isEmpty || (rest.head?.map isGap).getD false)) || (c == '#' && gap)
      || hasInnerSpecial (isGap c || isBreak c) rest

/-- Two neighbouring characters satisfy their conditions. -/
def hasNeighbours (p q : Char → Bool) : List Char → Bool
  | a :: b :: rest => (p a && q b) || hasNeighbours p q (b :: rest)
  | _ => false

/-- How a text is written. -/
inductive Style where
  | plain
  | single
  | double
  | literal
deriving DecidableEq, Repr

/-- A character that only an escape can show. -/
def needsEscape (c : Char) : Bool := c != '\t' && !isShown c

/-- The style of a text. -/
def Style.of (s : String) : Style :=
  let cs := s.toList
  let spaceBreak := hasNeighbours (· == ' ') isBreak cs
  let breakSpace := hasNeighbours isBreak (· == ' ') cs
  let special := cs.any needsEscape
  let edge (c : Option Char) (p : Char → Bool) : Bool := (c.map p).getD false
  let trailingSpace := edge cs.getLast? (· == ' ')
  let outerGap := edge cs.head? (· == ' ') || edge cs.head? isBreak || trailingSpace
    || edge cs.getLast? isBreak
  if cs.contains '\n' && !trailingSpace && !spaceBreak && !special then .literal
  else if cs.contains '\n' || !readsAsText s then .double
  else if spaceBreak || breakSpace || special || cs.contains '\t' then .double
  else if outerGap || cs.any isBreak || startsSpecial cs || hasInnerSpecial true cs then .single
  else .plain

/-- The digits of an escape, in upper case. -/
def upperHex (width n : Nat) : String :=
  String.ofList ((Text.hexPadded width n).toList.map Char.toUpper)

/-- A character as an escape. -/
def escapedChar (c : Char) : String :=
  match c with
  | '\x00' => "\\0"
  | '\x07' => "\\a"
  | '\x08' => "\\b"
  | '\t' => "\\t"
  | '\n' => "\\n"
  | '\x0b' => "\\v"
  | '\x0c' => "\\f"
  | '\r' => "\\r"
  | '\x1b' => "\\e"
  | '"' => "\\\""
  | '\\' => "\\\\"
  | c =>
    let n := c.toNat
    if n == 0x85 then "\\N"
    else if n == 0xA0 then "\\_"
    else if n == 0x2028 then "\\L"
    else if n == 0x2029 then "\\P"
    else if n ≤ 0xFF then "\\x" ++ upperHex 2 n
    else if n ≤ 0xFFFF then "\\u" ++ upperHex 4 n
    else "\\U" ++ upperHex 8 n

/-- One character between double quotes. -/
def doubleQuotedChar (c : Char) : String :=
  if c != '"' && c != '\\' && !isBreak c && isShown c then c.toString else escapedChar c

/-- A text between double quotes. A mark of the order of bytes at its front makes escapes of all its
characters. -/
def doubleQuoted (s : String) : String :=
  let cs := s.toList
  let write := if cs.head? == some '\ufeff' then escapedChar else doubleQuotedChar
  "\"" ++ String.join (cs.map write) ++ "\""

/-- The inside of a text between single quotes, where they are doubled. -/
def doubledQuotes (cs : List Char) : List Char :=
  cs.flatMap fun c => if c == '\'' then [c, c] else [c]

/-- The header of a literal block: an indentation mark for a text that starts with a gap, and a mark
for the line ends at the end of the text. -/
def literalHeader (width : Nat) (cs : List Char) : String :=
  let hint := match cs with
    | c :: _ => if c == ' ' || isBreak c then toString width else ""
    | [] => ""
  let chomp := match cs.reverse with
    | c :: before => if !isBreak c then "-" else if (before.head?.map isBreak).getD true then "+" else ""
    | [] => "-"
  "|" ++ hint ++ chomp

/-! ## Pages -/

/-- A document that is being written. -/
structure Page where
  text : String := ""
  /-- The length of the last line. -/
  column : Nat := 0
  /-- The last line holds nothing but blanks and marks of items. -/
  fresh : Bool := true

namespace Page

/-- Writes inside a line. -/
def write (p : Page) (s : String) : Page := ⟨p.text ++ s, p.column + s.length, false⟩

/-- Writes a scalar, or the start of one, with a blank between it and a mark in front of it. -/
def scalar (p : Page) (s : String) : Page := if p.column = 0 then p.write s else p.write (" " ++ s)

/-- Writes the mark of an item. -/
def mark (p : Page) : Page := ⟨p.text.push '-', p.column + 1, p.fresh⟩

/-- Ends the line with a character. -/
def breakLine (p : Page) (c : Char) : Page := ⟨p.text.push c, 0, true⟩

/-- Goes to a column, on a new line unless the last one is fresh and not that long yet. -/
def indentTo (p : Page) (column : Nat) : Page :=
  let p := if p.fresh && p.column ≤ column then p else p.breakLine '\n'
  ⟨p.text ++ String.ofList (List.replicate (column - p.column) ' '), max column p.column, p.fresh⟩

/-- Writes characters of which some end lines. What follows a line end is indented; `broken` tells of one
in front. -/
def lines (indent : Nat) : Bool → Page → List Char → Page
  | _, p, [] => p
  | broken, p, c :: rest =>
    if isBreak c then lines indent true (p.breakLine c) rest
    else lines indent false ((if broken then p.indentTo indent else p).write c.toString) rest

/-- Writes a text, and what is below its first line at an indentation. -/
def str (width indent : Nat) (p : Page) (s : String) : Page :=
  match Style.of s with
  | .plain => p.scalar s
  | .single => (lines indent false (p.scalar "'") (doubledQuotes s.toList)).write "'"
  | .double => p.scalar (doubleQuoted s)
  | .literal => lines indent true (p.scalar (literalHeader width s.toList)) s.toList

/-- Ends the last line. -/
def finish (p : Page) : String := (p.indentTo 0).text

end Page

/-- A key, which is always on one line. -/
def keyText (s : String) : String :=
  match Style.of s with
  | .plain => s
  | .single => "'" ++ String.ofList (doubledQuotes s.toList) ++ "'"
  | _ => doubleQuoted s

/-- The next multiple of the width above an indentation. -/
def nextIndent (width indent : Nat) : Nat := width * ((indent + width) / width)

mutual

/-- Writes a value, which is at an indentation if it is a block. -/
def Page.value (width indent : Nat) (p : Page) : Yaml → Page
  | .plain t => p.scalar t
  | .str s => p.str width indent s
  | .seq [] => p.scalar "[]"
  | .map [] => p.scalar "\x7b\x7d"
  | .seq items => p.items width indent items
  | .map fields => p.fields width indent fields

/-- Writes the items of a sequence at an indentation. An item that is a block starts on the line of its
mark. -/
def Page.items (width indent : Nat) (p : Page) : List Yaml → Page
  | [] => p
  | v :: rest => ((p.indentTo indent).mark.value width (indent + 2) v).items width indent rest

/-- Writes the fields of a mapping at an indentation. A value that is a block starts below its key. -/
def Page.fields (width indent : Nat) (p : Page) : List (String × Yaml) → Page
  | [] => p
  | (k, v) :: rest =>
    let p := (p.indentTo indent).write (keyText k ++ ":")
    (p.value width (nextIndent width indent) v).fields width indent rest

end

/-- Writes a value as a document whose blocks are indented by `width`. -/
def render (width : Nat) (v : Yaml) : String := (Page.value width 0 {} v).finish

end Perimeter.Yaml
