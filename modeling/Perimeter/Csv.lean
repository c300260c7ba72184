import Perimeter.Text.Ranges

/-!
# Comma-separated values

Rows of fields. A field is quoted when it holds a comma, a quote or a line end, when it starts with
white space, and when it is the mark `\.` for the end of data; quotes inside are doubled.
-/

namespace Perimeter.Csv

/-- The field cannot stand without quotes. -/
def needsQuotes (field : String) : Bool :=
  let cs := field.toList
  field == "\\." || cs.any (fun c => c == '\n' || c == '\r' || c == '"' || c == ',')
    || (cs.head?.map Text.isBlank).getD false

/-- A field as written. -/
def writeField (field : String) : String :=
  if needsQuotes field then
    "\"" ++ String.join (field.toList.map fun c => if c == '"' then "\"\"" else c.toString) ++ "\""
  else field

/-- A row as written. -/
def writeRow (row : List String) : String := ",".intercalate (row.map writeField) ++ "\n"

/-- All rows. -/
def write (rows : List (List String)) : String := String.join (rows.map writeRow)

/-- Where in a field the reader stands. -/
inductive Mode where
  | start
  /-- Inside a field without quotes, whose characters are kept last first. -/
  | bare (acc : List Char)
  /-- Inside the quotes of a field. -/
  | quoted (acc : List Char)
  /-- Behind a quote inside a quoted field, which may be the last one. -/
  | afterQuote (acc : List Char)

/-- A place in a text, with columns in bytes. -/
structure Place where
  line : Nat
  column : Nat := 1

/-- The place behind a character inside quotes. A line end starts a line if something is on it. -/
def Place.behind (p : Place) (c : Char) (rest : List Char) : Place :=
  if c == '\n' && !rest.isEmpty then ⟨p.line + 1, 1⟩ else { p with column := p.column + c.utf8Size }

/-- A complaint about a place in a row that starts on a line. -/
def complaint (start : Nat) (p : Place) (text : String) : String :=
  let front := if p.line == start then "" else s!"record on line {start}; "
  s!"{front}parse error on line {p.line}, column {p.column}: {text}"

/-- The complaint about a quote where none may be. -/
def bareQuote : String := "bare \" in non-quoted field"

/-- The complaint about quotes that do not match. -/
def wrongQuote : String := "extraneous or missing \" in quoted-field"

/-- Reads the fields of a row, which starts on line `start`, from a place on. The fields are kept last
first. -/
def readFields (start : Nat) (fields : List String) :
    Mode → Place → List Char → Except String (List String)
  | .start, _, [] => .ok ("" :: fields).reverse
  | .bare acc, _, [] | .afterQuote acc, _, [] => .ok (String.ofList acc.reverse :: fields).reverse
  | .quoted _, p, [] => .error (complaint start p wrongQuote)
  | mode, p, c :: rest =>
    let next := { p with column := p.column + c.utf8Size }
    let field (acc : List Char) : List String := String.ofList acc.reverse :: fields
    match mode, c with
    | .start, '"' => readFields start fields (.quoted []) next rest
    | .start, ',' => readFields start (field []) .start next rest
    | .start, '\n' => .ok (field []).reverse
    | .start, c => readFields start fields (.bare [c]) next rest
    | .bare acc, ',' => readFields start (field acc) .start next rest
    | .bare acc, '\n' => .ok (field acc).reverse
    | .bare _, '"' => .error (complaint start p bareQuote)
    | .bare acc, c => readFields start fields (.bare (c :: acc)) next rest
    | .quoted acc, '"' => readFields start fields (.afterQuote acc) next rest
    | .quoted acc, c => readFields start fields (.quoted (c :: acc)) (p.behind c rest) rest
    | .afterQuote acc, '"' => readFields start fields (.quoted ('"' :: acc)) next rest
    | .afterQuote acc, ',' => readFields start (field acc) .start next rest
    | .afterQuote acc, '\n' => .ok (field acc).reverse
    | .afterQuote _, _ => .error (complaint start { p with column := p.column - 1 } wrongQuote)

/-- The text with plain line ends. A carriage return at its end is dropped. -/
def plainLines : List Char → List Char
  | [] => []
  | ['\r'] => []
  | '\r' :: '\n' :: rest => '\n' :: plainLines rest
  | c :: rest => c :: plainLines rest

/-- Reads the first row of a text. Empty lines in front of it are skipped. -/
def readRow (s : String) : Except String (List String) :=
  let cs := plainLines s.toList
  let start := (cs.takeWhile (· == '\n')).length + 1
  match cs.dropWhile (· == '\n') with
  | [] => .error "EOF"
  | cs => readFields start [] .start { line := start } cs

end Perimeter.Csv
