import Perimeter.Decimal.Layout
import Perimeter.Text.Quoted

/-!
# JSON values

Values with the fields of an object in the order in which they are written. A number is kept as its
literal, so no digit is lost between reading and writing. `Json.compact` writes a value on one line
and `Json.pretty` with two spaces a level.
-/

namespace Perimeter

/-- A JSON value. -/
inductive Json where
  | null
  | bool (b : Bool)
  /-- A number, by its literal. -/
  | num (literal : String)
  | str (s : String)
  | arr (items : List Json)
  | obj (fields : List (String × Json))
deriving Inhabited

namespace Json

/-- An integer. -/
def ofInt (n : Int) : Json := num (toString n)

/-- A finite float. -/
def ofFloat (x : Float) : Json := num (Decimal.data.text x)

/-- One character of a string literal. Characters with a meaning in markup are escaped when
`forMarkup` is set. -/
def escapeChar (forMarkup : Bool) (c : Char) : String :=
  match c with
  | '"' => "\\\""
  | '\\' => "\\\\"
  | '\n' => "\\n"
  | '\r' => "\\r"
  | '\t' => "\\t"
  | '\x08' => "\\b"
  | '\x0c' => "\\f"
  | c =>
    if c.toNat < 0x20 || c.toNat == 0x2028 || c.toNat == 0x2029
        || (forMarkup && (c == '<' || c == '>' || c == '&')) then
      "\\u" ++ Text.hexPadded 4 c.toNat
    else c.toString

/-- A string literal that is safe inside markup. -/
def quote (s : String) : String :=
  "\"" ++ s.foldl (fun acc c => acc ++ escapeChar true c) "" ++ "\""

mutual

/-- Writes a value on one line behind a text. -/
def compactOnto (acc : String) : Json → String
  | null => acc ++ "null"
  | bool b => acc ++ if b then "true" else "false"
  | num n => acc ++ n
  | str s => acc ++ quote s
  | arr items => compactItems (acc ++ "[") items ++ "]"
  | obj fields => compactFields (acc ++ "\x7b") fields ++ "\x7d"

/-- Writes the items of an array behind a text, with commas between them. -/
def compactItems (acc : String) : List Json → String
  | [] => acc
  | [v] => v.compactOnto acc
  | v :: w :: rest => compactItems (v.compactOnto acc ++ ",") (w :: rest)

/-- Writes the fields of an object behind a text, with commas between them. -/
def compactFields (acc : String) : List (String × Json) → String
  | [] => acc
  | [(k, v)] => v.compactOnto (acc ++ quote k ++ ":")
  | (k, v) :: f :: rest => compactFields (v.compactOnto (acc ++ quote k ++ ":") ++ ",") (f :: rest)

end

/-- Writes a value on one line. -/
def compact (v : Json) : String := v.compactOnto ""

/-- A line break followed by the indentation of a level. -/
def newline (level : Nat) : String := "\n" ++ String.ofList (List.replicate (2 * level) ' ')

mutual

/-- Writes a value over several lines behind a text, from an indentation level on. -/
def prettyOnto (level : Nat) (acc : String) : Json → String
  | arr [] => acc ++ "[]"
  | arr items => prettyItems (level + 1) (acc ++ "[") items ++ newline level ++ "]"
  | obj [] => acc ++ "\x7b\x7d"
  | obj fields => prettyFields (level + 1) (acc ++ "\x7b") fields ++ newline level ++ "\x7d"
  | null => acc ++ "null"
  | bool b => acc ++ if b then "true" else "false"
  | num n => acc ++ n
  | str s => acc ++ quote s

/-- Writes the items of an array behind a text, each on its own line. -/
def prettyItems (level : Nat) (acc : String) : List Json → String
  | [] => acc
  | [v] => v.prettyOnto level (acc ++ newline level)
  | v :: w :: rest => prettyItems level (v.prettyOnto level (acc ++ newline level) ++ ",") (w :: rest)

/-- Writes the fields of an object behind a text, each on its own line. -/
def prettyFields (level : Nat) (acc : String) : List (String × Json) → String
  | [] => acc
  | [(k, v)] => v.prettyOnto level (acc ++ newline level ++ quote k ++ ": ")
  | (k, v) :: f :: rest =>
    prettyFields level (v.prettyOnto level (acc ++ newline level ++ quote k ++ ": ") ++ ",") (f :: rest)

end

/-- Writes a value over several lines. -/
def pretty (v : Json) : String := v.prettyOnto 0 ""

/-- The value of a field. -/
def field? (v : Json) (key : String) : Option Json :=
  match v with
  | obj fields => fields.lookup key
  | _ => none

end Json

end Perimeter
