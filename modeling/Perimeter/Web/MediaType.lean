import Perimeter.Text.Lowercase
import Perimeter.Text.Ranges
import Perimeter.Web.Percent

/-!
# Media types

A word, possibly with a second one behind a slash, and named parameters behind semicolons, as they
describe the content of a message or of a part of one.
-/

namespace Perimeter.Web

/-- A media type. -/
structure MediaType where
  name : String
  parameters : List (String × String)

namespace MediaType

/-- The character has a meaning of its own. -/
def isSpecial (c : Char) : Bool := "()<>@,;:\\\"/[]?=".toList.contains c

/-- The character may stand in a word. -/
def isWordChar (c : Char) : Bool := 0x20 < c.toNat && c.toNat < 0x7f && !isSpecial c

/-- Splits a word off the front. -/
def word (cs : List Char) : List Char × List Char := (cs.takeWhile isWordChar, cs.dropWhile isWordChar)

/-- Reads a quoted text after its opening quote. A backslash counts only in front of a character with a
meaning of its own. -/
def quotedBody? : List Char → Option (List Char × List Char)
  | [] => none
  | '"' :: rest => some ([], rest)
  | '\\' :: c :: rest =>
    if isSpecial c then (quotedBody? rest).map fun (cs, r) => (c :: cs, r)
    else (quotedBody? (c :: rest)).map fun (cs, r) => ('\\' :: cs, r)
  | c :: rest =>
    if c == '\n' || c == '\r' then none
    else (quotedBody? rest).map fun (cs, r) => (c :: cs, r)

/-- Reads the value of a parameter. -/
def value? (cs : List Char) : Option (List Char × List Char) :=
  match cs with
  | '"' :: rest => quotedBody? rest
  | cs =>
    let (w, rest) := word cs
    if w.isEmpty then none else some (w, rest)

/-- Reads one parameter with the semicolon in front of it. -/
def parameter? (cs : List Char) : Option (String × String × List Char) :=
  match Text.trimLeft cs with
  | ';' :: rest =>
    let (name, rest) := word (Text.trimLeft rest)
    match name.isEmpty, Text.trimLeft rest with
    | false, '=' :: rest =>
      (value? (Text.trimLeft rest)).map fun (v, r) =>
        (Text.lower (String.ofList name), String.ofList v, r)
    | _, _ => none
  | _ => none

/-- Reads parameters up to the end, at most `n` of them. One semicolon may be left over. -/
def parameters? : Nat → List (String × String) → List Char → Option (List (String × String))
  | 0, _, _ => none
  | n + 1, acc, cs =>
    let cs := Text.trimLeft cs
    if cs.isEmpty then some acc.reverse
    else
      match parameter? cs with
      | none => if Text.trim (String.ofList cs) == ";" then some acc.reverse else none
      | some (name, value, rest) =>
        if (acc.lookup name).any (· != value) then none
        else parameters? n ((name, value) :: acc) rest

/-- The text of a value that names its character set and its language in front, with percent signs for
bytes. -/
def extended? (s : String) : Option String :=
  match s.splitOn "'" with
  | charset :: _ :: rest =>
    if rest.isEmpty || !(["us-ascii", "utf-8"].contains (Text.lower charset)) then none
    else percentDecode? false ("'".intercalate rest)
  | _ => none

/-- The value of a name that comes in numbered pieces, from number `k` on and at most `n` of them. -/
def pieces (ps : List (String × String)) (name : String) : Nat → Nat → String
  | 0, _ => ""
  | n + 1, k =>
    match ps.lookup s!"{name}*{k}", ps.lookup s!"{name}*{k}*" with
    | some v, _ => v ++ pieces ps name n (k + 1)
    | none, some v =>
      let text := if k == 0 then extended? v else percentDecode? false v
      text.getD "" ++ pieces ps name n (k + 1)
    | none, none => ""

/-- The value of a name that is only given with stars behind it. -/
def starred? (ps : List (String × String)) (name : String) : Option String :=
  match ps.lookup s!"{name}*" with
  | some v => extended? v
  | none =>
    if (ps.lookup s!"{name}*0").isSome || (ps.lookup s!"{name}*0*").isSome then
      some (pieces ps name ps.length 0)
    else none

/-- The value of a parameter. -/
def parameter (t : MediaType) (name : String) : Option String :=
  (starred? t.parameters name).or (t.parameters.lookup name)

/-- The text is a word, or two words with a slash between them. -/
def isName (s : String) : Bool :=
  match s.splitOn "/" with
  | [a] => !a.isEmpty && a.toList.all isWordChar
  | [a, b] => !a.isEmpty && !b.isEmpty && a.toList.all isWordChar && b.toList.all isWordChar
  | _ => false

/-- Reads a media type. -/
def parse? (s : String) : Option MediaType := do
  let cs := s.toList
  let name := Text.lower (Text.trim (String.ofList (cs.takeWhile (· != ';'))))
  if !isName name then
    none
  else
    let ps ← parameters? (cs.length + 1) [] (cs.dropWhile (· != ';'))
    pure ⟨name, ps⟩

end MediaType

end Perimeter.Web
