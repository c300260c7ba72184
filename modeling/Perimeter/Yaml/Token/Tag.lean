import Perimeter.Text.Utf8
import Perimeter.Yaml.Cursor
import Perimeter.Yaml.Token
import Perimeter.Yaml.Token.Flowing

/-!
# Names, types and directives

Anchors and references, the types of nodes, and the directives in front of a document.
-/

namespace Perimeter.Yaml

/-- Reads a name behind its mark. Only some marks may follow it directly. -/
def name? (c : Cursor) : Option (String × Cursor) :=
  let (name, c) := c.step.cut isNameChar
  if name.isEmpty ||
      !(endsWord c.head? || (c.head?.map "?:,]\x7d%@`".toList.contains).getD false) then none
  else some (String.ofList name, c)

/-! ## Types -/

/-- The character may stand in a type. -/
def isTagChar (c : Char) : Bool := isNameChar c || ";/?:@&=+$,.!~*'()[]%".toList.contains c

/-- Reads `n` more bytes of an escaped character, each as a percent sign and two digits. -/
def escapedBytes? : Nat → List Nat → Cursor → Option (List Nat × Cursor)
  | 0, done, c => some (done, c)
  | n + 1, done, c =>
    match c.rest with
    | '%' :: a :: b :: _ =>
      match hexValue? [a, b] with
      | some v => if v / 0x40 == 2 then escapedBytes? n (done ++ [v]) (c.steps 3) else none
      | none => none
    | _ => none

/-- Reads an escaped character. Its bytes are kept one by one. -/
def escapedChar? (c : Cursor) : Option (List Char × Cursor) :=
  match c.rest with
  | '%' :: a :: b :: _ => do
    let v ← hexValue? [a, b]
    if Text.byteWidth v == 0 then
      none
    let (bytes, c) ← escapedBytes? (Text.byteWidth v - 1) [v] (c.steps 3)
    pure (bytes.map Char.ofNat, c)
  | _ => none

/-- Reads the characters of a type, at most `n`, behind those in `done`. -/
def tagChars? : Nat → List Char → Cursor → Option (List Char × Cursor)
  | 0, done, c => some (done, c)
  | n + 1, done, c =>
    match c.head? with
    | some '%' =>
      match escapedChar? c with
      | some (x, c) => tagChars? n (done ++ x) c
      | none => none
    | some x => if isTagChar x then tagChars? n (done ++ [x]) c.step else some (done, c)
    | none => some (done, c)

/-- Reads the characters of a type, of which there has to be one unless some were read before. -/
def tagText? (before : List Char) (c : Cursor) : Option (String × Cursor) := do
  let (text, d) ← tagChars? c.rest.length [] c
  if before.isEmpty && d.index == c.index then none
  else pure (String.ofList (before.drop 1 ++ text), d)

/-- Reads an exclamation mark, the name behind it, and a second exclamation mark if there is one. -/
def tagHandle? (c : Cursor) : Option (List Char × Cursor) :=
  if c.head? != some '!' then none
  else
    let (name, c) := c.step.cut isNameChar
    if c.head? == some '!' then some ('!' :: name ++ ['!'], c.step) else some ('!' :: name, c)

/-- Reads a type: in full between brackets, behind a short name, or behind a single mark. -/
def tag? (c : Cursor) : Option (Token × Cursor) := do
  let (t, c) ←
    if c.second? == some '<' then do
      let (text, c) ← tagText? [] (c.steps 2)
      if c.head? == some '>' then pure (Token.tag "" text, c.step) else none
    else do
      let (front, c) ← tagHandle? c
      if 1 < front.length && front.getLast? == some '!' then
        let (text, c) ← tagText? [] c
        pure (Token.tag (String.ofList front) text, c)
      else
        let (text, c) ← tagText? front c
        pure (if text.isEmpty then Token.tag "" "!" else Token.tag "!" text, c)
  if endsWord c.head? then pure (t, c) else none

/-! ## Directives -/

/-- Reads a number of one or two digits. -/
def versionNumber? (c : Cursor) : Option (Nat × Cursor) :=
  let (digits, c) := c.cut Char.isDigit
  if digits.isEmpty || 2 < digits.length then none
  else some (digits.foldl (fun n d => n * 10 + (d.toNat - 48)) 0, c)

/-- Reads the version of a document. -/
def version? (c : Cursor) : Option (Token × Cursor) := do
  let (major, c) ← versionNumber? c.skipGaps
  if c.head? != some '.' then
    none
  let (minor, c) ← versionNumber? c.step
  pure (.version major minor, c)

/-- Reads a short name for the front part of types. -/
def handle? (c : Cursor) : Option (Token × Cursor) := do
  let (name, c) ← tagHandle? c.skipGaps
  if name.getLast? != some '!' || !((c.head?.map isGap).getD false) then
    none
  let (front, c) ← tagText? [] c.skipGaps
  if endsWord c.head? then pure (.handle (String.ofList name) front, c) else none

/-- Reads a directive with the rest of its line, on which only a comment may follow. -/
def directive? (c : Cursor) : Option (Token × Cursor) := do
  let (name, c) := c.step.cut isNameChar
  if !endsWord c.head? then
    none
  let (t, c) ← match String.ofList name with
    | "YAML" => version? c
    | "TAG" => handle? c
    | _ => none
  let c := c.skipGaps
  let c := if c.head? == some '#' then c.skipLine else c
  if c.atLineEnd then pure (t, c.breakLine) else none

end Perimeter.Yaml
