import Perimeter.FileTree.Path
import Perimeter.Text.Quoted
import Perimeter.Web.Message
import Perimeter.Web.Percent

/-!
# Forms

A form comes in parts with a delimiter line between them. Each part has headers, an empty line and its
content. `Form.ofRequest` reads the form of a request; the values of the query come first.
-/

namespace Perimeter.Web

/-- The values and files of a request, in order. -/
structure Form where
  /-- Values by name. They are bytes and need not be text. -/
  values : List (String × List UInt8)
  /-- Files: the name of the part, the name of the file, and its content. -/
  files : List (String × String × Content)

namespace Form

/-- The first value of a name; empty when there is none. -/
def value (f : Form) (name : String) : String := Text.ofBytes ((f.values.lookup name).getD [])

/-- The first value of a name between quotes. -/
def quotedValue (f : Form) (name : String) : String :=
  Text.quotedBytes ((f.values.lookup name).getD [])

/-- The first file of a name. -/
def file? (f : Form) (name : String) : Option (String × Content) := f.files.lookup name

/-- Why there is no form. -/
inductive Trouble where
  | tooLarge
  | malformed
deriving DecidableEq, Repr

-- Delimited text ------------------------------------------------------------------------------

/-- How parts are told apart. -/
structure Delimiter where
  /-- The mark at the start of a delimiter line. -/
  mark : List Char
  newline : List Char := ['\r', '\n']

/-- Drops spaces and tabs. -/
def dropPadding (cs : List Char) : List Char := cs.dropWhile fun c => c == ' ' || c == '\t'

/-- The text starts with a space or a tab. -/
def startsPadded (cs : List Char) : Bool := (cs.head?.map fun c => c == ' ' || c == '\t').getD false

/-- Splits off a line, its end included. -/
def splitLine (cs : List Char) : List Char × List Char :=
  match cs.dropWhile (· != '\n') with
  | [] => (cs, [])
  | c :: rest => (cs.takeWhile (· != '\n') ++ [c], rest)

/-- The line ends the form. -/
def Delimiter.isLast (d : Delimiter) (line : List Char) : Bool :=
  let mark := d.mark ++ ['-', '-']
  mark.isPrefixOf line &&
    let rest := dropPadding (line.drop mark.length)
    rest.isEmpty || rest == d.newline

/-- The line starts a part. The first such line decides how lines end. -/
def Delimiter.starts? (d : Delimiter) (isFirst : Bool) (line : List Char) : Option Delimiter :=
  if d.mark.isPrefixOf line then
    let rest := dropPadding (line.drop d.mark.length)
    if isFirst && rest == ['\n'] then some { d with newline := ['\n'] }
    else if rest == d.newline then some d
    else none
  else none

/-- The mark stands here and is not the front of a longer word. -/
def Delimiter.standsAt (mark : List Char) (cs : List Char) : Bool :=
  mark.isPrefixOf cs &&
    match cs.drop mark.length with
    | [] => true
    | '-' :: '-' :: _ => true
    | c :: _ => c == ' ' || c == '\t' || c == '\r' || c == '\n'

/-- The text up to the next delimiter line, and the rest. -/
def Delimiter.upTo? (d : Delimiter) (acc : List Char) : List Char → Option (List Char × List Char)
  | [] => none
  | c :: rest =>
    if standsAt (d.newline ++ d.mark) (c :: rest) then some (acc.reverse, c :: rest)
    else d.upTo? (c :: acc) rest

/-- The content of a part and the rest. -/
def Delimiter.content? (d : Delimiter) (cs : List Char) : Option (List Char × List Char) :=
  if standsAt d.mark cs then some ([], cs) else d.upTo? [] cs

/-- A line without its end. -/
def dropNewline (line : List Char) : List Char :=
  match line.reverse with
  | '\n' :: '\r' :: rest => rest.reverse
  | '\n' :: rest => rest.reverse
  | _ => line

/-- The character may stand in the name of a header as it is read. -/
def isNameChar (c : Char) : Bool := c == ' ' || isHeaderChar c

/-- The character may stand in the value of a header. -/
def isValueChar (c : Char) : Bool := c == '\t' || (0x20 ≤ c.toNat && c.toNat != 0x7f)

/-- Drops spaces and tabs at both ends. -/
def trimPadding (cs : List Char) : List Char := (dropPadding (dropPadding cs).reverse).reverse

/-- Reads the lines that continue a header, at most `n`: those that start with a space or a tab. -/
def continued : Nat → List Char → List Char → List Char × List Char
  | 0, acc, cs => (acc, cs)
  | n + 1, acc, cs =>
    if startsPadded cs then
      let (line, rest) := splitLine (dropPadding cs)
      continued n (acc ++ ' ' :: trimPadding (dropNewline line)) rest
    else (acc, cs)

/-- Reads the name and the value of a header. A name may hold spaces, but then it is no known one. -/
def header? (line : List Char) : Option (String × String) :=
  let name := line.takeWhile (· != ':')
  let value := line.drop (name.length + 1)
  if name.isEmpty || name.length == line.length || !name.all isNameChar ||
      !value.all isValueChar then none
  else some (Text.lower (String.ofList name), String.ofList (dropPadding value))

/-- The headers of a part, which the end of the text may cut off. -/
inductive Headers where
  | whole (fields : List (String × String)) (rest : List Char)
  | cutOff

/-- Reads headers up to an empty line, at most `n` of them. -/
def headers? : Nat → List (String × String) → List Char → Option Headers
  | 0, _, _ => none
  | n + 1, acc, cs =>
    if cs.isEmpty then some .cutOff
    else
      let (line, rest) := splitLine cs
      let line := dropNewline line
      if line.isEmpty then some (.whole acc.reverse rest)
      else if !line.contains ':' then none
      else
        let (line, rest) := continued rest.length (trimPadding line) rest
        match header? line with
        | some h => headers? n (h :: acc) rest
        | none => none

/-- The part that headers describe. One without a name is no part of the form. -/
def partOf (headers : List (String × String)) (content : String) : Option Part := do
  let t ← MediaType.parse? ((headers.lookup "content-disposition").getD "")
  let name := (t.parameter "name").getD ""
  if t.name != "form-data" || name.isEmpty then none
  else some { name, file := (t.parameter "filename").getD "", content := .text content }

/-- Reads parts up to the last delimiter line. `n` bounds the number of lines between parts, `begun`
tells that a part was read and `fresh` that only a delimiter line may follow. -/
def parts? (d : Delimiter) : Nat → Bool → Bool → List Part → List Char → Option (List Part)
  | 0, _, _, _, _ => none
  | n + 1, begun, fresh, acc, cs =>
    let (line, rest) := splitLine cs
    if d.isLast line then some acc.reverse
    else if line.getLast? != some '\n' then none
    else
      match d.starts? (!begun) line with
      | some d =>
        if startsPadded rest then none
        else
          match headers? (rest.length + 1) [] rest with
          | none => none
          | some .cutOff => some acc.reverse
          | some (.whole hs rest) =>
            match d.content? rest with
            | none => none
            | some (content, rest) =>
              parts? d n true false ((partOf hs (String.ofList content)).toList ++ acc) rest
      | none =>
        if fresh then none
        else if !begun then parts? d n false false acc rest
        else if line == d.newline then parts? d n true true acc rest
        else none

-- Requests ------------------------------------------------------------------------------------

/-- The form of some parts. A part with a file name is a file, under the last name of that path. -/
def ofParts (query : List (String × List UInt8)) (parts : List Part) : Form where
  values := query ++ parts.filterMap fun p =>
    match p.file.isEmpty, p.content with
    | true, .text s => some (p.name, s.toUTF8.toList)
    | _, _ => none
  files := parts.filterMap fun p =>
    if p.file.isEmpty then none else some (p.name, Path.base p.file, p.content)

/-- The number of bytes that a content takes. Image files are small; their size is an estimate. -/
def contentSize : Content → Nat
  | .text s => s.utf8ByteSize
  | .image _ => 80

/-- The number of bytes that a part takes with its headers and a delimiter line. -/
def partSize (p : Part) : Nat :=
  let file := if p.file.isEmpty then 0 else p.file.utf8ByteSize + 53
  p.name.utf8ByteSize + contentSize p.content + file + 109

/-- The number of bytes of a form. -/
def size (parts : List Part) : Nat := parts.foldr (fun p n => partSize p + n) 66

/-- A name as it stands in a header, where line ends are written as their codes. -/
def headerName (s : String) : String :=
  String.join (s.toList.map fun c =>
    if c == '\r' then "%0D" else if c == '\n' then "%0A" else c.toString)

/-- The part as it is read from its headers; nothing if they cannot be read. -/
def sent? (p : Part) : Option Part :=
  let p := { p with name := headerName p.name, file := headerName p.file }
  if p.name.toList.all isValueChar && p.file.toList.all isValueChar then some p else none

/-- The boundary that a body of a type has between its parts, if it is a form. -/
def boundary? (type : String) : Option String := do
  let t ← MediaType.parse? type
  let boundary ← t.parameter "boundary"
  if t.name != "multipart/form-data" || boundary.isEmpty then none else some boundary

/-- The parts of a body that is a form, unless it is larger than `limit` bytes. -/
def bodyParts (limit : Int) : Body → Except Trouble (List Part)
  | .form parts =>
    if limit < (size parts : Int) then .error .tooLarge
    else
      match parts.mapM sent? with
      | some parts => .ok (parts.filter (!·.name.isEmpty))
      | none => .error .malformed
  | .raw type text =>
    match boundary? type with
    | none => .error .malformed
    | some boundary =>
      if limit < (text.utf8ByteSize : Int) then .error .tooLarge
      else
        let cs := text.toList
        match parts? { mark := '-' :: '-' :: boundary.toList } (cs.length + 1) false false [] cs with
        | some parts => .ok parts
        | none => .error .malformed

/-- The form of a request, unless its body is larger than `limit` bytes. -/
def ofRequest (limit : Int) (r : Request) : Except Trouble Form := do
  let parts ← bodyParts limit r.body
  match query? r.query with
  | some query => pure (ofParts query parts)
  | none => throw .malformed

end Form

end Perimeter.Web
