import Perimeter.Report.Drawing
import Perimeter.Report.Prose
import Perimeter.Report.Table
import Perimeter.Text.Lowercase

/-!
# Output formats

The formats of reports by name, and the choice of a writer.
-/

namespace Perimeter

/-- A format of a report. -/
inductive Format where
  | json
  | yaml
  | csv
  | text
  | svg
deriving DecidableEq, Repr

namespace Format

/-- All formats, in the order in which they are listed to users. -/
def all : List Format := [json, yaml, csv, text, svg]

/-- The name of a format. -/
def name : Format → String
  | json => "json"
  | yaml => "yaml"
  | csv => "csv"
  | text => "text"
  | svg => "svg"

/-- The name is that of a format, in lower case. -/
def isName (s : String) : Bool := all.any (·.name == s)

/-- Reads the name of a format in any case. No name stands for plain text. -/
def parse (s : String) : Except Failure Format :=
  let lower := Text.lower s
  match if lower.isEmpty then some text else all.find? (·.name == lower) with
  | some f => .ok f
  | none => .error (.plain s!"unsupported format: {s}")

end Format

/-- A report on the blobs of images. -/
def Document.listReport (docs : Option (List Document)) (format : String) :
    Except Failure String := do
  let list := docs.getD []
  match ← Format.parse format with
  | .json => (Document.listData docs).jsonText
  | .yaml => pure (Document.listData docs).yamlText
  | .csv => pure (Document.listTable list)
  | .text => pure (Document.listProse list)
  | .svg =>
    match list with
    | [{ result := some r, .. }] => pure (r.drawing "")
    | _ => throw (.plain s!"svg output needs exactly one successful image, got {list.length}")

/-- A report on a traced boundary. -/
def TraceDocument.report (d : TraceDocument) (format : String) : Except Failure String := do
  match ← Format.parse format with
  | .json => d.data.jsonText
  | .yaml => pure d.data.yamlText
  | .csv => pure d.table
  | .text => pure d.prose
  | .svg => pure d.drawing

end Perimeter
