import Perimeter.Report.Document

/-!
# Reports to read

A few lines of plain text for every document.
-/

namespace Perimeter

/-- An integer with its sign, also in front of numbers that are not negative. -/
def signed (n : Int) : String := if n < 0 then toString n else s!"+{n}"

/-- The line that names the image, if it has a name. -/
def fileLine (file : String) : String := if file.isEmpty then "" else s!"# {file}\n"

/-- The line of a contour. -/
def Blob.Contour.line (c : Blob.Contour) : String :=
  let b := c.bounds
  s!"{c.polarity.title} {c.label}: {c.pointList.length} points, length {c.length}, " ++
    s!"turns {signed c.turns}, area {Decimal.fixed 1 c.area}, " ++
    s!"bounds ({b.minX},{b.minY})-({b.maxX},{b.maxY})\n"

/-- The lines of a result. -/
def Blob.Result.prose (r : Blob.Result) : String :=
  s!"{r.width}x{r.height}, {r.components} components, {r.contourList.length} contours\n" ++
    String.join (r.contourList.map Blob.Contour.line)

/-- The lines of a document. A document with an error shows nothing else. -/
def Document.prose (d : Document) : String :=
  fileLine d.file ++
    if !d.error.isEmpty then s!"error: {d.error}\n"
    else
      match d.result with
      | none => ""
      | some r => r.prose

/-- The lines of several documents, with an empty line between them. -/
def Document.listProse (docs : List Document) : String := "\n".intercalate (docs.map Document.prose)

/-- The lines of a traced boundary. -/
def TraceDocument.prose (d : TraceDocument) : String :=
  let state := if d.complete then "complete" else "stopped"
  fileLine d.file ++
    s!"{(Polarity.ofTurns d.turns).title} contour: start {d.start.text}, stop {d.stop.text}, " ++
    s!"length {d.length}, turns {signed d.turns}, {state}\n" ++
    " ".intercalate ((d.points.getD []).map Point.text) ++ "\n"

/-- A result in one line, for logs. -/
def Blob.summaryOf : Option Blob.Result → String
  | none => "no result"
  | some r => r.summary

end Perimeter
