import Perimeter.Csv
import Perimeter.Report.Document

/-!
# Tables of points

One row for every point of every contour.
-/

namespace Perimeter

/-- The columns of a table of blobs. -/
def Document.tableHeader : List String := ["file", "contour", "label", "polarity", "index", "x", "y"]

/-- The rows of one contour. -/
def Blob.Contour.rows (file : String) (number : Nat) (c : Blob.Contour) : List (List String) :=
  c.pointList.zipIdx.map fun (p, i) =>
    [file, toString number, toString c.label, c.polarity.name, toString i, toString p.x, toString p.y]

/-- The rows of one document. -/
def Document.rows (d : Document) : List (List String) :=
  match d.result with
  | none => []
  | some r => r.contourList.zipIdx.flatMap fun (c, i) => c.rows d.file i

/-- The table of several documents. -/
def Document.listTable (docs : List Document) : String :=
  Csv.write (Document.tableHeader :: docs.flatMap Document.rows)

/-- The table of a traced boundary. -/
def TraceDocument.table (d : TraceDocument) : String :=
  Csv.write (["index", "x", "y"] :: (d.points.getD []).zipIdx.map fun (p, i) =>
    [toString i, toString p.x, toString p.y])

end Perimeter
