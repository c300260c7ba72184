import Perimeter.Blob.Find
import Perimeter.Data

/-!
# Documents

What is reported on an image: the blobs that were found in it or why there are none, or a single
boundary. Fields without content are left out of the data formats.
-/

namespace Perimeter

/-- The report on the blobs of one image. -/
structure Document where
  /-- The name of the image, possibly empty. -/
  file : String := ""
  /-- What went wrong, empty when nothing did. -/
  error : String := ""
  result : Option Blob.Result := none

/-- The report on a single boundary. -/
structure TraceDocument where
  /-- The name of the image, possibly empty. -/
  file : String
  width : Int
  height : Int
  start : EdgeSpec
  stop : EdgeSpec
  length : Int
  turns : Int
  complete : Bool
  /-- The first point lies inside a straight run. -/
  startRedundant : Bool
  /-- The points; absent when nothing was ever put in. -/
  points : Option (List Point)
deriving DecidableEq, Repr

/-- The report on a traced boundary. -/
def TraceDocument.ofTraced (file : String) (p : Picture) (t : Blob.Traced) : TraceDocument where
  file
  width := p.width
  height := p.height
  start := .ofEdge t.result.start
  stop := .ofEdge t.result.stop
  length := t.result.length
  turns := t.result.turns
  complete := t.result.complete
  startRedundant := t.startRedundant
  points := some t.points

/-- The record of a pixel. -/
def Point.data (p : Point) : Data := .record [("x", .int p.x), ("y", .int p.y)]

/-- The record of a point of the plane. -/
def PlanePoint.data (p : PlanePoint) : Data := .record [("x", .real p.x), ("y", .real p.y)]

/-- The record of an edge. -/
def EdgeSpec.data (e : EdgeSpec) : Data :=
  .record [("x", .int e.x), ("y", .int e.y), ("dir", .int e.course.code)]

/-- The record of a rectangle. -/
def Bounds.data (b : Bounds) : Data :=
  .record [("min_x", .int b.minX), ("min_y", .int b.minY), ("max_x", .int b.maxX),
    ("max_y", .int b.maxY)]

/-- A list that may be absent. -/
def Data.optional {α : Type} (f : α → Data) : Option (List α) → Data
  | none => .absent
  | some l => .list (l.map f)

/-- The record of a contour. -/
def Blob.Contour.data (c : Blob.Contour) : Data :=
  .record <|
    [("label", .int c.label), ("polarity", .text c.polarity.name), ("start", c.start.data),
      ("points", .optional Point.data c.points)] ++
    Data.fieldIf c.startRedundant "start_suppressible" (.flag true) ++
    [("length", .int c.length), ("turns", .int c.turns), ("closed", .flag c.closed),
      ("pixels", .int c.pixels), ("bounds", c.bounds.data), ("area", .real c.area)] ++
    Data.fieldIf (!c.hull.isEmpty) "hull" (.list (c.hull.map Point.data)) ++
    Data.fieldIf (!c.minRect.isEmpty) "min_rect" (.list (c.minRect.map PlanePoint.data))

/-- The record of a result. -/
def Blob.Result.data (r : Blob.Result) : Data :=
  .record
    [("width", .int r.width), ("height", .int r.height), ("components", .int r.components),
      ("contours", .optional Blob.Contour.data r.contours), ("duration_ns", .duration r.duration)]

/-- The record of a document. -/
def Document.data (d : Document) : Data :=
  .record <|
    Data.fieldIf (!d.file.isEmpty) "file" (.text d.file) ++
    Data.fieldIf (!d.error.isEmpty) "error" (.text d.error) ++
    match d.result with
    | none => []
    | some r => [("result", r.data)]

/-- The record of several documents. -/
def Document.listData (docs : Option (List Document)) : Data :=
  .record [("images", .optional Document.data docs)]

/-- The record of a traced boundary. -/
def TraceDocument.data (d : TraceDocument) : Data :=
  .record <|
    Data.fieldIf (!d.file.isEmpty) "file" (.text d.file) ++
    [("width", .int d.width), ("height", .int d.height), ("start", d.start.data),
      ("stop", d.stop.data), ("length", .int d.length), ("turns", .int d.turns),
      ("complete", .flag d.complete)] ++
    Data.fieldIf d.startRedundant "start_suppressible" (.flag true) ++
    [("points", .optional Point.data d.points)]

end Perimeter
