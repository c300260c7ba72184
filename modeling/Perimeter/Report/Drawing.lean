import Perimeter.Report.Document

/-!
# Drawings

Vector drawings of contours as filled paths through the centres of the pixels. The contours of one
component share a path, so that holes stay empty under the even-odd rule.
-/

namespace Perimeter.Drawing

/-- The centre of a pixel along one axis. -/
def centre (n : Int) : String := Decimal.general.text (Float.ofInt n + 0.5)

/-- A closed path through points. -/
def path (points : List Point) : String :=
  if points.isEmpty then ""
  else
    String.join (points.zipIdx.map fun (p, i) =>
      (if i == 0 then "M" else "L") ++ s!"{centre p.x} {centre p.y} ") ++ "Z"

/-- The labels of contours in the order of their first appearance. -/
def labels (cs : List Blob.Contour) : List Int := (cs.map (·.label)).eraseDups

/-- The path of all contours with a label. -/
def labelPath (cs : List Blob.Contour) (label : Int) : String :=
  let own := (cs.filter (·.label == label)).map fun c => path c.pointList
  s!"<path data-label=\"{label}\" d=\"" ++ " ".intercalate own ++ "\"/>\n"

/-- The fill colour when none is given. -/
def defaultFill : String := "#000000"

/-- The drawing of the contours of an image of the given size. -/
def draw (width height : Int) (cs : List Blob.Contour) (fill : String) : String :=
  let fill := if fill.isEmpty then defaultFill else fill
  "<?xml version=\"1.0\" standalone=\"no\"?>\n" ++
    "<svg version=\"1.1\" xmlns=\"http://www.w3.org/2000/svg\" " ++
    s!"width=\"{width}\" height=\"{height}\" viewBox=\"0 0 {width} {height}\">\n" ++
    s!"<g fill=\"{fill}\" fill-rule=\"evenodd\" stroke=\"none\">\n" ++
    String.join ((labels cs).map (labelPath cs)) ++ "</g></svg>\n"

end Perimeter.Drawing

namespace Perimeter

/-- The drawing of a result. -/
def Blob.Result.drawing (r : Blob.Result) (fill : String) : String :=
  Drawing.draw r.width r.height r.contourList fill

/-- The contour of a traced boundary, of which a drawing needs the points only. -/
def TraceDocument.contour (d : TraceDocument) : Blob.Contour where
  label := 1
  polarity := .ofTurns d.turns
  start := d.start
  points := d.points
  startRedundant := d.startRedundant
  length := d.length
  turns := d.turns
  closed := d.complete
  pixels := 0
  bounds := ⟨0, 0, 0, 0⟩
  area := 0
  hull := []
  minRect := []

/-- The drawing of a traced boundary. -/
def TraceDocument.drawing (d : TraceDocument) : String :=
  Drawing.draw d.width d.height [d.contour] ""

end Perimeter
