import Perimeter.Json.Fields
import Perimeter.Report.Document

/-!
# Reading documents

Documents from the JSON that they are written as.
-/

namespace Perimeter

/-- A pixel from its record. -/
def Point.ofJson (j : Json) : Point := ⟨j.int "x", j.int "y"⟩

/-- A point of the plane from its record. -/
def PlanePoint.ofJson (j : Json) : PlanePoint := ⟨j.float "x", j.float "y"⟩

/-- An edge from its record. -/
def EdgeSpec.ofJson (j : Json) : EdgeSpec := ⟨j.int "x", j.int "y", .ofCode (j.int "dir")⟩

/-- A rectangle from its record. -/
def Bounds.ofJson (j : Json) : Bounds := ⟨j.int "min_x", j.int "min_y", j.int "max_x", j.int "max_y"⟩

/-- A contour from its record. -/
def Blob.Contour.ofJson (j : Json) : Blob.Contour where
  label := j.int "label"
  polarity := (Polarity.ofName? (j.text "polarity")).getD (.ofCode 0)
  start := .ofJson (j.get "start")
  points := (j.list? "points").map (·.map .ofJson)
  startRedundant := j.flag "start_suppressible"
  length := j.int "length"
  turns := j.int "turns"
  closed := j.flag "closed"
  pixels := j.int "pixels"
  bounds := .ofJson (j.get "bounds")
  area := j.float "area"
  hull := (j.list "hull").map .ofJson
  minRect := (j.list "min_rect").map .ofJson

/-- A result from its record. -/
def Blob.Result.ofJson (j : Json) : Blob.Result where
  width := j.int "width"
  height := j.int "height"
  components := j.int "components"
  contours := (j.list? "contours").map (·.map .ofJson)
  duration := j.int "duration_ns"

/-- A document from its record. -/
def Document.ofJson (j : Json) : Document where
  file := j.text "file"
  error := j.text "error"
  result := if j.has "result" then some (.ofJson (j.get "result")) else none

/-- A traced boundary from its record. -/
def TraceDocument.ofJson (j : Json) : TraceDocument where
  file := j.text "file"
  width := j.int "width"
  height := j.int "height"
  start := .ofJson (j.get "start")
  stop := .ofJson (j.get "stop")
  length := j.int "length"
  turns := j.int "turns"
  complete := j.flag "complete"
  startRedundant := j.flag "start_suppressible"
  points := (j.list? "points").map (·.map .ofJson)

end Perimeter
