import Perimeter.Failure
import Perimeter.Geometry.Plane

/-!
# Blobs

The outlines of the blobs of a picture: one outer contour for every component of ink, and one hole
contour for every enclosed background region.
-/

namespace Perimeter

/-- Tells outer boundaries from the boundaries of holes. -/
inductive Polarity where
  | outer
  | hole
  /-- A number that stands for neither. -/
  | unknown (code : Int)
deriving DecidableEq, Repr

namespace Polarity

/-- Reads a polarity number. -/
def ofCode (n : Int) : Polarity :=
  if n = 1 then outer else if n = -1 then hole else unknown n

/-- The number of a polarity. -/
def code : Polarity → Int
  | outer => 1
  | hole => -1
  | unknown n => n

/-- The word for a polarity. All but holes count as outer. -/
def name : Polarity → String
  | hole => "hole"
  | _ => "outer"

/-- The word with a capital. -/
def title : Polarity → String
  | hole => "Hole"
  | _ => "Outer"

/-- Reads the word for a polarity. -/
def ofName? : String → Option Polarity
  | "outer" => some outer
  | "hole" => some hole
  | _ => none

/-- Reads the word for a polarity and refuses other texts. -/
def parse (s : String) : Except Failure Polarity :=
  match ofName? s with
  | some p => .ok p
  | none => .error (.plain s!"unknown polarity {Text.quoted s}")

/-- The polarity of a closed walk by its net number of turns. -/
def ofTurns (turns : Int) : Polarity := if turns < 0 then hole else outer

end Polarity

/-- A rectangle of pixels, all sides included. -/
structure Bounds where
  minX : Int
  minY : Int
  maxX : Int
  maxY : Int
deriving DecidableEq, Repr

namespace Bounds

/-- The number of columns. -/
def width (b : Bounds) : Int := wrap64 (b.maxX - b.minX + 1)

/-- The number of rows. -/
def height (b : Bounds) : Int := wrap64 (b.maxY - b.minY + 1)

end Bounds

namespace Blob

/-- One traced boundary. -/
structure Contour where
  /-- The number of the component that the boundary belongs to. -/
  label : Int
  polarity : Polarity
  start : EdgeSpec
  /-- The points; absent when there are none. -/
  points : Option (List Point)
  /-- The first point lies inside a straight run. -/
  startRedundant : Bool
  length : Int
  turns : Int
  closed : Bool
  /-- The number of pixels of the component or hole. -/
  pixels : Int
  bounds : Bounds
  area : Float
  /-- The convex hull, when it was asked for. -/
  hull : List Point
  /-- The least enclosing rectangle, when it was asked for. -/
  minRect : List PlanePoint

/-- The points of a contour as a list. -/
def Contour.pointList (c : Contour) : List Point := c.points.getD []

/-- How to extract blobs. -/
structure Config where
  orientation : Orientation := .counterclockwise
  suppressBorder : Bool := false
  /-- Keep only the end points of straight runs. -/
  chain : Bool := false
  /-- Trace the boundaries of holes too. -/
  holes : Bool := true
  /-- Components with fewer pixels, and their holes, are left out. -/
  minPixels : Int := 1
  /-- Caps the length of every walk when positive. -/
  maxLength : Int := 0
  /-- The tolerance for thinning the outlines, when positive. -/
  tolerance : Float := 0
  /-- Add the convex hull and the least enclosing rectangle. -/
  hull : Bool := false

/-- All contours of one picture: outer ones in the order of their components, then holes. -/
structure Result where
  width : Int
  height : Int
  /-- The number of components that were traced. -/
  components : Int
  /-- The contours; absent when there are none. -/
  contours : Option (List Contour)
  /-- The time spent, in nanoseconds. -/
  duration : Int

/-- The contours as a list. -/
def Result.contourList (r : Result) : List Contour := r.contours.getD []

/-- The contours of one polarity. -/
def Result.withPolarity (r : Result) (p : Polarity) : List Contour :=
  r.contourList.filter (·.polarity = p)

/-- The outer contours. -/
def Result.outer (r : Result) : List Contour := r.withPolarity .outer

/-- The hole contours. -/
def Result.holes (r : Result) : List Contour := r.withPolarity .hole

/-- A description in one line. -/
def Result.summary (r : Result) : String :=
  s!"{r.components} components, {r.outer.length} outer, {r.holes.length} holes"

end Blob

end Perimeter
