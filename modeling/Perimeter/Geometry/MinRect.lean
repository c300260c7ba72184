import Perimeter.Geometry.Hull
import Perimeter.Geometry.Plane

/-!
# Enclosing rectangles

The rectangle of least area, in any orientation, that encloses a list of pixels has a side along an
edge of their convex hull. All edges are tried, and the first with the least area wins.
-/

namespace Perimeter

namespace MinRect

/-- A rectangle by the unit vector of one side and its extent along that side and across it. -/
structure Frame where
  ux : Float
  uy : Float
  minAlong : Float
  maxAlong : Float
  minAcross : Float
  maxAcross : Float

/-- The area of the rectangle. -/
def Frame.area (f : Frame) : Float := (f.maxAlong - f.minAlong) * (f.maxAcross - f.minAcross)

/-- A corner by its coordinates along and across the side. -/
def Frame.corner (f : Frame) (s t : Float) : PlanePoint :=
  ⟨Plane.clean (s * f.ux - t * f.uy), Plane.clean (s * f.uy + t * f.ux)⟩

/-- The four corners in turn. -/
def Frame.corners (f : Frame) : List PlanePoint :=
  [f.corner f.minAlong f.minAcross, f.corner f.maxAlong f.minAcross,
   f.corner f.maxAlong f.maxAcross, f.corner f.minAlong f.maxAcross]

/-- The least rectangle around the pixels with a side parallel to the line from `a` to `b`. -/
def frame (hull : List Point) (a b : Point) : Frame :=
  let dx := Float.ofInt (wrap64 (b.x - a.x))
  let dy := Float.ofInt (wrap64 (b.y - a.y))
  let l := Plane.hypot dx dy
  let ux := dx / l
  let uy := dy / l
  let infinity : Float := 1.0 / 0.0
  hull.foldl (fun f p =>
    let x := Float.ofInt p.x
    let y := Float.ofInt p.y
    let s := x * ux + y * uy
    let t := -x * uy + y * ux
    { f with
      minAlong := Plane.least f.minAlong s
      maxAlong := Plane.greatest f.maxAlong s
      minAcross := Plane.least f.minAcross t
      maxAcross := Plane.greatest f.maxAcross t })
    ⟨ux, uy, infinity, -infinity, infinity, -infinity⟩

/-- The frames of all sides of a hull. -/
def frames (hull : List Point) : List Frame :=
  match hull with
  | [] => []
  | first :: rest => (hull.zip (rest ++ [first])).map fun (a, b) => frame hull a b

/-- The first frame of least area, starting from a best one so far with its area. -/
def best (f : Frame) (area : Float) : List Frame → Frame
  | [] => f
  | g :: rest => if g.area < area then best g g.area rest else best f area rest

end MinRect

/-- The corners of the rectangle of least area that encloses the pixels. For a single pixel and for
pixels on a line the rectangle has no width. -/
def minAreaRect (l : List Point) : List PlanePoint :=
  let hull := convexHull l
  match hull with
  | [] => []
  | [p] => List.replicate 4 (Plane.ofPixel p)
  | [p, q] =>
    let a := Plane.ofPixel p
    let b := Plane.ofPixel q
    [a, b, b, a]
  | _ => (MinRect.best ⟨0, 0, 0, 0, 0, 0⟩ (1.0 / 0.0) (MinRect.frames hull)).corners

/-- The area of a rectangle given by its corners. -/
def rectArea : List PlanePoint → Float
  | [a, b, _, d] => Plane.hypot (b.x - a.x) (b.y - a.y) * Plane.hypot (d.x - a.x) (d.y - a.y)
  | _ => 0

end Perimeter
