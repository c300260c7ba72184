import Perimeter.Edge

/-!
# The plane

Points with fractional coordinates and the few functions of floats that the descriptors of a contour
need.
-/

namespace Perimeter

/-- A point with fractional coordinates. -/
structure PlanePoint where
  x : Float
  y : Float

namespace Plane

/-- The length of the vector `(p, q)`, scaled by its longer side so that no square overflows. -/
def hypot (p q : Float) : Float :=
  let p := p.abs
  let q := q.abs
  let (p, q) := if p < q then (q, p) else (p, q)
  if p.isInf || q.isInf then 1.0 / 0.0
  else if p.isNaN || q.isNaN then 0.0 / 0.0
  else if p == 0 then 0
  else
    let r := q / p
    p * (1 + r * r).sqrt

/-- The sign bit is set. -/
def signBit (x : Float) : Bool := x.toBits >>> 63 == 1

/-- The lesser of two floats; of two zeros the negative one. -/
def least (x y : Float) : Float :=
  if x.isNaN || y.isNaN then 0.0 / 0.0
  else if x == 0 && y == 0 then (if signBit x then x else y)
  else if x < y then x else y

/-- The greater of two floats; of two zeros the positive one. -/
def greatest (x y : Float) : Float :=
  if x.isNaN || y.isNaN then 0.0 / 0.0
  else if x == 0 && y == 0 then (if signBit x then y else x)
  else if x > y then x else y

/-- The nearest integer, if it is within a thousand-millionth; otherwise the float itself. -/
def clean (v : Float) : Float :=
  let r := v.round
  if (v - r).abs < 1e-9 then r else v

/-- A pixel as a point of the plane. -/
def ofPixel (p : Point) : PlanePoint := ⟨Float.ofInt p.x, Float.ofInt p.y⟩

end Plane

/-- Twice the signed area of the polygon through the pixels, in 64-bit words. -/
def shoelace (l : List Point) : Int :=
  match l with
  | [] => 0
  | first :: _ =>
    wrap64 ((l.zip (l.tail ++ [first])).foldr (fun (a, b) n => a.x * b.y - b.x * a.y + n) 0)

/-- The area of the polygon through the pixels. -/
def polygonArea (l : List Point) : Float :=
  if l.length < 3 then 0 else (Float.ofInt (shoelace l)).abs / 2

end Perimeter
