import Perimeter.Edge

/-!
# Convex hulls

The convex hull of a list of pixels by the monotone chain: the points are sorted by column and row,
one pass builds the lower half and a pass back builds the upper half. Points on the line between two
vertices are no vertices.
-/

namespace Perimeter

/-- Twice the signed area of the triangle `o a b`, in 64-bit words. -/
def cross (o a b : Point) : Int :=
  wrap64 ((a.x - o.x) * (b.y - o.y) - (a.y - o.y) * (b.x - o.x))

/-- The difference by which points are ordered: by column, then by row. -/
def lexDifference (a b : Point) : Int :=
  if a.x ≠ b.x then wrap64 (a.x - b.x) else wrap64 (a.y - b.y)

/-- The first point comes before the second one, or is the same. -/
def lexLe (a b : Point) : Bool := decide (lexDifference a b ≤ 0)

namespace Hull

/-- The distinct points in order. -/
def sortedPoints (l : List Point) : List Point := (l.mergeSort lexLe).eraseReps

/-- Puts a point on a half hull, given with its latest vertex first, after taking off every vertex
at which the outline would not turn. -/
def push : List Point → Point → List Point
  | b :: a :: rest, p => if cross a b p ≤ 0 then push (a :: rest) p else p :: b :: a :: rest
  | [b], p => [p, b]
  | [], p => [p]

/-- The half hull of points in the order of a pass, the latest vertex first. -/
def half (l : List Point) : List Point := l.foldl push []

end Hull

/-- The vertices of the convex hull, from the first point in order on. -/
def convexHull (l : List Point) : List Point :=
  let p := Hull.sortedPoints l
  if p.length ≤ 2 then p
  else (Hull.half p).tail.reverse ++ (Hull.half p.reverse).tail.reverse

end Perimeter
