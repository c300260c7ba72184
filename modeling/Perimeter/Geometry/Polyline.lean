import Perimeter.Geometry.Plane

/-!
# Simplified outlines

An outline is thinned by keeping its ends and, as long as some point between two kept ones is farther
than a tolerance from the line through them, the first farthest such point. The distance is a
parameter; `Polyline.lineDistance` is the one for pixels.
-/

namespace Perimeter.Polyline

variable {δ : Type} [LT δ] [DecidableLT δ]

/-- Of `best` and the `n` indices from `i` on, the first one whose value `f` is greatest. -/
def argmax (f : Nat → δ) : Nat → Nat → Nat → Nat
  | 0, _, best => best
  | n + 1, i, best => argmax f n (i + 1) (if f best < f i then i else best)

/-- The first index strictly between `a` and `b` at which `f` is greatest; there is one when
`a + 1 < b`. -/
def farthest (f : Nat → δ) (a b : Nat) : Nat := argmax f (b - a - 2) (a + 2) (a + 1)

/-- The indices strictly between `a` and `b` that are kept, in increasing order. The first argument
bounds the depth of the recursion. -/
def between (distance : Nat → Nat → Nat → δ) (tolerance : δ) : Nat → Nat → Nat → List Nat
  | 0, _, _ => []
  | n + 1, a, b =>
    if b ≤ a + 1 then []
    else
      let m := farthest (fun i => distance i a b) a b
      if tolerance < distance m a b then
        between distance tolerance n a m ++ m :: between distance tolerance n m b
      else []

/-- The kept indices of an outline of `n` points, for `n` of at least two. -/
def keptIndices (distance : Nat → Nat → Nat → δ) (tolerance : δ) (n : Nat) : List Nat :=
  0 :: between distance tolerance n 0 (n - 1) ++ [n - 1]

/-- Keeps the ends of an outline and the points that are far from the line between kept ones. -/
def thin (distance : Point → Point → Point → δ) (tolerance : δ) (l : List Point) : List Point :=
  let pts := l.toArray
  let pointAt (i : Nat) : Point := pts.getD i ⟨0, 0⟩
  (keptIndices (fun i a b => distance (pointAt i) (pointAt a) (pointAt b)) tolerance l.length).map
    pointAt

/-- Thins an outline. Outlines of at most three points, and all outlines when the tolerance is not
positive, stay as they are. -/
def simplifyBy [LE δ] [DecidableLE δ] [OfNat δ 0] (distance : Point → Point → Point → δ)
    (l : List Point) (tolerance : δ) : List Point :=
  if l.length ≤ 3 || tolerance ≤ 0 then l else thin distance tolerance l

/-- The distance of a pixel from the line through two others, or from both when they coincide. The
numbers are a parameter, with their absolute value and the length of a vector. -/
def lineDistanceIn [Sub δ] [Mul δ] [Div δ] [BEq δ] [OfNat δ 0] (ofInt : Int → δ) (abs : δ → δ)
    (hypot : δ → δ → δ) (p a b : Point) : δ :=
  let vx := ofInt (wrap64 (b.x - a.x))
  let vy := ofInt (wrap64 (b.y - a.y))
  let px := ofInt (wrap64 (p.x - a.x))
  let py := ofInt (wrap64 (p.y - a.y))
  if vx == 0 && vy == 0 then hypot px py
  else abs (px * vy - py * vx) / hypot vx vy

/-- The distance from a line in floats. -/
def lineDistance : Point → Point → Point → Float :=
  lineDistanceIn Float.ofInt Float.abs Plane.hypot

/-- Thins an outline of pixels. -/
def simplify (l : List Point) (tolerance : Float) : List Point := simplifyBy lineDistance l tolerance

end Perimeter.Polyline
