import Perimeter.Fault

/-!
# Chains

A `Chain` takes the points of a contour one by one and keeps only the end points of every horizontal,
vertical or diagonal run. Reading the result closes the chain through its first point; points that
come later are refused.
-/

namespace Perimeter

/-- The direction of a unit step as `dx + 3 * dy`, a number from -4 to 4. It is `0` for a step that
stays in place and for a jump of more than one pixel. -/
def stepCode (a b : Point) : Int :=
  let dx := wrap64 (b.x - a.x)
  let dy := wrap64 (b.y - a.y)
  if 1 < wordAbs dx ∨ 1 < wordAbs dy then 0 else wrap64 (dx + 3 * dy)

/-- The first points of a chain, of which closing it needs two. -/
inductive Chain.Head where
  | none
  | one (first : Point)
  | two (first second : Point)
deriving DecidableEq, Repr

/-- A contour that is being compressed. -/
structure Chain where
  /-- The points that are certain to stay. -/
  kept : Array Point := #[]
  head : Chain.Head := .none
  /-- The latest point, which stays only if the run ends on it. -/
  last : Point := ⟨0, 0⟩
  /-- The direction of the run that the latest point ends. -/
  direction : Int := 0
  closed : Bool := false
  /-- The first point lies inside a straight run through the closing step. -/
  startRedundant : Bool := false
  /-- A point was appended after the chain was closed. -/
  misused : Bool := false
deriving DecidableEq, Repr

namespace Chain

/-- A chain without points. -/
def empty : Chain := {}

/-- Ends the pending point's run unless `q` continues it, and makes `q` the pending point. -/
def extend (c : Chain) (q : Point) : Chain :=
  let d := stepCode c.last q
  { c with
    kept := if d ≠ c.direction ∨ d = 0 then c.kept.push c.last else c.kept
    direction := d
    last := q }

/-- Takes the next point of an open chain. -/
def push (c : Chain) (q : Point) : Chain :=
  match c.head with
  | .none => { c with head := .one q, last := q }
  | .one p => { c with head := .two p q }.extend q
  | .two _ _ => c.extend q

/-- Appends a point; a closed chain only remembers the misuse. -/
def append (c : Chain) (q : Point) : Chain :=
  if c.closed then { c with misused := true } else c.push q

/-- The first point lies inside a straight run through the closing step. -/
def closesStraight (c : Chain) : Bool :=
  match c.head with
  | .two p q => stepCode c.last p == stepCode p q && stepCode c.last p != 0
  | _ => false

/-- Goes back to the first point, which decides whether the pending point stays. -/
def close (c : Chain) : Chain :=
  if c.closed then c
  else
    match c.head with
    | .none => { c with closed := true }
    | .one p | .two p _ => { c with closed := true, startRedundant := c.closesStraight }.push p

/-- The first misuse, if there was one. -/
def fault? (c : Chain) : Option Fault := if c.misused then some .chainClosed else none

/-- The compressed contour of a closed chain. The first point always comes first. -/
def points (c : Chain) : Except Fault (Array Point) :=
  if c.misused then .error .chainClosed else .ok c.kept

/-- The chain of a list of points, closed. -/
def ofPoints (l : List Point) : Chain := (l.foldl push empty).close

/-- Compresses a closed contour and tells whether its first point is redundant. With `dropStart` a
redundant first point is dropped. -/
def simplify (l : List Point) (dropStart : Bool) : List Point × Bool :=
  let c := ofPoints l
  let kept := c.kept.toList
  (if dropStart && c.startRedundant then kept.drop 1 else kept, c.startRedundant)

end Chain

/-- The greatest number of points for which room can be set aside in advance. -/
def Chain.maxCapacity : Int := 17592186044416

/-- The number of points is one for which room can be set aside in advance. -/
def Chain.CanHold (n : Int) : Prop := 0 ≤ n ∧ n ≤ Chain.maxCapacity

instance (n : Int) : Decidable (Chain.CanHold n) := inferInstanceAs (Decidable (_ ∧ _))

end Perimeter
