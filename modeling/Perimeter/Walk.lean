import Perimeter.Picture

/-!
# The boundary walk

A walk stands on a boundary edge: an ink pixel whose bordering side is background. One `Move` takes
it to the next boundary edge of the same contour, by the first of three rules that applies:

* the pixel diagonally ahead on the bordering side is ink: step onto it and turn left;
* the pixel ahead is ink: step onto it;
* otherwise turn right on the spot.

`Walk.run` repeats moves until the walk is back on its start edge, reaches an extra stop edge or has
made as many steps as it may. The pixels it leaves are its points. With border suppression a pixel
is left out when all the edges of its visit lie on the image border.
-/

namespace Perimeter

/-- The three ways to go on from a boundary edge. -/
inductive Move where
  /-- Step diagonally onto the bordering side and turn left. -/
  | diagonal
  /-- Step ahead. -/
  | ahead
  /-- Turn right on the spot. -/
  | turn
deriving DecidableEq, Repr, Inhabited

/-- The edge that a move leads to. -/
def Edge.apply (o : Orientation) (e : Edge) : Move → Edge
  | .diagonal =>
    let q := e.diagonalPoint o
    ⟨q.x, q.y, e.heading.turnLeft o⟩
  | .ahead =>
    let q := e.aheadPoint
    ⟨q.x, q.y, e.heading⟩
  | .turn => { e with heading := e.heading.turnRight o }

namespace Picture

/-- The bordering side of the edge is ink. -/
def inkLeft (p : Picture) (o : Orientation) (e : Edge) : Bool := p.inkAt (e.leftPoint o)

/-- The pixel ahead is ink. -/
def inkAhead (p : Picture) (e : Edge) : Bool := p.inkAt e.aheadPoint

/-- The pixel diagonally ahead on the bordering side is ink. -/
def inkDiagonal (p : Picture) (o : Orientation) (e : Edge) : Bool := p.inkAt (e.diagonalPoint o)

/-- The bordering side of the edge is the image border. -/
def leftIsBorder (p : Picture) (o : Orientation) (e : Edge) : Bool :=
  isLeftBorder e.x e.y e.heading o p.width p.height

/-- A boundary edge: an ink pixel with background, or the outside, on the bordering side. -/
def IsBoundary (p : Picture) (o : Orientation) (e : Edge) : Prop :=
  p.isInk e.x e.y = true ∧ p.inkLeft o e = false

instance (p : Picture) (o : Orientation) (e : Edge) : Decidable (p.IsBoundary o e) :=
  inferInstanceAs (Decidable (_ ∧ _))

/-- The move that the three rules choose. -/
def move (p : Picture) (o : Orientation) (e : Edge) : Move :=
  if p.inkDiagonal o e then .diagonal
  else if p.inkAhead e then .ahead
  else .turn

/-- The next boundary edge of the contour. -/
def nextEdge (p : Picture) (o : Orientation) (e : Edge) : Edge := e.apply o (p.move o e)

/-- Looks back over the edges that the visit of the current pixel had before `e`, in a walk of the
opposite orientation, for one that is not on the image border. At most four edges belong to a
visit. -/
def entersInside (p : Picture) (o : Orientation) (e : Edge) : Bool :=
  go 4 e.reverse
where
  /-- Scans at most `n` edges from `e` on. -/
  go : Nat → Edge → Bool
    | 0, _ => false
    | n + 1, e =>
      if !p.leftIsBorder o.opposite e then true
      else if p.move o.opposite e = .turn then go n (e.apply o.opposite .turn)
      else false

end Picture

namespace Walk

/-- What a walk is asked to do. -/
structure Plan where
  orientation : Orientation
  /-- Leave out pixels whose visit lies on the image border altogether. -/
  suppressBorder : Bool
  start : Edge
  /-- An extra edge to stop on. -/
  stop : Option Edge
  /-- The greatest number of steps, at least one of which is always made if there is one. -/
  limit : Int
deriving DecidableEq, Repr

/-- Where a walk stands and what it has done. -/
structure State where
  edge : Edge
  /-- The number of steps from pixel to pixel. -/
  length : Int
  /-- Quarter turns to the right less quarter turns to the left. -/
  turns : Int
  /-- The current visit has an edge that is not suppressed. -/
  visible : Bool
  /-- The points so far. -/
  points : Array Point
deriving Repr

/-- The state before the first move. -/
def Plan.initial (plan : Plan) (p : Picture) : State where
  edge := plan.start
  length := 0
  turns := 0
  visible := !plan.suppressBorder || p.entersInside plan.orientation plan.start
  points := #[]

/-- One move. -/
def Plan.step (plan : Plan) (p : Picture) (s : State) : State :=
  let m := p.move plan.orientation s.edge
  let e := s.edge.apply plan.orientation m
  match m with
  | .diagonal =>
    { edge := e
      length := s.length + 1
      turns := s.turns - 1
      visible := true
      points := s.points.push s.edge.point }
  | .ahead =>
    { edge := e
      length := s.length + 1
      turns := s.turns
      visible :=
        if plan.suppressBorder then !p.leftIsBorder plan.orientation e else s.visible
      points := if s.visible then s.points.push s.edge.point else s.points }
  | .turn =>
    { edge := e
      length := s.length
      turns := s.turns + 1
      visible := s.visible || !p.leftIsBorder plan.orientation e
      points := s.points }

/-- The walk may end on this edge: it is the start or the extra stop. -/
def Plan.endsOn (plan : Plan) (e : Edge) : Bool :=
  e == plan.start || plan.stop == some e

/-- The walk ends after the move `m` has led to `s`. Turning on the spot never exhausts the limit. -/
def Plan.halts (plan : Plan) (m : Move) (s : State) : Bool :=
  plan.endsOn s.edge || (m != .turn && decide (plan.limit ≤ s.length))

/-- Repeats moves until the walk ends, at most `n` times. -/
def Plan.go (plan : Plan) (p : Picture) : Nat → State → State
  | 0, s => s
  | n + 1, s =>
    let s' := plan.step p s
    if plan.halts (p.move plan.orientation s.edge) s' then s' else plan.go p n s'

/-- The number of moves that suffices for any walk: before each of at most `limit` steps, and after
the last one, a walk turns on its pixel at most four times. -/
def Plan.fuel (plan : Plan) : Nat := 5 * plan.limit.toNat + 10

/-- What is known of a walk that has ended. -/
structure Result where
  start : Edge
  stop : Edge
  length : Int
  turns : Int
  /-- The walk ended on its start edge or on the extra stop edge. -/
  complete : Bool
deriving DecidableEq, Repr

/-- A walk that has ended, with its points. -/
structure Outcome where
  result : Result
  points : Array Point
deriving DecidableEq, Repr

/-- Reads the result off the last state. A walk that only turned on the spot until it faced its
start again is a visit of an isolated pixel, which counts as one step. -/
def Plan.finish (plan : Plan) (s : State) : Outcome :=
  let isolated := s.length == 0 && s.edge == plan.start
  { result :=
      { start := plan.start
        stop := s.edge
        length := if isolated then 1 else s.length
        turns := s.turns
        complete := plan.endsOn s.edge }
    points := if isolated && s.visible then s.points.push plan.start.point else s.points }

/-- Carries out a plan. -/
def Plan.run (plan : Plan) (p : Picture) : Outcome :=
  plan.finish (plan.go p plan.fuel (plan.initial p))

/-- The edges on which the walk stands before each of its moves. -/
def Plan.edges (plan : Plan) (p : Picture) : List Edge :=
  go plan.fuel (plan.initial p)
where
  /-- The edges of at most `n` moves. -/
  go : Nat → State → List Edge
    | 0, _ => []
    | n + 1, s =>
      let s' := plan.step p s
      s.edge :: if plan.halts (p.move plan.orientation s.edge) s' then [] else go n s'

end Walk

end Perimeter
