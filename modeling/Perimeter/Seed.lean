import Perimeter.Fault
import Perimeter.Walk

/-!
# Seeds

A walk starts from a seed pixel and, if the caller likes, a heading. `Seed.resolve` turns the two
into a boundary edge, or says why there is none.
-/

namespace Perimeter

/-- A seed pixel with the heading in which to set out. -/
structure Seed where
  x : Int
  y : Int
  course : Course := .auto
deriving DecidableEq, Repr

namespace Seed

/-- Refuses an unknown heading, an empty image, and a seed that is outside or background. -/
def check (p : Picture) (s : Seed) : Except Fault Unit :=
  match s.course with
  | .unknown n => .error (.invalidHeading n)
  | _ =>
    if p.width ≤ 0 ∨ p.height ≤ 0 then .error (.emptyImage .seeding p.width p.height)
    else if ¬p.Contains s.x s.y then .error (.seedOutside s.x s.y p.width p.height)
    else if !p.isInk s.x s.y then .error (.seedNotInk s.x s.y)
    else .ok ()

/-- The first heading whose bordering pixel is background; failing that, the first one whose
diagonal pixel is. -/
def pickHeading (p : Picture) (o : Orientation) (x y : Int) : Option Heading :=
  match Heading.all.find? fun h => !p.inkLeft o ⟨x, y, h⟩ with
  | some h => some h
  | none => Heading.all.find? fun h => !p.inkDiagonal o ⟨x, y, h⟩

/-- The boundary edge for an explicit heading. When the bordering pixel and the pixel ahead are
both ink, the boundary may pass between the seed and its diagonal, one step ahead. -/
def edgeToward (p : Picture) (o : Orientation) (x y : Int) (h : Heading) : Except Fault Edge :=
  let e : Edge := ⟨x, y, h⟩
  let e' := if p.inkLeft o e && p.inkAhead e then e.apply o .ahead else e
  if p.inkLeft o e' then .error (.badSeedHeading h x y) else .ok e'

/-- The boundary edge of a seed that passed `check`. -/
def start (p : Picture) (o : Orientation) (s : Seed) : Except Fault Edge :=
  match s.course with
  | .toward h => edgeToward p o s.x s.y h
  | _ =>
    match pickHeading p o s.x s.y with
    | some h => edgeToward p o s.x s.y h
    | none => .error (.noBoundary s.x s.y)

/-- Turns an ink pixel and an optional heading into a boundary edge. -/
def resolve (p : Picture) (o : Orientation) (s : Seed) : Except Fault Edge := do
  s.check p
  s.start p o

end Seed

/-- Refuses a stop edge that is no boundary edge of the picture. -/
def EdgeSpec.checkStop (p : Picture) (o : Orientation) (s : EdgeSpec) : Except Fault Edge :=
  match s.edge? with
  | none => .error (.invalidStopHeading s.course.code)
  | some e =>
    if ¬p.Contains e.x e.y then .error (.stopOutside e p.width p.height)
    else if !p.isInk e.x e.y then .error (.stopNotInk e.x e.y)
    else if p.inkLeft o e then .error (.stopNotBoundary e)
    else .ok e

end Perimeter
