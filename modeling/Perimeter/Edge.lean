import Perimeter.Heading
import Perimeter.Word

/-!
# Pixels and edges

A `Point` is a pixel. An `Edge` is a pixel together with a heading; it names the side of the pixel
that lies on the left hand of someone who stands on the pixel and faces the heading.
-/

namespace Perimeter

/-- A pixel by column and row. -/
structure Point where
  x : Int
  y : Int
deriving DecidableEq, Repr, Inhabited

namespace Point

/-- The pixel in the notation of messages and point lists. -/
def text (p : Point) : String := s!"({p.x},{p.y})"

/-- The pixel moved by an offset. -/
def shift (p : Point) (dx dy : Int) : Point := ⟨p.x + dx, p.y + dy⟩

end Point

/-- A side of a pixel, given by the pixel and the heading that has the side on the left. -/
structure Edge where
  x : Int
  y : Int
  heading : Heading
deriving DecidableEq, Repr, Inhabited

namespace Edge

/-- The pixel of an edge. -/
def point (e : Edge) : Point := ⟨e.x, e.y⟩

/-- The edge in the notation of messages. -/
def text (e : Edge) : String := s!"({e.x},{e.y},{e.heading.name})"

/-- The same pixel with the opposite heading. -/
def reverse (e : Edge) : Edge := { e with heading := e.heading.reverse }

@[simp] theorem reverse_reverse (e : Edge) : e.reverse.reverse = e := by
  simp [reverse]

/-- The pixel on the bordering side. -/
def leftPoint (o : Orientation) (e : Edge) : Point :=
  let l := e.heading.turnLeft o
  ⟨e.x + l.dx, e.y + l.dy⟩

/-- The pixel ahead. -/
def aheadPoint (e : Edge) : Point :=
  ⟨e.x + e.heading.dx, e.y + e.heading.dy⟩

/-- The pixel diagonally ahead on the bordering side. -/
def diagonalPoint (o : Orientation) (e : Edge) : Point :=
  let l := e.heading.turnLeft o
  ⟨e.x + e.heading.dx + l.dx, e.y + e.heading.dy + l.dy⟩

end Edge

/-- An edge as a caller writes it, whose heading may be missing or unknown. -/
structure EdgeSpec where
  x : Int
  y : Int
  course : Course
deriving DecidableEq, Repr, Inhabited

namespace EdgeSpec

/-- The edge in the notation of messages. -/
def text (e : EdgeSpec) : String := s!"({e.x},{e.y},{e.course.name})"

/-- The edge, if its heading is one of the four. -/
def edge? (e : EdgeSpec) : Option Edge :=
  e.course.heading?.map fun h => ⟨e.x, e.y, h⟩

/-- An edge written out by a caller. -/
def ofEdge (e : Edge) : EdgeSpec := ⟨e.x, e.y, .toward e.heading⟩

@[simp] theorem edge?_ofEdge (e : Edge) : (ofEdge e).edge? = some e := rfl

end EdgeSpec

end Perimeter
