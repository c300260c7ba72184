/-!
# Headings

The four axis-parallel headings of a boundary walk, in image coordinates where `y` grows downwards,
and the two orientations in which a walk keeps the background beside it. "Left" always means the
bordering side of the walk: turning left in a clockwise walk is turning right in a counterclockwise
one.
-/

namespace Perimeter

/-- The orientation of a walk: clockwise walks have the region on the right hand. -/
inductive Orientation where
  | clockwise
  | counterclockwise
deriving DecidableEq, Repr, Inhabited

namespace Orientation

/-- The other orientation. -/
def opposite : Orientation → Orientation
  | clockwise => counterclockwise
  | counterclockwise => clockwise

@[simp] theorem opposite_opposite (o : Orientation) : o.opposite.opposite = o := by
  cases o <;> rfl

/-- Clockwise exactly when the flag is set. -/
def ofClockwise (flag : Bool) : Orientation :=
  if flag then clockwise else counterclockwise

end Orientation

/-- The heading of a step along the boundary. -/
inductive Heading where
  | up
  | right
  | down
  | left
deriving DecidableEq, Repr, Inhabited

namespace Heading

/-- All headings, in the order in which a seed is probed. -/
def all : List Heading := [up, right, down, left]

/-- The number that stands for a heading outside the program: a quarter turn adds one. -/
def code : Heading → Int
  | up => 0
  | right => 1
  | down => 2
  | left => 3

/-- The heading whose code is congruent to `n` modulo four. -/
def ofCode (n : Int) : Heading :=
  match n % 4 with
  | 0 => up
  | 1 => right
  | 2 => down
  | _ => left

@[simp] theorem ofCode_code (h : Heading) : ofCode h.code = h := by
  cases h <;> rfl

/-- The word for a heading in messages and on the command line. -/
def name : Heading → String
  | up => "up"
  | right => "right"
  | down => "down"
  | left => "left"

/-- A quarter turn clockwise, seen on the screen. -/
def clockwiseTurn : Heading → Heading
  | up => right
  | right => down
  | down => left
  | left => up

/-- A quarter turn counterclockwise, seen on the screen. -/
def counterclockwiseTurn : Heading → Heading
  | up => left
  | left => down
  | down => right
  | right => up

/-- A quarter turn towards the bordering side of a walk. -/
def turnLeft (o : Orientation) (h : Heading) : Heading :=
  match o with
  | .clockwise => h.counterclockwiseTurn
  | .counterclockwise => h.clockwiseTurn

/-- A quarter turn away from the bordering side of a walk. -/
def turnRight (o : Orientation) (h : Heading) : Heading :=
  h.turnLeft o.opposite

/-- The opposite heading. -/
def reverse : Heading → Heading
  | up => down
  | right => left
  | down => up
  | left => right

/-- The change of column of one step. -/
def dx : Heading → Int
  | up => 0
  | right => 1
  | down => 0
  | left => -1

/-- The change of row of one step. -/
def dy : Heading → Int
  | up => -1
  | right => 0
  | down => 1
  | left => 0

@[simp] theorem turnRight_turnLeft (o : Orientation) (h : Heading) :
    (h.turnLeft o).turnRight o = h := by
  cases o <;> cases h <;> rfl

@[simp] theorem turnLeft_turnRight (o : Orientation) (h : Heading) :
    (h.turnRight o).turnLeft o = h := by
  cases o <;> cases h <;> rfl

@[simp] theorem reverse_reverse (h : Heading) : h.reverse.reverse = h := by
  cases h <;> rfl

@[simp] theorem turnLeft_opposite_reverse (o : Orientation) (h : Heading) :
    h.reverse.turnLeft o.opposite = h.turnLeft o := by
  cases o <;> cases h <;> rfl

@[simp] theorem dx_reverse (h : Heading) : h.reverse.dx = -h.dx := by
  cases h <;> rfl

@[simp] theorem dy_reverse (h : Heading) : h.reverse.dy = -h.dy := by
  cases h <;> rfl

end Heading

/-- What a caller asks for as the heading of a walk. -/
inductive Course where
  /-- The walk picks the heading from the pixels around its seed. -/
  | auto
  /-- The walk sets out in this heading. -/
  | toward (h : Heading)
  /-- A number that stands for no heading. -/
  | unknown (code : Int)
deriving DecidableEq, Repr, Inhabited

namespace Course

/-- Reads a heading number: `-1` asks for an automatic choice. -/
def ofCode (n : Int) : Course :=
  match n with
  | -1 => auto
  | 0 => toward .up
  | 1 => toward .right
  | 2 => toward .down
  | 3 => toward .left
  | n => unknown n

/-- The number that stands for the course. -/
def code : Course → Int
  | auto => -1
  | toward h => h.code
  | unknown n => n

@[simp] theorem ofCode_code_toward (h : Heading) : ofCode (code (toward h)) = toward h := by
  cases h <;> rfl

/-- The heading, if the course names one. -/
def heading? : Course → Option Heading
  | toward h => some h
  | _ => none

/-- The word for a course in messages. -/
def name : Course → String
  | auto => "auto"
  | toward h => h.name
  | unknown n => s!"Direction({n})"

/-- Reads a heading given by name or by number. The empty text asks for an automatic choice. -/
def ofText? : String → Option Course
  | "" | "auto" | "-1" => some auto
  | "up" | "0" => some (toward .up)
  | "right" | "1" => some (toward .right)
  | "down" | "2" => some (toward .down)
  | "left" | "3" => some (toward .left)
  | _ => none

end Course

end Perimeter
