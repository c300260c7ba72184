import Perimeter.Raster.Basic
import Perimeter.Text.Ranges

/-!
# Pictures as character grids

`Grid.parse` reads a picture from lines of text: `#`, `X` and `1` are ink and everything else is
background. Blank lines around the grid, the indentation that its lines have in common and blanks at
the ends of lines do not count. Columns are counted in bytes of the text, so a character of several
bytes takes several columns.
-/

namespace Perimeter.Grid

/-- The character stands for ink. -/
def isInkChar (c : Char) : Bool := c == '#' || c == 'X' || c == '1'

/-- A space or a tab. -/
def isPadding (c : Char) : Bool := c == ' ' || c == '\t'

/-- The number of columns of a line. -/
def columns (l : List Char) : Nat := l.foldr (fun c n => c.utf8Size + n) 0

/-- Drops the lines at both ends that hold only white space. -/
def trimLines (ls : List (List Char)) : List (List Char) :=
  let blank (l : List Char) := l.all Text.isBlank
  ((ls.dropWhile blank).reverse.dropWhile blank).reverse

/-- The number of blanks at the start of a line that holds more than blanks. -/
def indentOf? (l : List Char) : Option Nat :=
  if l.all isPadding then none else some (l.takeWhile isPadding).length

/-- The least indentation of the lines. -/
def indent (ls : List (List Char)) : Nat := (ls.filterMap indentOf?).min?.getD 0

/-- A line without the common indentation and the blanks at its end. -/
def body (indent : Nat) (l : List Char) : List Char :=
  ((l.drop indent).reverse.dropWhile isPadding).reverse

/-- Whether each column of a line is ink. -/
def inkColumns (l : List Char) : List Bool :=
  l.flatMap fun c => isInkChar c :: List.replicate (c.utf8Size - 1) false

/-- Splits a text at its line feeds. -/
def splitLines (s : List Char) : List (List Char) :=
  match s with
  | [] => [[]]
  | c :: r =>
    if c == '\n' then [] :: splitLines r
    else
      match splitLines r with
      | [] => [[c]]
      | l :: ls => (c :: l) :: ls

/-- The lines of a grid, trimmed and cut. -/
def bodies (art : String) : List (List Char) :=
  let ls := trimLines (splitLines art.toList)
  ls.map (body (indent ls))

/-- Reads a picture from a grid of characters. -/
def parse (art : String) : Raster :=
  let ls := bodies art
  let width := ((ls.map columns).max?).getD 0
  let rows := (ls.map fun l => (inkColumns l).toArray).toArray
  Raster.ofInk width ls.length fun x y =>
    ((rows[y.toNat]?).bind fun row => row[x.toNat]?).getD false

end Perimeter.Grid
