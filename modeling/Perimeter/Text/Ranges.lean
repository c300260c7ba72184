/-!
# Ranges of code points

Character classes are lists of closed ranges of code points, ascending and apart.
-/

namespace Perimeter.Text

/-- The number lies in one of the closed ranges. -/
def inRanges (rs : List (Nat × Nat)) (n : Nat) : Bool :=
  rs.any fun r => r.1 ≤ n && n ≤ r.2

/-- White space: the 25 code points of the Unicode property. -/
def blankRanges : List (Nat × Nat) :=
  [(0x09, 0x0D), (0x20, 0x20), (0x85, 0x85), (0xA0, 0xA0), (0x1680, 0x1680), (0x2000, 0x200A),
   (0x2028, 0x2029), (0x202F, 0x202F), (0x205F, 0x205F), (0x3000, 0x3000)]

/-- The character is white space. -/
def isBlank (c : Char) : Bool := inRanges blankRanges c.toNat

/-- Drops white space at the start of a text. -/
def trimLeft (cs : List Char) : List Char := cs.dropWhile isBlank

/-- Drops white space at both ends of a text. -/
def trim (s : String) : String :=
  String.ofList (trimLeft (trimLeft s.toList).reverse).reverse

/-- The text is empty or all white space. -/
def isBlankText (s : String) : Bool := s.toList.all isBlank

end Perimeter.Text
