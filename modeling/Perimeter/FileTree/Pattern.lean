/-!
# File name patterns

In a pattern `*` stands for any characters, `?` for one, `[a-z]` for one of a class and `[^a-z]` for one
outside it, and a backslash takes the next character literally. A slash is matched by none of the
first two. A pattern that breaks off inside a class or after a backslash matches nothing.
-/

namespace Perimeter.Pattern

/-- One character of a class, which may be escaped. Something has to follow it. -/
def classChar? : List Char → Option (Char × List Char)
  | '\\' :: c :: d :: rest => some (c, d :: rest)
  | c :: d :: rest => if c == '-' || c == ']' || c == '\\' then none else some (c, d :: rest)
  | _ => none

/-- Reads the ranges of a class up to its closing bracket and tells whether the character is in one.
The first argument bounds the number of ranges. -/
def ranges? (c : Char) : Nat → Bool → Bool → List Char → Option (Bool × List Char)
  | 0, _, _, _ => none
  | n + 1, seen, found, cs =>
    match seen, cs with
    | true, ']' :: rest => some (found, rest)
    | _, cs =>
      match classChar? cs with
      | none => none
      | some (lo, '-' :: rest) =>
        match classChar? rest with
        | none => none
        | some (hi, rest') => ranges? c n true (found || (lo ≤ c && c ≤ hi)) rest'
      | some (lo, rest) => ranges? c n true (found || lo == c) rest

/-- Reads a class after its opening bracket and tells whether it admits the character. -/
def class? (c : Char) (cs : List Char) : Option (Bool × List Char) :=
  match cs with
  | '^' :: rest => (ranges? c rest.length false false rest).map fun (b, r) => (!b, r)
  | rest => ranges? c rest.length false false rest

/-- The text matches the pattern. The first argument bounds the steps. -/
def matchesWithin : Nat → List Char → List Char → Bool
  | 0, _, _ => false
  | _ + 1, [], s => s.isEmpty
  | n + 1, '*' :: p, s =>
    matchesWithin n p s ||
      match s with
      | c :: rest => c != '/' && matchesWithin n ('*' :: p) rest
      | [] => false
  | n + 1, '?' :: p, c :: s => c != '/' && matchesWithin n p s
  | n + 1, '[' :: p, c :: s =>
    match class? c p with
    | some (true, rest) => matchesWithin n rest s
    | _ => false
  | n + 1, '\\' :: d :: p, c :: s => c == d && matchesWithin n p s
  | _ + 1, ['\\'], _ => false
  | n + 1, d :: p, c :: s => c == d && matchesWithin n p s
  | _ + 1, _ :: _, [] => false

/-- The text matches the pattern. -/
def covers (pattern text : String) : Bool :=
  matchesWithin (pattern.length + text.length + 1) pattern.toList text.toList

end Perimeter.Pattern
