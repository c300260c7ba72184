import Perimeter.Packed.Bits

/-!
# Codes of varying length

A code gives every symbol a word of bits such that no word starts with another. It is described by the
lengths of the words alone: words of one length are consecutive numbers in the order of their symbols,
and shorter words come first.
-/

namespace Perimeter.Packed

/-- A code, by the number of its words of every length and its symbols in the order of their words. -/
structure Code where
  counts : Array Nat
  symbols : Array Nat

namespace Code

/-- The greatest length of a word. -/
def maxLength : Nat := 15

/-- The code whose words have the given lengths; a symbol of length zero has no word. -/
def ofLengths (lengths : List Nat) : Code :=
  let symbolsOf (n : Nat) : List Nat :=
    lengths.zipIdx.filterMap fun (l, symbol) => if l == n then some symbol else none
  let groups := (List.range (maxLength + 1)).map fun n => if n == 0 then [] else symbolsOf n
  ⟨(groups.map List.length).toArray, groups.flatten.toArray⟩

/-- Reads a word that is longer than `length`: `word` are its bits so far, `first` is the first word of
the length, and `index` is the number of shorter words. -/
def readFrom (c : Code) (data : Array UInt8) :
    Nat → Nat → Nat → Nat → Nat → Nat → Option (Nat × Nat)
  | 0, _, _, _, _, _ => none
  | left + 1, length, word, first, index, pos => do
    let b ← bit? data pos
    let word := 2 * word + b
    let first := 2 * first
    let count := c.counts.getD (length + 1) 0
    if word < first + count then
      let symbol ← c.symbols[index + (word - first)]?
      pure (symbol, pos + 1)
    else readFrom c data left (length + 1) word (first + count) (index + count) (pos + 1)

/-- Reads the symbol of the next word. -/
def read? (c : Code) (data : Array UInt8) (pos : Nat) : Option (Nat × Nat) :=
  c.readFrom data maxLength 0 0 0 0 pos

end Code

end Perimeter.Packed
