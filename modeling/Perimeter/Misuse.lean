/-!
# Misuse

Calls that break the contract of an operation in a way that no answer fits. Such a call ends the
request as a whole; it is not one of the faults that a caller can be told about.
-/

namespace Perimeter

/-- A broken contract. -/
inductive Misuse where
  /-- A place outside a buffer was read or written. -/
  | outsideBuffer (index : Int)
  /-- A random number was drawn from a range without numbers. -/
  | emptyRange (size : Int)
  /-- Room was asked for a number of items that no memory holds. -/
  | impossibleCapacity (n : Int)
  /-- A text was repeated a negative number of times. -/
  | negativeRepeat (n : Int)
deriving DecidableEq, Repr

end Perimeter
