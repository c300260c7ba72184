/-!
# Tokens of YAML

The pieces that the text of a document falls into. Indentation is made explicit: a block collection
starts and ends with a token of its own, and a key is announced by one.
-/

namespace Perimeter.Yaml

/-- A piece of a document. -/
inductive Token where
  /-- The version that a document says it has. -/
  | version (major minor : Nat)
  /-- A short name for the front part of types. -/
  | handle (name front : String)
  | documentStart
  | documentEnd
  | blockSequence
  | blockMapping
  /-- The end of a block collection. -/
  | blockEnd
  | flowSequence
  | flowSequenceEnd
  | flowMapping
  | flowMappingEnd
  /-- The mark of an item of a block sequence. -/
  | item
  /-- The mark between the items of a flow collection. -/
  | comma
  /-- A key follows. -/
  | key
  /-- A value follows. -/
  | value
  /-- A reference to a named node. -/
  | reference (name : String)
  /-- The name of the node that follows. -/
  | anchor (name : String)
  /-- The type of the node that follows, as a short name and the rest. -/
  | tag (handle rest : String)
  /-- A scalar, and whether it is bare, with neither quotes nor a block of its own. -/
  | scalar (text : String) (bare : Bool)
  /-- The text ends. -/
  | finish
deriving DecidableEq, Repr

end Perimeter.Yaml
