import Perimeter.Yaml.Node.Basic
import Perimeter.Yaml.Token.Lexer

/-!
# From tokens to nodes

Reads the first document of a row of tokens. What follows the document is not looked at, except for the
token that ends it. The recursion is bounded by the number of tokens.
-/

namespace Perimeter.Yaml

/-- Where the reading of tokens stands. -/
structure Parse where
  tokens : List Token
  /-- The short names for the front parts of types. -/
  handles : List (String × String) := []
  /-- The named nodes, the latest first, each with a number. A node that is still being read is
  missing. -/
  anchors : List (String × Nat × Option Node) := []

/-- Readers of tokens. -/
abbrev Parser := StateT Parse Option

namespace Parser

/-- The next token. -/
def peek : Parser Token := do
  let s ← get
  match s.tokens with
  | t :: _ => pure t
  | [] => failure

/-- Goes past the next token. -/
def skip : Parser Unit := modify fun s => { s with tokens := s.tokens.drop 1 }

/-- Goes past the next token if it is the given one. -/
def skipIf (t : Token) : Parser Bool := do
  if (← peek) == t then
    skip
    pure true
  else pure false

/-! ## Types, names and references -/

/-- The type that a token names, in short form. A mark alone names none. -/
def tagName (handle rest : String) : Parser (Option String) := do
  if handle.isEmpty then
    return if rest == "!" then none else some (shortTag rest)
  match (← get).handles.lookup handle with
  | some front => pure (some (shortTag (front ++ rest)))
  | none => failure

/-- What is said of a node in front of it. -/
structure Properties where
  anchor : Option String := none
  tag : Option String := none
  /-- Something is said. -/
  given : Bool := false

/-- Reads a name or a type in front of a node, if it is not there yet. -/
def property (p : Properties) : Parser Properties := do
  match ← peek with
  | .anchor name =>
    if p.anchor.isNone then
      skip
      return { p with anchor := some name, given := true }
    return p
  | .tag handle rest =>
    skip
    let tag ← tagName handle rest
    return { p with tag, given := true }
  | _ => return p

/-- Reads what is said of a node in front of it: a name, a type, or both in either order. -/
def properties : Parser Properties := do
  match ← peek with
  | .anchor _ => do
    let p ← property {}
    match ← peek with
    | .tag _ _ => property p
    | _ => pure p
  | .tag _ _ => do
    let p ← property {}
    match ← peek with
    | .anchor _ => property p
    | _ => pure p
  | _ => pure {}

/-- Notes the name of a node that is about to be read, and gives its number. -/
def enter (anchor : Option String) : Parser Nat := do
  let s ← get
  let number := s.anchors.length
  match anchor with
  | some name => set { s with anchors := (name, number, none) :: s.anchors }
  | none => pure ()
  pure number

/-- Notes the node of a number once it is read. -/
def leave (anchor : Option String) (number : Nat) (node : Node) : Parser Node := do
  if anchor.isSome then
    modify fun s => { s with anchors := s.anchors.map fun (name, k, old) =>
      (name, k, if k == number then some node else old) }
  pure node

/-- The node that a reference refers to. -/
def refer (name : String) : Parser Node := do
  match (← get).anchors.lookup name with
  | some (_, some target) => pure (.reference name target)
  | some (_, none) => pure (.cycle name)
  | none => failure

/-! ## Nodes -/

/-- What kinds of nodes may stand at a place. -/
inductive Place where
  /-- Inside a flow collection. -/
  | flow
  /-- Where block collections may start. -/
  | block
  /-- Where also a sequence without indentation may start. -/
  | value
deriving DecidableEq

/-- The token ends an item of a flow sequence. -/
def endsFlowItem (t : Token) : Bool := t == .comma || t == .flowSequenceEnd

/-- The token ends a field of a flow mapping. -/
def endsFlowField (t : Token) : Bool := t == .comma || t == .flowMappingEnd

/-- The token ends a key or value of a block mapping. -/
def endsBlockField (t : Token) : Bool := t == .key || t == .value || t == .blockEnd

mutual

/-- Reads a node. -/
def node : Nat → Place → Parser Node
  | 0, _ => failure
  | n + 1, place => do
    match ← peek with
    | .reference name =>
      skip
      refer name
    | _ => do
      let p ← properties
      let number ← enter p.anchor
      let found ← content n place p
      leave p.anchor number found

/-- Reads a node behind its properties. -/
def content : Nat → Place → Properties → Parser Node
  | 0, _, _ => failure
  | n + 1, place, p => do
    match ← peek with
    | .scalar text bare =>
      skip
      pure (.scalar p.tag text bare)
    | .flowSequence =>
      skip
      return .list (← flowItems n true)
    | .flowMapping =>
      skip
      return .map (← flowFields n true)
    | .item =>
      if place = .value then return .list (← looseItems n)
      else if p.given then return .scalar p.tag "" true
      else failure
    | .blockSequence =>
      if place = .flow then (if p.given then return .scalar p.tag "" true else failure)
      else
        skip
        return .list (← blockItems n)
    | .blockMapping =>
      if place = .flow then (if p.given then return .scalar p.tag "" true else failure)
      else
        skip
        return .map (← blockFields n)
    | _ => if p.given then pure (.scalar p.tag "" true) else failure

/-- Reads the items of a block sequence. -/
def blockItems : Nat → Parser (List Node)
  | 0 => failure
  | n + 1 => do
    if ← skipIf .blockEnd then
      return []
    if !(← skipIf .item) then
      failure
    let t ← peek
    let first ← if t == .item || t == .blockEnd then pure Node.nothing else node n .block
    return first :: (← blockItems n)

/-- Reads the items of a sequence without indentation. -/
def looseItems : Nat → Parser (List Node)
  | 0 => failure
  | n + 1 => do
    if !(← skipIf .item) then
      return []
    let t ← peek
    let first ← if t == .item || endsBlockField t then pure Node.nothing else node n .block
    return first :: (← looseItems n)

/-- Reads a key or value of a block mapping, which may be missing. -/
def blockPart : Nat → Parser Node
  | 0 => failure
  | n + 1 => do
    if endsBlockField (← peek) then pure Node.nothing else node n .value

/-- Reads the fields of a block mapping. -/
def blockFields : Nat → Parser (List (Node × Node))
  | 0 => failure
  | n + 1 => do
    if ← skipIf .blockEnd then
      return []
    if !(← skipIf .key) then
      failure
    let k ← blockPart n
    let v ← if ← skipIf .value then blockPart n else pure Node.nothing
    return (k, v) :: (← blockFields n)

/-- Reads the items of a flow sequence. A single field makes a mapping of its own. -/
def flowItems : Nat → Bool → Parser (List Node)
  | 0, _ => failure
  | n + 1, first => do
    if ← skipIf .flowSequenceEnd then
      return []
    if !first && !(← skipIf .comma) then
      failure
    if ← skipIf .flowSequenceEnd then
      return []
    let found ← if ← skipIf .key then do
        let f ← flowPair n
        pure (.map [f])
      else node n .flow
    return found :: (← flowItems n false)

/-- Reads the single field of an item of a flow sequence. Where the key is missing, the token in its
stead is skipped. -/
def flowPair : Nat → Parser (Node × Node)
  | 0 => failure
  | n + 1 => do
    let t ← peek
    let k ← if t == .value || endsFlowItem t then do
        skip
        pure Node.nothing
      else node n .flow
    let v ← if ← skipIf .value then do
        if endsFlowItem (← peek) then pure Node.nothing else node n .flow
      else pure Node.nothing
    pure (k, v)

/-- Reads the fields of a flow mapping. -/
def flowFields : Nat → Bool → Parser (List (Node × Node))
  | 0, _ => failure
  | n + 1, first => do
    if ← skipIf .flowMappingEnd then
      return []
    if !first && !(← skipIf .comma) then
      failure
    if ← skipIf .flowMappingEnd then
      return []
    let f ← if ← skipIf .key then flowField n
      else do
        let k ← node n .flow
        let _ ← peek
        pure (k, Node.nothing)
    return f :: (← flowFields n false)

/-- Reads a field of a flow mapping behind the mark of its key. -/
def flowField : Nat → Parser (Node × Node)
  | 0 => failure
  | n + 1 => do
    let t ← peek
    let k ← if t == .value || endsFlowField t then pure Node.nothing else node n .flow
    let v ← if ← skipIf .value then do
        if endsFlowField (← peek) then pure Node.nothing else node n .flow
      else pure Node.nothing
    pure (k, v)

end

/-! ## Documents -/

/-- The short names that every document has, unless it gives them a meaning of its own. -/
def builtinHandles : List (String × String) := [("!", "!"), ("!!", builtinFront)]

/-- Reads the directives of a document, at most `n`: a version, which can only be 1.1, and short names,
none of them twice. -/
def directives : Nat → Bool → Parser Unit
  | 0, _ => failure
  | n + 1, versioned => do
    match ← peek with
    | .version major minor =>
      if versioned || major != 1 || minor != 1 then
        failure
      skip
      directives n true
    | .handle name front =>
      let s ← get
      if (s.handles.lookup name).isSome then
        failure
      skip
      modify fun s => { s with handles := (name, front) :: s.handles }
      directives n versioned
    | _ => modify fun s => { s with handles := s.handles ++ builtinHandles }

/-- The token stands between documents. -/
def separates : Token → Bool
  | .version _ _ | .handle _ _ | .documentStart | .documentEnd | .finish => true
  | _ => false

/-- Reads the first document, if there is one. A document with directives starts with a mark. -/
def document (n : Nat) : Parser (Option Node) := do
  let t ← peek
  if t == .finish then
    return none
  let explicit := separates t && t != .documentEnd
  directives n false
  if explicit && !(← skipIf .documentStart) then
    failure
  let root ← if explicit && separates (← peek) then pure Node.nothing else node n .block
  let _ ← peek
  return some root

end Parser

/-- The node of the first document of a text. The outer option is empty when the text is no YAML, the
inner one when it holds no document. -/
def document? (cs : List Char) : Option (Option Node) :=
  let ts := tokens cs
  ((Parser.document (4 * ts.length + 8)).run { tokens := ts }).map (·.1)

end Perimeter.Yaml
