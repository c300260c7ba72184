import Perimeter.Decimal.Layout
import Perimeter.Yaml.Node.Basic

/-!
# From nodes to values

Follows the references of a document and merges mappings. The work that references cause is bounded: a
document whose references repeat too much of it has no value.
-/

namespace Perimeter.Yaml

/-! ## Effort -/

/-- How many nodes have been looked at. -/
structure Effort where
  /-- All of them. -/
  nodes : Nat := 0
  /-- Those that were reached through a reference. -/
  referred : Nat := 0

/-- The part of all nodes that references may reach, as a fraction with the denominator `shareUnit`.
Large documents have less room for them. -/
def shareUnit : Nat := 360000000

/-- The part of `n` nodes that references may reach. -/
def allowedShare (n : Nat) : Nat :=
  if n ≤ 400000 then 356400000
  else if 4000000 ≤ n then 36000000
  else 356400000 - 89 * (n - 400000)

/-- References reach too many of the nodes. -/
def Effort.isExcessive (e : Effort) : Bool :=
  decide (100 < e.referred) && decide (1000 < e.nodes)
    && decide (allowedShare e.nodes * e.nodes < e.referred * shareUnit)

/-- Readers of values that count their effort. -/
abbrev Valuer := StateT Effort Option

/-- Counts a node. The flag tells whether a reference led to it. -/
def visit (referred : Bool) : Valuer Unit := do
  let e ← get
  let e : Effort := ⟨e.nodes + 1, if referred then e.referred + 1 else e.referred⟩
  if e.isExcessive then
    failure
  set e

/-! ## Keys -/

/-- The types of keys. -/
inductive KeyType where
  | null
  | bool
  | int
  | real
  | text
  | moment
deriving DecidableEq, Repr

/-- A key of a mapping. Keys of different types differ. -/
structure Key where
  type : KeyType
  text : String
deriving DecidableEq, Repr

/-- The key that a value makes. Collections make none. -/
def Key.ofTree? : Tree → Option Key
  | .null => some ⟨.null, ""⟩
  | .bool b => some ⟨.bool, if b then "true" else "false"⟩
  | .int n => some ⟨.int, toString n⟩
  | .real x => some ⟨.real, Decimal.plain.text x⟩
  | .text s => some ⟨.text, s⟩
  | .moment t => some ⟨.moment, t⟩
  | .list _ | .map _ => none

/-- The key that a node makes in a mapping with keys of all types. -/
def Node.key (referred : Bool) : Node → Valuer Key
  | .scalar tag text bare => do
    visit referred
    let t ← (scalarTree? tag text bare : Option Tree)
    (Key.ofTree? t : Option Key)
  | .reference _ target => do
    visit referred
    target.key true
  | _ => failure

/-- The key that a node makes in a mapping with texts for keys: its own text, whatever it stands for.
What stands for nothing makes no key. -/
def Node.textKey? (referred : Bool) : Node → Valuer (Option Key)
  | .scalar tag text bare => do
    visit referred
    match ← (scalarTree? tag text bare : Option Tree) with
    | .null => pure none
    | .text s => pure (some ⟨.text, s⟩)
    | _ => pure (some ⟨.text, text⟩)
  | .reference _ target => do
    visit referred
    target.textKey? true
  | _ => failure

/-- The keys of a mapping. -/
def keysOf (referred : Bool) : List (Node × Node) → Valuer (List Key)
  | [] => pure []
  | (key, _) :: rest => do
    let k ← key.key referred
    return k :: (← keysOf referred rest)

/-- No two keys are written the same. -/
def haveDistinctKeys : List (Node × Node) → Bool
  | [] => true
  | (key, _) :: rest =>
    rest.all (fun (other, _) => other.identity != key.identity) && haveDistinctKeys rest

/-! ## Mappings -/

/-- A mapping that is being filled. -/
structure Filling where
  fields : List (Key × Tree) := []
  /-- While other mappings are merged into it, the keys that they cannot set any more. -/
  settled : Option (List Key) := none

namespace Filling

/-- The field of a key cannot be set. -/
def isSettled (m : Filling) (k : Key) : Bool := (m.settled.map (·.contains k)).getD false

/-- Sets the field of a key. -/
def put (m : Filling) (k : Key) (v : Tree) : Filling :=
  { fields := m.fields.filter (·.1 != k) ++ [(k, v)], settled := m.settled.map (k :: ·) }

/-- The mapping with texts for keys. -/
def tree (m : Filling) : Tree := .map (m.fields.map fun (k, v) => (k.text, v))

end Filling

mutual

/-- The value of a node. -/
def Node.value (referred : Bool) : Node → Valuer Tree
  | .scalar tag text bare => do
    visit referred
    (scalarTree? tag text bare : Option Tree)
  | .list items => do
    visit referred
    return .list (← Node.values referred items)
  | .map fields => do
    visit referred
    if !haveDistinctKeys fields then
      failure
    let m ← Node.fill referred (fields.all (·.1.isTextKey)) fields {} fields
    return m.tree
  | .reference _ target => do
    visit referred
    target.value true
  | .cycle _ => failure

/-- The values of the items of a list. -/
def Node.values (referred : Bool) : List Node → Valuer (List Tree)
  | [] => pure []
  | item :: rest => do
    let v ← item.value referred
    return v :: (← Node.values referred rest)

/-- Sets fields of a mapping, whose keys are all taken for texts if `texts` is set. What it merges comes
last and sets only what is not among `all` its fields. -/
def Node.fill (referred texts : Bool) (all : List (Node × Node)) (m : Filling) :
    List (Node × Node) → Valuer Filling
  | [] => pure m
  | (key, value) :: rest =>
    if key.isMerge then do
      let m ← Node.fill referred texts all m rest
      match m.settled with
      | some _ => value.merge referred texts m
      | none => do
        let keys ← keysOf referred all
        let merged ← value.merge referred texts { m with settled := some keys }
        return { merged with settled := none }
    else do
      let k ← if texts then key.textKey? referred else some <$> key.key referred
      match k with
      | none => Node.fill referred texts all m rest
      | some k =>
        if m.isSettled k then Node.fill referred texts all m rest
        else do
          let v ← value.value referred
          Node.fill referred texts all (m.put k v) rest

/-- Merges a mapping, a reference to one, or a list of these. -/
def Node.merge (referred texts : Bool) (m : Filling) : Node → Valuer Filling
  | .map fields => do
    visit referred
    if !haveDistinctKeys fields then
      failure
    Node.fill referred texts fields m fields
  | .reference _ (.map fields) => do
    visit referred
    visit true
    if !haveDistinctKeys fields then
      failure
    Node.fill true texts fields m fields
  | .list items => Node.mergeAll referred texts m items
  | _ => failure

/-- Merges mappings and references to them, the first one first. -/
def Node.mergeAll (referred texts : Bool) (m : Filling) : List Node → Valuer Filling
  | [] => pure m
  | .list _ :: _ => failure
  | item :: rest => do
    let m ← item.merge referred texts m
    Node.mergeAll referred texts m rest

end

/-- The value of a document, which is a mapping with texts for keys or nothing. -/
def Node.rootValue : Node → Valuer Tree
  | .map fields => do
    visit false
    visit false
    if !haveDistinctKeys fields then
      failure
    let m ← Node.fill false true fields {} fields
    return m.tree
  | .scalar tag text bare => do
    match ← (scalarTree? tag text bare : Option Tree) with
    | .null => pure .null
    | _ => failure
  | _ => failure

end Perimeter.Yaml
