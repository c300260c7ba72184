import Perimeter.Text.Base64
import Perimeter.Text.Utf8
import Perimeter.Tree
import Perimeter.Yaml.Scalar

/-!
# YAML nodes

What the text of a document says, with every reference beside the node that it refers to, and what its
scalars stand for.
-/

namespace Perimeter.Yaml

/-- A piece of a document. -/
inductive Node where
  /-- A scalar with the name of its type, if it has one. A scalar that is not bare, in quotes or in
  a block, stands for itself. -/
  | scalar (tag : Option String) (text : String) (bare : Bool)
  | list (items : List Node)
  | map (fields : List (Node × Node))
  /-- A reference to an earlier node. -/
  | reference (name : String) (target : Node)
  /-- A reference to a node from inside it. -/
  | cycle (name : String)
deriving Inhabited

namespace Node

/-- The node that is not there. -/
def nothing : Node := .scalar none "" true

/-- The node is a mapping. -/
def isMap : Node → Bool
  | map _ => true
  | _ => false

/-- The kinds of nodes that keys are told apart by. -/
inductive Kind where
  | scalar
  | list
  | map
  | reference
deriving DecidableEq, Repr

/-- What keys are told apart by: two keys of one mapping do not have the same. -/
def identity : Node → Kind × String
  | scalar _ text _ => (.scalar, text)
  | list _ => (.list, "")
  | map _ => (.map, "")
  | reference name _ => (.reference, name)
  | cycle name => (.reference, name)

/-- The key that takes over the fields of other mappings. -/
def isMerge : Node → Bool
  | scalar none text bare => bare && text == "<<"
  | scalar (some tag) text _ => tag == "!!merge" && text == "<<"
  | _ => false

end Node

/-- What the names of built-in types start with. -/
def builtinFront : String := "tag:yaml.org,2002:"

/-- The short form of the name of a type. -/
def shortTag (s : String) : String :=
  if s.startsWith builtinFront then "!!" ++ (s.drop builtinFront.length).toString else s

/-! ## Scalars -/

/-- The tree of a value. -/
def Scalar.tree : Scalar → Tree
  | .null => .null
  | .bool b => .bool b
  | .int n => .int n
  | .float x => .real x
  | .timestamp t => .moment t
  | .str t => .text t

/-- The tree of a scalar with a type. Other than built-in types leave the text as it is. -/
def taggedTree? (tag text : String) : Option Tree :=
  match tag, (Scalar.resolve text).tree with
  | "!!null", .null => some .null
  | "!!bool", .bool b => some (.bool b)
  | "!!int", .int n => some (.int n)
  | "!!float", .real x => some (.real x)
  | "!!float", .int n => if n < 9223372036854775808 then some (.real (Float.ofInt n)) else none
  | "!!timestamp", .moment t => some (.moment t)
  | "!!null", _ | "!!bool", _ | "!!int", _ | "!!float", _ | "!!timestamp", _ => none
  | "!!binary", _ => (Base64.decode? text).map fun bytes => .text (Text.ofBytes bytes)
  | _, _ => some (.text text)

/-- The tree of a scalar. -/
def scalarTree? (tag : Option String) (text : String) (bare : Bool) : Option Tree :=
  match tag with
  | some tag => taggedTree? tag text
  | none => some (if bare then (Scalar.resolve text).tree else .text text)

/-- The scalar is taken for a text. -/
def readsAsKey (tag : Option String) (text : String) (bare : Bool) : Bool :=
  match tag with
  | some tag => tag == "!!str" || tag == "!!merge"
  | none =>
    match (Scalar.resolve text).tree with
    | .text _ => true
    | _ => !bare

/-- The node is taken for a text, as the keys of most mappings are. -/
def Node.isTextKey : Node → Bool
  | .scalar tag text bare => readsAsKey tag text bare
  | .reference _ target => target.isTextKey
  | _ => false

end Perimeter.Yaml
