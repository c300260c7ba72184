import Perimeter.Yaml.Node.Parser
import Perimeter.Yaml.Node.Value

/-!
# Reading YAML

Reads the first document of a text as a mapping: block and flow collections, plain, quoted and block
scalars, anchors, references and types of nodes, and comments.
-/

namespace Perimeter.Yaml

/-- Drops a mark of the order of bytes. -/
def dropOrderMark : List Char → List Char
  | '\ufeff' :: rest => rest
  | cs => cs

/-- Reads the first document of a text. A text without documents stands for nothing. -/
def read? (s : String) : Option Tree :=
  let cs := dropOrderMark s.toList
  if cs.all isReadable then
    match document? cs with
    | some (some root) => (root.rootValue.run {}).map (·.1)
    | some none => some .null
    | none => none
  else none

end Perimeter.Yaml
