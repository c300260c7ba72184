/-!
# YAML values

Values with the fields of a mapping in the order in which they are written. A scalar whose text is
known to be readable as it stands is `plain`; a text of unknown content is `str`, and the printer
chooses its quotes.
-/

namespace Perimeter

/-- A YAML value. -/
inductive Yaml where
  /-- A scalar written as it is. -/
  | plain (text : String)
  /-- A text. -/
  | str (text : String)
  | seq (items : List Yaml)
  | map (fields : List (String × Yaml))
deriving Inhabited

end Perimeter
