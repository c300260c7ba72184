import Perimeter.Image.Basic
import Perimeter.Web.MediaType

/-!
# Messages of the web

Requests and responses as far as the service looks at them. Images travel as their pixels.
-/

namespace Perimeter.Web

/-- What a file or a value holds. -/
inductive Content where
  | text (s : String)
  | image (i : Image)

/-- A part of a form. -/
structure Part where
  name : String
  /-- The name of the file; empty for an ordinary value. -/
  file : String := ""
  content : Content

/-- The body of a request. -/
inductive Body where
  /-- Text of a type, which is empty when there is no body. -/
  | raw (type : String) (text : String)
  | form (parts : List Part)

/-- A request. -/
structure Request where
  method : String
  path : String
  query : String := ""
  headers : List (String × String) := []
  /-- The address of the sender. -/
  remote : String := ""
  body : Body := .raw "" ""

/-- The value of a header, whatever the case of its name; empty when it is not there. -/
def Request.header (r : Request) (name : String) : String :=
  ((r.headers.find? fun (k, _) => Text.lower k == Text.lower name).map (·.2)).getD ""

/-- The character may stand in the name of a header or in a word of its value. -/
def isHeaderChar (c : Char) : Bool := c.isAlphanum || "!#$%&'*+-.^_`|~".toList.contains c

/-- What a response holds. -/
inductive Payload where
  | text (s : String)
  | image (c : Canvas)

/-- A response. -/
structure Response where
  status : Nat
  /-- The type of the content; empty when there is none. -/
  type : String
  payload : Payload
  headers : List (String × String) := []

/-- A response with a line of plain text. -/
def Response.plain (status : Nat) (line : String) : Response :=
  ⟨status, "text/plain; charset=utf-8", .text (line ++ "\n"), []⟩

end Perimeter.Web
