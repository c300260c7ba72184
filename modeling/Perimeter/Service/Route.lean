import Perimeter.FileTree.Path
import Perimeter.Log
import Perimeter.Service.Answer
import Perimeter.Text.Base64

/-!
# Routes

Which answer a request gets by its path and method. Answers to known paths carry the headers for
requests from other sites, and are recorded.
-/

namespace Perimeter.Service

open Web

/-- The methods that may be used from other sites. -/
def allowedMethods : String := "GET, POST, OPTIONS"

/-- The headers that may be sent from other sites. -/
def allowedHeaders : String := "Content-Type, Authorization"

/-- The headers for requests from other sites. -/
def corsHeaders (s : Service) : List (String × String) :=
  [("Access-Control-Allow-Origin", s.corsOrigin), ("Access-Control-Allow-Methods", allowedMethods),
    ("Access-Control-Allow-Headers", allowedHeaders), ("Access-Control-Max-Age", "86400")]

/-- The record of an answered request. -/
def servedEntry (r : Web.Request) (path : String) (status : Nat) : Log.Entry :=
  ⟨.debug, "request served",
    [("method", .text r.method), ("path", .text path), ("status", .int status),
      ("client", .text r.client)]⟩

/-- Answers a request to a known path. Questions about the options are answered by the headers alone. -/
def served (s : Service) (r : Web.Request) (path : String) (answer : Response) :
    Response × Option Log.Entry :=
  if r.method == "OPTIONS" then (⟨200, "", .text "", s.corsHeaders⟩, none)
  else ({ answer with headers := s.corsHeaders }, some (servedEntry r path answer.status))

/-- An answer for one method. -/
def only (method : String) (r : Web.Request) (answer : Response) : Response :=
  if r.method == method then answer else .plain 405 "Method not allowed"

/-- An outcome that is a response either way. -/
def settle : Except Response Response → Response
  | .ok r => r
  | .error r => r

/-- The shortest text of a path from the root. A slash at the end is kept. -/
def cleanPath (p : String) : String :=
  if p.isEmpty then "/"
  else
    let clean := Path.clean (if Path.isRooted p then p else "/" ++ p)
    if p.toList.getLast? == some '/' && clean != "/" then clean ++ "/" else clean

/-- One character of a text inside markup. -/
def markupChar (c : Char) : String :=
  match c with
  | '&' => "&amp;"
  | '<' => "&lt;"
  | '>' => "&gt;"
  | '"' => "&#34;"
  | '\'' => "&#39;"
  | c => c.toString

/-- A text inside markup. -/
def markup (s : String) : String := String.join (s.toList.map markupChar)

/-- The response that sends a client to another path. -/
def redirect (r : Web.Request) (path : String) : Response :=
  let path := encodePath path
  let target := if r.query.isEmpty then path else s!"{path}?{r.query}"
  if r.method == "GET" then
    ⟨307, "text/html; charset=utf-8",
      .text s!"<a href=\"{markup target}\">Temporary Redirect</a>.\n\n", []⟩
  else ⟨307, if r.method == "HEAD" then "text/html; charset=utf-8" else "", .text "", []⟩

/-- A list of words in a header has the given word, whatever the case. The list ends in front of what is
no word. -/
def hasToken (r : Web.Request) (header word : String) : Bool :=
  let words := ((r.header header).splitOn ",").map Text.trim
  (words.takeWhile fun w => !w.isEmpty && w.toList.all isHeaderChar).any (Text.lower · == word)

/-- The response to a request for a stream of messages. A connection that can be taken over is up to the
outer layer; without one the service can only refuse. -/
def refuseStream (r : Web.Request) : Response :=
  let key := Base64.decode? (r.header "Sec-WebSocket-Key")
  if !hasToken r "Connection" "upgrade" || !hasToken r "Upgrade" "websocket" then
    .plain 400 "Bad Request"
  else if r.method != "GET" then .plain 405 "Method Not Allowed"
  else if !hasToken r "Sec-WebSocket-Version" "13" || key.map List.length != some 16 then
    .plain 400 "Bad Request"
  else .plain 500 "Internal Server Error"

/-- What is told when time is up. -/
def timeoutText : String := "\x7b\"success\":false,\"error\":\"request timed out\"\x7d"

/-- An answer unless time is up before it starts. -/
def timed (s : Service) (answer : Response) : Response :=
  if s.givesUp then ⟨503, "", .text timeoutText, []⟩ else answer

/-- The path in encoded form. A path with characters that have to be encoded is encoded anew. -/
def encodedPath (path : String) : String :=
  if path.toList.all fun c => isPathChar c || "!'()*[]%".toList.contains c then path
  else ((percentBytes? false path.toList).map encodeBytes).getD (encodePath path)

/-- The names of a path from the root, decoded one by one. -/
def routeNames (path : String) : List String :=
  (Path.names path).map fun name => (percentDecode? false name).getD name

/-- The response to a request, with the record of it. The time is only for the answer that the service is
there. Connections are not sent elsewhere for their paths. -/
def respond (s : Service) (now : String) (r : Web.Request) : Response × Option Log.Entry :=
  let encoded := encodedPath r.path
  let clean := cleanPath encoded
  let path := (percentDecode? false r.path).getD r.path
  if r.path == "*" then (⟨400, "", .text "", []⟩, none)
  else if clean != encoded && r.method != "CONNECT" then (redirect r clean, none)
  else
    match routeNames encoded with
    | ["", "health"] => s.served r path (only "GET" r (answerHealth now))
    | ["", "trace"] => s.served r path (s.timed (only "POST" r (settle (answerTrace s r))))
    | ["", "blobs"] => s.served r path (s.timed (only "POST" r (settle (answerBlobs s r))))
    | ["", "ws", "trace"] => (refuseStream r, none)
    | _ => (.plain 404 "404 page not found", none)

end Perimeter.Service
