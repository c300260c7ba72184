import Perimeter.Numeral
import Perimeter.Text.Ranges
import Perimeter.Web.Message
import Perimeter.Web.Percent

/-!
# Network addresses

A host and a port with a colon between them. A host that has colons itself stands in brackets.
-/

namespace Perimeter.Web

/-- The address of a host and a port. -/
def joinAddress (host : String) (port : Int) : String :=
  if host.toList.contains ':' then s!"[{host}]:{port}" else s!"{host}:{port}"

/-- The text is an address of four numbers. -/
def isShortAddress (host : String) : Bool :=
  let parts := host.splitOn "."
  parts.length == 4 && parts.all fun p =>
    match Numeral.natural 10 false 255 p.toList with
    | .ok _ => !p.isEmpty && p.length ≤ 3 && (p == "0" || p.toList.head? != some '0')
    | .error _ => false

/-- The text is made of hexadecimal numbers with colons between them. -/
def isLongAddress (host : String) : Bool :=
  let cs := host.toList
  2 ≤ cs.count ':' && cs.all fun c => c == ':' || (hexDigit? c).isSome

/-- The host is given by numbers, not by a name. -/
def isNumericHost (host : String) : Bool := isShortAddress host || isLongAddress host

/-- The host is this machine under one of its usual names. -/
def isLocalHost (host : String) : Bool :=
  ["", "localhost", "0.0.0.0", "::", "::1"].contains host ||
    (isShortAddress host && (host.splitOn ".").head? == some "127")

/-- The host of an address in brackets, without the opening one. -/
def bracketedHost? (cs : List Char) : Option (List Char) :=
  let host := cs.takeWhile (· != ']')
  match cs.drop host.length with
  | ']' :: ':' :: port =>
    if host.contains '[' || port.any (fun c => c == ':' || c == '[' || c == ']') then none
    else some host
  | _ => none

/-- The host of an address. -/
def host? (address : String) : Option String :=
  match address.toList with
  | '[' :: rest => (bracketedHost? rest).map String.ofList
  | cs =>
    let host := cs.takeWhile (· != ':')
    match cs.drop host.length with
    | ':' :: port =>
      if port.contains ':' || cs.any (fun c => c == '[' || c == ']') then none
      else some (String.ofList host)
    | _ => none

/-- The first of several addresses with commas between them. A list that starts with a comma counts as
one address. -/
def firstAddress (s : String) : String :=
  let front := s.toList.takeWhile (· != ',')
  Text.trim (if front.isEmpty then s else String.ofList front)

/-- The address of the client, as a relay in between names it or as the connection does. -/
def Request.client (r : Request) : String :=
  let forwarded := r.header "X-Forwarded-For"
  let real := r.header "X-Real-IP"
  if !forwarded.isEmpty then firstAddress forwarded
  else if !real.isEmpty then Text.trim real
  else (host? r.remote).getD r.remote

end Perimeter.Web
