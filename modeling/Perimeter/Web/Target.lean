import Perimeter.Web.Address

/-!
# Targets

The first line of a request names a method and a target. The target is a path from the root, a whole
address with a scheme and a host in front of the path, or an asterisk for the service itself. A request
to connect may name a host alone. Behind a question mark follows the query.
-/

namespace Perimeter.Web

/-- The text can be the name of a method. -/
def isMethod (s : String) : Bool := !s.isEmpty && s.toList.all isHeaderChar

/-- The character can stand in a target, which neither blanks nor control characters can. -/
def isTargetChar (c : Char) : Bool := ' ' < c && c != '\x7f'

/-- The character can stand in the name of a host. -/
def isHostChar (c : Char) : Bool :=
  c.isAlphanum || 0x80 ≤ c.toNat || "-_.~!$&'()*+,;=:]<>\"".toList.contains c

/-- The text can be the name of a host. Of the common characters only the percent sign is encoded. -/
def isHostName : List Char → Bool
  | [] => true
  | '%' :: a :: b :: rest =>
    let encoded := match hexDigit? a, hexDigit? b with
      | some hi, some lo => 8 ≤ hi || (hi == 2 && lo == 5)
      | _, _ => false
    encoded && isHostName rest
  | c :: rest => isHostChar c && isHostName rest

/-- The text is nothing, or a colon and the digits of a port. -/
def isPortSuffix : List Char → Bool
  | [] => true
  | c :: digits => c == ':' && digits.all Char.isDigit

/-- A text from the last occurrence of a character on; empty if there is none. -/
def fromLast (c : Char) (cs : List Char) : List Char :=
  if cs.contains c then c :: (cs.reverse.takeWhile (· != c)).reverse else []

/-- The text names a host, with or without a port. -/
def isHostWithPort (cs : List Char) : Bool :=
  match cs with
  | '[' :: rest =>
    match fromLast ']' rest with
    | [] => false
    | suffix@(_ :: port) =>
      isPortSuffix port && isLongAddress (String.ofList (rest.take (rest.length - suffix.length)))
  | _ => isPortSuffix (fromLast ':' cs) && isHostName cs

/-- The text names someone on a host. -/
def isUser (cs : List Char) : Bool :=
  cs.all (fun c => c.isAlphanum || "-._:~!$&'()*+,;=%@".toList.contains c) &&
    (percentBytes? false cs).isSome

/-- The text names a host, or someone on a host behind the last at sign. -/
def isAuthority (cs : List Char) : Bool :=
  match fromLast '@' cs with
  | [] => isHostWithPort cs
  | suffix@(_ :: host) => isHostWithPort host && isUser (cs.take (cs.length - suffix.length))

/-- What follows the scheme of an address. -/
def afterScheme? (cs : List Char) : Option (List Char) :=
  let name := cs.takeWhile fun c => c.isAlphanum || c == '+' || c == '-' || c == '.'
  match name, cs.drop name.length with
  | first :: _, ':' :: rest => if first.isAlpha then some rest else none
  | _, _ => none

/-- The path of an address whose scheme is left out. An address that is no path has none. -/
def addressPath? (cs : List Char) : Option (List Char) :=
  match cs with
  | '/' :: '/' :: rest =>
    let host := rest.takeWhile (· != '/')
    if isAuthority host then some (rest.drop host.length) else none
  | '/' :: _ => some cs
  | _ => some []

/-- The path of a target without its query. -/
def targetPath? (method : String) (cs : List Char) : Option (List Char) :=
  if cs.head? == some '/' then some cs
  else if method == "CONNECT" then addressPath? ('/' :: '/' :: cs)
  else (afterScheme? cs).bind addressPath?

/-- The request of a first line. The path and the query stay in the form in which they are written. -/
def Request.ofLine? (method target : String) : Option Request := do
  guard (isMethod method && target.toList.all isTargetChar)
  if target == "*" then
    pure { method, path := target }
  else
    let (front, query) := cut '?' target
    let path ← targetPath? method front.toList
    let _ ← percentBytes? false path
    pure { method, path := String.ofList path, query }

end Perimeter.Web
