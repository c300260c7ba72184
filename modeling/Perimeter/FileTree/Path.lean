/-!
# Paths as text

Names separated by slashes. The functions here look at the text alone and never at the files.
-/

namespace Perimeter.Path

/-- The names between the slashes. -/
def names (p : String) : List String := p.splitOn "/"

/-- The path starts at the root. -/
def isRooted (p : String) : Bool := p.toList.head? == some '/'

/-- Takes one more name into account: `.` and nothing stay, `..` goes back where it can. The names are
kept last first. -/
def push (rooted : Bool) (acc : List String) (name : String) : List String :=
  if name.isEmpty || name == "." then acc
  else if name == ".." then
    match acc with
    | [] => if rooted then [] else [".."]
    | last :: rest => if last == ".." then ".." :: acc else rest
  else name :: acc

/-- The shortest text of a path. -/
def clean (p : String) : String :=
  let rooted := isRooted p
  let text := "/".intercalate ((names p).foldl (push rooted) []).reverse
  if rooted then "/" ++ text else if text.isEmpty then "." else text

/-- Paths put one behind the other; empty ones are left out. -/
def join (parts : List String) : String :=
  let parts := parts.filter (!·.isEmpty)
  if parts.isEmpty then "" else clean ("/".intercalate parts)

/-- The text up to the last slash, that slash included. -/
def uptoSlash (p : String) : String :=
  String.ofList (p.toList.reverse.dropWhile (· != '/')).reverse

/-- The text behind the last slash. -/
def afterSlash (p : String) : String :=
  String.ofList (p.toList.reverse.takeWhile (· != '/')).reverse

/-- The path of the folder that a path lies in. -/
def parent (p : String) : String := clean (uptoSlash p)

/-- The text without slashes at its end. -/
def dropSlashes (p : String) : String :=
  String.ofList (p.toList.reverse.dropWhile (· == '/')).reverse

/-- The last name of a path. -/
def base (p : String) : String :=
  if p.isEmpty then "."
  else
    let name := afterSlash (dropSlashes p)
    if name.isEmpty then "/" else name

/-- The ending of the last name, from its last dot on. -/
def extension (p : String) : String :=
  let name := (afterSlash p).toList.reverse
  if name.contains '.' then String.ofList ('.' :: (name.takeWhile (· != '.')).reverse) else ""

/-- A text without the given ending. -/
def dropEnding (s ending : String) : String :=
  if ending.toList.isSuffixOf s.toList then
    String.ofList (s.toList.take (s.length - ending.length))
  else s

end Perimeter.Path
