import Perimeter.Command.Tree

/-!
# Explanations

What a place in the tree of commands says about itself: what it is for, how it is called, the commands
under it and its flags.
-/

namespace Perimeter.Command

/-- What a command is for. -/
def Name.summary : Name → String
  | trace => "Trace one boundary starting from a seed pixel"
  | blobs => "Extract the outer boundary and holes of every blob"
  | batch => "Extract blobs from many images in parallel"
  | serve => "Start HTTP server for the tracing API"
  | generate => "Write synthetic binary test images"
  | bench => "Measure tracing throughput on synthetic images"
  | configInit => "Write a configuration file with all defaults"
  | configShow => "Print the resolved configuration as YAML"
  | configPath => "Show the configuration file in use and the search paths"

/-- The arguments of a command, as a line of usage shows them. -/
def Arity.shown : Arity → String
  | exactly n => String.join (List.replicate n " <path>")
  | atLeast n => String.join (List.replicate n " <path>") ++ " [path...]"
  | atMost n => String.join (List.replicate n " [path]")
  | none => ""

namespace Node

/-- What a place is for. -/
def summary : Node → String
  | root => "Trace 8-connected boundaries in binary images"
  | config => "Inspect and create configuration files"
  | guide _ => "Help about any command"
  | leaf c => c.summary

/-- The line that shows how to get to a place. -/
def call : Node → String
  | root => s!"{Settings.programName} [command]"
  | config => s!"{Settings.programName} config [command]"
  | guide word => s!"{Settings.programName} {word} [command]"
  | leaf c => s!"{c.fullName}{c.arity.shown} [flags]"

/-- The words that lead on from a place. -/
def nextWords : Node → List String
  | root => topWords.dropLast
  | config => ["init", "show", "path"]
  | _ => []

/-- The text with blanks behind it, so that it fills a column. -/
def column (width : Nat) (s : String) : String :=
  s ++ String.ofList (List.replicate (width - s.length) ' ')

/-- The flags that a place knows. -/
def ownFlags : Node → List Flag
  | root => commonFlags ++ [helpFlag, versionFlag]
  | leaf c => c.flags
  | _ => commonFlags ++ [helpFlag]

/-- The explanation of a place. -/
def usage (node : Node) : String :=
  let commands := node.nextWords.map fun w =>
    let purpose := ((node.child? w).map summary).getD ""
    s!"  {column 10 w} {purpose}\n"
  let flags := node.ownFlags.map fun f => s!"  {f.shown}\n"
  let parts := [s!"{node.summary}\n", s!"Usage:\n  {node.call}\n"] ++
    (if commands.isEmpty then [] else ["Available Commands:\n" ++ String.join commands]) ++
    ["Flags:\n" ++ String.join flags]
  "\n".intercalate parts

end Node

end Perimeter.Command
