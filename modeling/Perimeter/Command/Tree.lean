import Perimeter.Bench.Shapes
import Perimeter.Command.Flag
import Perimeter.Settings.Layers

/-!
# The commands

All commands with their flags and the arguments that they take, and how the words of a command line lead
to one of them.
-/

namespace Perimeter.Command

/-- The commands that do something. -/
inductive Name where
  | trace
  | blobs
  | batch
  | serve
  | generate
  | bench
  | configInit
  | configShow
  | configPath
deriving DecidableEq, Repr

/-- How many arguments a command takes. -/
inductive Arity where
  | exactly (n : Nat)
  | atLeast (n : Nat)
  | atMost (n : Nat)
  | none

/-- A place in the tree of commands. -/
inductive Node where
  | root
  | config
  /-- The commands that explain the others. -/
  | guide (word : String)
  | leaf (c : Name)
deriving DecidableEq, Repr

-- Flags ---------------------------------------------------------------------------------------

/-- A flag for a text. -/
def textFlag (name : String) (value : String := "") : Flag := { name, value := .text value }

/-- A flag for an integer. -/
def intFlag (name : String) (value : Int := 0) : Flag := { name, value := .int value }

/-- A switch. -/
def switchFlag (name : String) (value : Bool := false) : Flag := { name, value := .switch value }

/-- A flag for several words. -/
def wordsFlag (name : String) (value : List String := []) : Flag := { name, value := .words value }

/-- A flag with a letter. -/
def Flag.short (f : Flag) (c : Char) : Flag := { f with letter := some c }

/-- The flags of all commands. -/
def commonFlags : List Flag :=
  [textFlag "config", (switchFlag "verbose").short 'v', textFlag "log-level" "info"]

/-- The flag that asks for an explanation. -/
def helpFlag : Flag := (switchFlag "help").short 'h'

/-- The flag that asks for the version. -/
def versionFlag : Flag := switchFlag "version"

/-- The flags for walks. -/
def walkFlags : List Flag :=
  [switchFlag "clockwise", switchFlag "suppress-border", switchFlag "chain", intFlag "max-length"]

/-- The flags for blobs. -/
def blobFlags : List Flag :=
  [switchFlag "holes" true, intFlag "min-pixels" 1, { name := "simplify", value := .real 0 },
    switchFlag "hull"]

/-- The flags for images. -/
def imageFlags : List Flag := [intFlag "threshold" 128, switchFlag "invert", switchFlag "packed"]

/-- The flags for overlays. -/
def overlayFlags : List Flag :=
  [textFlag "overlay-color" "#FF0000", textFlag "hole-color" "#0000FF", intFlag "overlay-scale" 1]

/-- The flags for results. -/
def outputFlags : List Flag :=
  [(textFlag "format" "text").short 'f', (textFlag "output").short 'o'] ++ overlayFlags

/-- The flags of the service itself. -/
def serviceFlags : List Flag :=
  [(textFlag "host" "localhost").short 'H', (intFlag "port" 8080).short 'p', textFlag "cors-origin" "*",
    intFlag "max-upload-size" 50, intFlag "timeout" 30, intFlag "shutdown-timeout" 10,
    intFlag "chunk-size" 256]

namespace Name

/-- The words that lead to a command. -/
def path : Name → List String
  | trace => ["trace"]
  | blobs => ["blobs"]
  | batch => ["batch"]
  | serve => ["serve"]
  | generate => ["generate"]
  | bench => ["bench"]
  | configInit => ["config", "init"]
  | configShow => ["config", "show"]
  | configPath => ["config", "path"]

/-- The arguments that a command takes. -/
def arity : Name → Arity
  | trace | blobs | generate => .exactly 1
  | batch => .atLeast 1
  | configInit => .atMost 1
  | serve | bench | configShow | configPath => .none

/-- The flags of a command alone. -/
def ownFlags : Name → List Flag
  | trace =>
    [intFlag "x", intFlag "y", textFlag "dir" "auto", intFlag "stop-x", intFlag "stop-y",
      textFlag "stop-dir", switchFlag "drop-start", textFlag "overlay"] ++
      walkFlags ++ imageFlags ++ outputFlags
  | blobs => blobFlags ++ [textFlag "overlay"] ++ walkFlags ++ imageFlags ++ outputFlags
  | batch =>
    blobFlags ++
      [textFlag "overlay-dir", (intFlag "workers" 4).short 'w', (switchFlag "recursive").short 'r',
        wordsFlag "include", wordsFlag "exclude", switchFlag "continue-on-error",
        switchFlag "progress", { name := "progress-interval", value := .duration 500000000 },
        switchFlag "stats"] ++
      walkFlags ++ imageFlags ++ outputFlags
  | serve => serviceFlags ++ blobFlags ++ walkFlags ++ imageFlags ++ overlayFlags
  | generate =>
    [wordsFlag "shapes" Shape.names, intFlag "width" 64, intFlag "height" 64, intFlag "count" 1,
      intFlag "seed" 1]
  | bench =>
    let o : Bench.Options := {}
    [wordsFlag "shapes" o.shapes, intFlag "width" o.width, intFlag "height" o.height,
      intFlag "seed" o.seed, (intFlag "iterations" 10).short 'n', textFlag "filter", switchFlag "list"]
  | configInit => [switchFlag "force"]
  | configShow | configPath => []

/-- The flags that a command cannot do without. -/
def requiredFlags : Name → List String
  | trace => ["x", "y"]
  | _ => []

/-- The command runs with settings out of range too. -/
def toleratesSettings : Name → Bool
  | configInit | configShow | configPath => true
  | _ => false

/-- The flags of a command. -/
def flags (c : Name) : List Flag := c.ownFlags ++ commonFlags ++ [helpFlag]

/-- The words of a command behind the name of the program. -/
def fullName (c : Name) : String := " ".intercalate (Settings.programName :: c.path)

end Name

/-- Refuses a number of arguments that a command does not take. -/
def Name.checkArguments (c : Name) (args : List String) : Except Failure Unit :=
  let n := args.length
  match c.arity with
  | .exactly k =>
    if n = k then .ok () else .error (.plain s!"accepts {k} arg(s), received {n}")
  | .atLeast k =>
    if k ≤ n then .ok ()
    else .error (.plain s!"requires at least {k} arg(s), only received {n}")
  | .atMost k =>
    if n ≤ k then .ok () else .error (.plain s!"accepts at most {k} arg(s), received {n}")
  | .none =>
    match args with
    | [] => .ok ()
    | a :: _ =>
      .error (.plain s!"unknown command {Text.quoted a} for {Text.quoted c.fullName}")

-- Finding commands ----------------------------------------------------------------------------

/-- The commands under the program itself, in the order in which they are suggested. -/
def topWords : List String :=
  ["trace", "blobs", "batch", "serve", "generate", "bench", "config", "completion"]

/-- The place that a word leads to. -/
def Node.child? : Node → String → Option Node
  | .root, "trace" => some (.leaf .trace)
  | .root, "blobs" => some (.leaf .blobs)
  | .root, "batch" => some (.leaf .batch)
  | .root, "serve" => some (.leaf .serve)
  | .root, "generate" => some (.leaf .generate)
  | .root, "bench" => some (.leaf .bench)
  | .root, "config" => some .config
  | .root, "help" => some (.guide "help")
  | .root, "completion" => some (.guide "completion")
  | .config, "init" => some (.leaf .configInit)
  | .config, "show" => some (.leaf .configShow)
  | .config, "path" => some (.leaf .configPath)
  | _, _ => none

/-- The flags that are known while a command is looked for. -/
def Node.flags : Node → List Flag
  | .leaf c => c.ownFlags ++ commonFlags
  | _ => commonFlags

/-- The word is a flag whose value is the next word. -/
def takesNext (flags : List Flag) (word : String) : Bool :=
  match word.toList with
  | '-' :: '-' :: name =>
    !name.contains '=' && !(flags.any fun f => f.name == String.ofList name && f.isSwitch)
  | ['-', c] => c != '=' && c.toNat < 0x80 && !(flags.any fun f => f.letter == some c && f.isSwitch)
  | _ => false

/-- The words that are neither flags nor their values. -/
def plainWords (flags : List Flag) : List String → List String
  | [] => []
  | w :: rest =>
    if w == "--" then []
    else if takesNext flags w then
      match rest with
      | _ :: next :: more => plainWords flags (next :: more)
      | _ => []
    else if w.isEmpty || w.toList.head? == some '-' then plainWords flags rest
    else w :: plainWords flags rest

/-- The words without the first plain one that is the given word. -/
def withoutWord (flags : List Flag) (word : String) : List String → List String
  | [] => []
  | w :: rest =>
    if w == "--" then w :: rest
    else if takesNext flags w then
      match rest with
      | [] => [w]
      | v :: more => w :: v :: withoutWord flags word more
    else if w == word then rest
    else w :: withoutWord flags word rest

/-- The place that words lead to, at most `depth` steps away, and the words that are left. -/
def Node.follow : Nat → Node → List String → Node × List String
  | 0, node, words => (node, words)
  | depth + 1, node, words =>
    match (plainWords node.flags words).head? with
    | none => (node, words)
    | some w =>
      match node.child? w with
      | none => (node, words)
      | some child => child.follow depth (withoutWord node.flags w words)

/-- One more row of the table of edit distances: `left` is the entry before, `corner` the one above it. -/
def distanceRow (c : UInt8) : Nat → Nat → List UInt8 → List Nat → List Nat
  | left, corner, d :: rest, above :: more =>
    let here := min (min (left + 1) (above + 1)) (corner + if c == d then 0 else 1)
    here :: distanceRow c here above rest more
  | _, _, _, _ => []

/-- The least number of bytes to insert, remove or replace to turn one word into another. -/
def editDistance (a b : List UInt8) : Nat :=
  let first := List.range (b.length + 1)
  let last := a.foldl (fun row c =>
    match row with
    | [] => []
    | corner :: above => (corner + 1) :: distanceRow c (corner + 1) corner b above) first
  last.getLast?.getD 0

/-- The commands that a mistyped word may stand for. -/
def suggestions (word : String) : List String :=
  let typed := (Text.lower word).toUTF8.toList
  topWords.filter fun w =>
    let bytes := w.toUTF8.toList
    editDistance typed bytes ≤ 2 || typed.isPrefixOf bytes

/-- The failure of a word that is no command. -/
def unknownCommand (word : String) : Failure :=
  let near := suggestions word
  let hint := if near.isEmpty then ""
    else "\n\nDid you mean this?\n" ++ String.join (near.map fun w => s!"\t{w}\n")
  .plain s!"unknown command {Text.quoted word} for {Text.quoted Settings.programName}{hint}"

end Perimeter.Command
