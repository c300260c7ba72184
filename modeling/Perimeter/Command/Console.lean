import Perimeter.Command.Tree
import Perimeter.FileTree.Basic
import Perimeter.Log
import Perimeter.Service.Basic

/-!
# The console

What a command does to the world: files that it writes, text on the two output streams, and log records
among the text of the second. A command that fails keeps what it did before.
-/

namespace Perimeter.Command

/-- Something on the stream for messages. -/
inductive Message where
  | text (s : String)
  | record (r : Log.Entry)

/-- What has been done so far. -/
structure Console where
  tree : FileTree
  output : String := ""
  /-- The stream for messages. -/
  messages : List Message := []
  /-- Records below this level are dropped. -/
  threshold : Log.Level := .info
  /-- A service that is to listen for requests. -/
  service : Option Service := none
  /-- The place in the tree of commands that an explanation is asked for. -/
  subject : Option Node := none

/-- Something that a command does. -/
abbrev Action := ExceptT Failure (StateM Console)

namespace Action

/-- Fails when the outcome is a failure. -/
def ofExcept {α : Type} : Except Failure α → Action α
  | .ok a => pure a
  | .error e => throw e

/-- Writes text to the output. -/
def print (s : String) : Action Unit := modify fun c => { c with output := c.output ++ s }

/-- Writes text to the stream for messages. -/
def tell (s : String) : Action Unit :=
  modify fun c => { c with messages := c.messages ++ [.text s] }

/-- Writes a log record, unless it is of no interest. -/
def record (r : Log.Entry) : Action Unit :=
  modify fun c =>
    if c.threshold.code ≤ r.level.code then { c with messages := c.messages ++ [.record r] } else c

/-- Replaces the files. -/
def setTree (t : FileTree) : Action Unit := modify fun c => { c with tree := t }

/-- Asks for the explanation of a place in the tree of commands. -/
def explain (n : Node) : Action Unit := modify fun c => { c with subject := some n }

/-- The files. -/
def tree : Action FileTree := do
  return (← get).tree

end Action

end Perimeter.Command
