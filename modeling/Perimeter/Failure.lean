import Perimeter.Fault

/-!
# Failures

What an operation of the program reports when it does not succeed: a `Fault`, trouble with an image
file, or a plain message, possibly inside the name of a larger activity.
-/

namespace Perimeter

/-- Why an operation did not succeed. -/
inductive Failure where
  | fault (f : Fault)
  /-- An operation on an image file failed. -/
  | image (operation : String) (cause : String)
  | plain (text : String)
  /-- A failure of a part, with the name of the whole in front. -/
  | during (activity : String) (inner : Failure)
deriving DecidableEq, Repr

namespace Failure

/-- The message. -/
def message : Failure → String
  | fault f => f.message
  | image operation cause => s!"image processing error in {operation}: {cause}"
  | plain text => text
  | during activity inner => s!"{activity}: {inner.message}"

/-- The fault at the bottom, if that is what went wrong. -/
def fault? : Failure → Option Fault
  | fault f => some f
  | image .. => none
  | plain _ => none
  | during _ inner => inner.fault?

/-- An operation on an image file is at the bottom. -/
def isImage : Failure → Bool
  | fault _ => false
  | image .. => true
  | plain _ => false
  | during _ inner => inner.isImage

/-- The word for what went wrong: the kind of the fault, `image`, or `error`. -/
def kindName (e : Failure) : String :=
  match e.fault? with
  | some f => f.kind.name
  | none => if e.isImage then "image" else "error"

end Failure

/-- An outcome whose failure is a fault. -/
def liftFault {α : Type} : Except Fault α → Except Failure α
  | .ok a => .ok a
  | .error f => .error (.fault f)

/-- An outcome whose failure is put inside an activity. -/
def Failure.within {α : Type} (activity : String) : Except Failure α → Except Failure α
  | .ok a => .ok a
  | .error e => .error (.during activity e)

end Perimeter
