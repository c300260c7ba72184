import Perimeter.Blob.Find

/-!
# Many pictures

`Crew.findAll` extracts the blobs of many pictures. The answer lists the outcomes in the order of the
pictures, however the work was shared out: `Crew.conclude` builds it from the finished pictures in any
order.
-/

namespace Perimeter.Crew

/-- A finished picture: its place in the list and what came out. -/
structure Finished where
  index : Nat
  outcome : Except Failure Blob.Result

/-- The answer for a list of pictures. -/
structure Report where
  /-- One entry per picture, empty where extraction failed; absent when the run as a whole failed. -/
  results : Option (List (Option Blob.Result))
  /-- Each time a picture was finished: how many were by then, and how many there are. -/
  progress : List (Nat × Nat)
  /-- The failures, by ascending place. -/
  failed : List (Nat × Failure)
  /-- Why the run failed: the failure of the first picture that did, or one of the whole run. -/
  failure : Option Failure

/-- The failure of a run without pictures. -/
def noPictures : Failure := .plain "no images provided"

/-- The failure of a run that was called off. -/
def calledOff : Failure := .plain "context canceled"

/-- The report of a run that failed as a whole. -/
def Report.broken (progress : List (Nat × Nat)) (e : Failure) : Report := ⟨none, progress, [], some e⟩

/-- What came out for the picture at a place, if it is finished. -/
def outcomeAt (done : List Finished) (i : Nat) : Option (Except Failure Blob.Result) :=
  (done.find? (·.index == i)).map (·.outcome)

/-- The result at a place, if the picture is finished and did not fail. -/
def resultAt (done : List Finished) (i : Nat) : Option Blob.Result :=
  match outcomeAt done i with
  | some (.ok r) => some r
  | _ => none

/-- The failure at a place, if the picture is finished and failed. -/
def failureAt (done : List Finished) (i : Nat) : Option Failure :=
  match outcomeAt done i with
  | some (.error e) => some e
  | _ => none

/-- How many pictures were finished after each one, of `total`. -/
def countUp (done : List Finished) (total : Nat) : List (Nat × Nat) :=
  (List.range done.length).map fun k => (k + 1, total)

/-- The failures of a run, by ascending place. -/
def failures (done : List Finished) (total : Nat) : List (Nat × Failure) :=
  (List.range total).filterMap fun i => (failureAt done i).map fun e => (i, e)

/-- The first failure, with the place of its picture. -/
def firstFailure (failed : List (Nat × Failure)) : Option Failure :=
  failed.head?.map fun (i, e) => .during s!"image {i}" e

/-- The report on `total` pictures from those that were finished, in the order in which they were. -/
def conclude (total : Nat) (done : List Finished) : Report where
  results := some ((List.range total).map (resultAt done))
  progress := countUp done total
  failed := failures done total
  failure := firstFailure (failures done total)

/-- The pictures of a list, each with its outcome. -/
def outcomes (pictures : List Picture) (cfg : Blob.Config) : List Finished :=
  pictures.zipIdx.map fun (p, i) => ⟨i, Blob.find p cfg⟩

/-- Extracts the blobs of all pictures. A run that is called off before it starts gives no results. -/
def findAll (pictures : List Picture) (cfg : Blob.Config) (cancelled : Bool) : Report :=
  if pictures.isEmpty then .broken [] noPictures
  else if cancelled then .broken [] calledOff
  else conclude pictures.length (outcomes pictures cfg)

end Perimeter.Crew
