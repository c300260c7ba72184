import Perimeter.Crew.Basic

/-!
# The crew at work

The moves of a crew that shares out pictures. A feeder puts the pictures into a queue of jobs, workers
take jobs and put what came out into a queue of results, and a collector empties that queue. Both
queues have room for all pictures. The run can be called off at any time, after which feeder and
workers may stop at every point where they would wait. `Run` relates a state to all states that some
order of moves leads to.
-/

namespace Perimeter.Crew

/-- A picture with its place in the list. -/
structure Job where
  index : Nat
  picture : Picture

/-- What a worker is doing. -/
inductive Worker where
  /-- It waits for a job. -/
  | idle
  /-- It has an outcome to hand over. -/
  | holding (r : Finished)
  /-- It has left. -/
  | gone

/-- Where a run stands. -/
structure State where
  /-- The jobs that the feeder has not yet put into the queue. -/
  feed : List Job
  /-- The feeder may still put jobs into the queue. -/
  feeding : Bool
  jobs : List Job
  workers : List Worker
  results : List Finished
  /-- What the collector took from the queue of results, oldest first. -/
  collected : List Finished
  /-- Each time the collector took an outcome: how many it had by then, and how many there are. -/
  progress : List (Nat × Nat)
  cancelled : Bool
  /-- The answer, once the collector has given it. -/
  answer : Option Report

/-- The start of a run with a number of workers. -/
def State.start (pictures : List Picture) (workers : Nat) : State where
  feed := pictures.zipIdx.map fun (p, i) => ⟨i, p⟩
  feeding := true
  jobs := []
  workers := List.replicate workers .idle
  results := []
  collected := []
  progress := []
  cancelled := false
  answer := none

/-- The number of workers for a request, where `available` is used when none is asked for. There are
never more workers than pictures. -/
def size (requested : Int) (available pictures : Nat) : Nat :=
  min (if requested ≤ 0 then available else requested.toNat) pictures

/-- The last look of the collector: a run that was called off has no results. -/
def State.conclude (s : State) (total : Nat) : Report :=
  if s.cancelled then .broken s.progress calledOff
  else { Crew.conclude total s.collected with progress := s.progress }

/-- One move of a run over `total` pictures. -/
inductive Step (cfg : Blob.Config) (total : Nat) : State → State → Prop where
  /-- The run is called off. -/
  | cancel {s : State} (open_ : s.answer = none) (going : s.cancelled = false) :
    Step cfg total s { s with cancelled := true }
  /-- The feeder puts a job into the queue. -/
  | feed {s : State} {j : Job} {rest : List Job} (feeding : s.feeding = true)
    (next : s.feed = j :: rest) (room : s.jobs.length < total) :
    Step cfg total s { s with feed := rest, jobs := s.jobs ++ [j] }
  /-- The feeder has no more jobs and closes the queue. -/
  | feedEnd {s : State} (feeding : s.feeding = true) (empty : s.feed = []) :
    Step cfg total s { s with feeding := false }
  /-- The feeder stops early. -/
  | feedStop {s : State} (feeding : s.feeding = true) (cancelled : s.cancelled = true) :
    Step cfg total s { s with feeding := false }
  /-- A worker takes a job and works on it. -/
  | take {s : State} {j : Job} {rest : List Job} (i : Nat) (idle : s.workers[i]? = some .idle)
    (next : s.jobs = j :: rest) :
    Step cfg total s
      { s with
        jobs := rest
        workers := s.workers.set i (.holding ⟨j.index, Blob.find j.picture cfg⟩) }
  /-- A worker finds the queue of jobs empty and closed, and leaves. -/
  | leave {s : State} (i : Nat) (idle : s.workers[i]? = some .idle) (empty : s.jobs = [])
    (closed : s.feeding = false) :
    Step cfg total s { s with workers := s.workers.set i .gone }
  /-- An idle worker stops early. -/
  | quit {s : State} (i : Nat) (idle : s.workers[i]? = some .idle) (cancelled : s.cancelled = true) :
    Step cfg total s { s with workers := s.workers.set i .gone }
  /-- A worker hands over an outcome. -/
  | deliver {s : State} {r : Finished} (i : Nat) (holds : s.workers[i]? = some (.holding r))
    (room : s.results.length < total) :
    Step cfg total s { s with results := s.results ++ [r], workers := s.workers.set i .idle }
  /-- A worker stops early and drops its outcome. -/
  | drop {s : State} {r : Finished} (i : Nat) (holds : s.workers[i]? = some (.holding r))
    (cancelled : s.cancelled = true) :
    Step cfg total s { s with workers := s.workers.set i .gone }
  /-- The collector takes an outcome and tells how many it has. -/
  | collect {s : State} {r : Finished} {rest : List Finished} (open_ : s.answer = none)
    (next : s.results = r :: rest) :
    Step cfg total s
      { s with
        results := rest
        collected := s.collected ++ [r]
        progress := s.progress ++ [(s.collected.length + 1, total)] }
  /-- All workers have left and all outcomes are taken: the collector answers. -/
  | answer {s : State} (open_ : s.answer = none) (empty : s.results = [])
    (left : ∀ w ∈ s.workers, w = .gone) :
    Step cfg total s { s with answer := some (s.conclude total) }

/-- Some order of moves leads from one state to another. -/
inductive Run (cfg : Blob.Config) (total : Nat) : State → State → Prop where
  | refl (s : State) : Run cfg total s s
  | tail {s t u : State} (run : Run cfg total s t) (step : Step cfg total t u) : Run cfg total s u

end Perimeter.Crew
