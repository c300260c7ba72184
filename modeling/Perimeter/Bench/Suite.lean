import Perimeter.Bench.Basic

/-!
# Suites of benchmarks

A suite holds tasks and the results of its last full run. What a task does may depend on how often it
was called before, so a suite counts the calls.
-/

namespace Perimeter.Bench

/-- Something to repeat. -/
structure Task where
  name : String
  /-- What the call with a number gives, the first being number one: the edges visited, and why it
  failed if it did. -/
  work : Nat → Int × Option Failure
  /-- How often the task was called. -/
  calls : Nat := 0

namespace Task

/-- Repeats a task until it fails: the edges of the last call, its failure and the number of calls. -/
def repeatWork (work : Nat → Int × Option Failure) :
    Nat → Nat → Int → Int × Option Failure × Nat
  | 0, calls, edges => (edges, none, calls)
  | n + 1, calls, _ =>
    match work (calls + 1) with
    | (edges, some e) => (edges, some e, calls + 1)
    | (edges, none) => repeatWork work n (calls + 1) edges

/-- Runs a task for a number of iterations. -/
def run (t : Task) (iterations : Int) : Result × Task :=
  if iterations ≤ 0 then
    ({ name := t.name, failure := some (.plain "iterations must be positive") }, t)
  else
    let (edges, failure, calls) := repeatWork t.work iterations.toNat t.calls 0
    ({ name := t.name, iterations, edges, failure }, { t with calls })

end Task

/-- Tasks and the results of the last full run. -/
structure Suite where
  tasks : List Task := []
  results : List Result := []

namespace Suite

/-- The names of the tasks. -/
def names (s : Suite) : List String := s.tasks.map (·.name)

/-- Runs the first task of a name in a list. -/
def runFirst (name : String) (iterations : Int) : List Task → Option (Result × List Task)
  | [] => none
  | t :: rest =>
    if t.name == name then
      let (r, t) := t.run iterations
      some (r, t :: rest)
    else (runFirst name iterations rest).map fun (r, rest) => (r, t :: rest)

/-- Runs the task of a name. -/
def run (s : Suite) (name : String) (iterations : Int) : Result × Suite :=
  match runFirst name iterations s.tasks with
  | some (r, tasks) => (r, { s with tasks })
  | none => ({ name, failure := some (.plain s!"benchmark '{name}' not found") }, s)

/-- Runs all tasks. -/
def runAll (s : Suite) (iterations : Int) : Suite :=
  let runs := s.tasks.map (·.run iterations)
  ⟨runs.map (·.2), runs.map (·.1)⟩

/-- The results of the last full run, one line each. -/
def text (s : Suite) : String := String.join (s.results.map fun r => r.text ++ "\n")

end Suite

end Perimeter.Bench
