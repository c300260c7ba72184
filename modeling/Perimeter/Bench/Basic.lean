import Perimeter.Decimal.Layout
import Perimeter.Duration
import Perimeter.Failure

/-!
# Measurements

What a benchmark measures, and the lines that show it.
-/

namespace Perimeter.Bench

/-- A stopwatch and the time that it has measured. -/
structure Timer where
  name : String
  /-- The time, in nanoseconds; zero until it was stopped. -/
  duration : Int := 0

/-- A timer in one line. -/
def Timer.text (t : Timer) : String := s!"{t.name}: {Duration.text t.duration}"

/-- The use of memory. -/
structure Memory where
  /-- The bytes in use. -/
  used : UInt64 := 0
  /-- The bytes ever taken into use. -/
  total : UInt64 := 0
  /-- The bytes taken from the system. -/
  reserved : UInt64 := 0
  /-- How often unused memory was collected. -/
  collections : UInt32 := 0
  /-- The share of time that collecting took. -/
  share : Float := 0

/-- The use of memory in one line. -/
def Memory.text (m : Memory) : String :=
  let percent := Decimal.fixed 2 (m.share * 100)
  s!"Alloc: {m.used / 1024} KB, Total: {m.total / 1024} KB, Sys: {m.reserved / 1024} KB, " ++
    s!"GC: {m.collections} ({percent}% CPU)"

/-- What came out of a benchmark. -/
structure Result where
  name : String
  /-- The time of all iterations, in nanoseconds. -/
  duration : Int := 0
  before : Memory := {}
  after : Memory := {}
  iterations : Int := 0
  /-- The number of edges visited in an iteration; zero when unknown. -/
  edges : Int := 0
  failure : Option Failure := none

namespace Result

/-- The mean time of an iteration. -/
def perIteration (r : Result) : Int :=
  if r.iterations ≤ 0 then 0 else r.duration.tdiv r.iterations

/-- A duration in seconds. -/
def seconds (nanoseconds : Int) : Float :=
  Float.ofInt (nanoseconds.tdiv 1000000000) + Float.ofInt (nanoseconds.tmod 1000000000) / 1e9

/-- The number of edges per second; zero when unknown. -/
def edgesPerSecond (r : Result) : Float :=
  if r.edges == 0 || r.duration ≤ 0 then 0
  else Float.ofInt r.edges * Float.ofInt r.iterations / seconds r.duration

/-- The memory taken into use, in units of 1024 bytes. -/
def allocated (r : Result) : Int := (r.after.total - r.before.total).toInt64.toInt.tdiv 1024

/-- A result in one line. -/
def text (r : Result) : String :=
  match r.failure with
  | some e => s!"{r.name}: ERROR - {e.message}"
  | none =>
    let average := Duration.text r.perIteration
    let total := Duration.text (Duration.round 1000 r.duration)
    let rate := r.edgesPerSecond
    s!"{r.name}: {r.iterations} iterations, avg: {average}, total: {total}, alloc: {r.allocated} KB" ++
      if 0 < rate then s!", {Decimal.fixed 1 (rate / 1e6)} Medges/s" else ""

end Result

end Perimeter.Bench
