import Perimeter.Batch.Basic
import Perimeter.Misuse

/-!
# Showing progress

Two ways to follow the events of a batch: a bar that is redrawn on a console, and log records every
few files.
-/

namespace Perimeter.Batch

/-- A bar on a console. -/
structure Bar where
  label : String
  /-- The least time between two drawings of the bar, in nanoseconds. -/
  interval : Int := 100000000
  /-- When the bar was drawn last. -/
  drawnAt : Option Int := none
  startedAt : Int := 0

namespace Bar

/-- The number of cells of a bar. -/
def cells : Int := 40

/-- A character repeated. -/
def repeated (c : Char) (n : Int) : Except Misuse String :=
  if n < 0 then .error (.negativeRepeat n) else .ok (String.ofList (List.replicate n.toNat c))

/-- The bar for a number of finished files. -/
def drawing (label : String) (current total : Int) : Except Misuse String := do
  let filled := wrap64 ((wrap64 (cells * current)).tdiv total)
  let done ← repeated '█' filled
  let rest ← repeated '░' (wrap64 (cells - filled))
  let percent := Decimal.fixed 1 (Float.ofInt current / Float.ofInt total * 100.0)
  pure s!"\r{label}[{done}{rest}] {current}/{total} ({percent}%)"

/-- The bar was drawn so recently that it can wait. -/
def canWait (b : Bar) (now : Int) : Bool :=
  match b.drawnAt with
  | none => false
  | some last => decide (now - last < b.interval)

/-- Shows an event at a point in time: what is written, and the bar afterwards. -/
def follow (b : Bar) (now : Int) : Event → Except Misuse (String × Bar)
  | .started total =>
    .ok (s!"{b.label}0/{total} (0.0%)\n", { b with startedAt := now, drawnAt := none })
  | .progressed current total =>
    if b.canWait now && current < total then .ok ("", b)
    else if total ≤ 0 then .ok ("", { b with drawnAt := some now })
    else do
      pure (← drawing b.label current total, { b with drawnAt := some now })
  | .failed index message => .ok (s!"\n{b.label}Error at item {index}: {message}\n", b)
  | .completed =>
    let elapsed := Duration.text (Duration.round 1000000 (now - b.startedAt))
    .ok (s!"\n{b.label}Completed in {elapsed}\n", b)

/-- Everything that is written for events that happen at one point in time. -/
def followAll (b : Bar) (now : Int) : List Event → Except Misuse String
  | [] => .ok ""
  | e :: rest => do
    let (text, b) ← b.follow now e
    pure (text ++ (← followAll b now rest))

end Bar

/-- Log records about a batch. -/
structure Journal where
  level : Log.Level
  /-- The number of finished files at the last record. -/
  noted : Int := 0
  startedAt : Int := 0

namespace Journal

/-- The least number of files between two records. -/
def step : Int := 10

/-- The time since the start. -/
def elapsed (j : Journal) (now : Int) : String × Data :=
  ("elapsed", .duration (Duration.round 1000000 (now - j.startedAt)))

/-- Records an event at a point in time. -/
def follow (j : Journal) (now : Int) : Event → List Log.Entry × Journal
  | .started total =>
    ([⟨j.level, "batch started", [("total", .int total)]⟩], { j with noted := 0, startedAt := now })
  | .progressed current total =>
    if wrap64 (current - j.noted) < step && current != total then ([], j)
    else
      ([⟨j.level, "batch progress", [("current", .int current), ("total", .int total), j.elapsed now]⟩],
        { j with noted := current })
  | .failed index message =>
    ([⟨.error, "batch item failed", [("index", .int index), ("error", .text message)]⟩], j)
  | .completed => ([⟨j.level, "batch completed", [j.elapsed now]⟩], j)

end Journal

end Perimeter.Batch
