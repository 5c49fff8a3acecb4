import QueryHost.Wire.Rehearsal

/-!
# Series of requests

A request may be a series of steps on one state. Each step names what it does, and its answer is
wrapped with what the state then shows.
-/

namespace QueryHost.Wire.Handler

variable {σ η τ ε α : Type}

/-- The answer of a step, from what it has answered itself and from what it has logged. -/
abbrev Wrap (σ η : Type) := Bench σ η → Value → Log → Value

def bare : Wrap σ η := fun _ r _ => r

/-- The answer as `r`, among others. -/
def showing [Row α] (names : String) (f : Bench σ η → α) : Wrap σ η :=
  fun b r _ => .record (("r", r) :: fields names (f b))

def sized (f : σ → Nat) : Wrap σ η :=
  showing "len empty" fun b => (f b.state, f b.state == 0)

def logged (w : Wrap σ η) : Wrap σ η := fun b r log => record "r log" (w b r log, log)

/-- Lines that several threads may log have no order. -/
def logSorted (w : Wrap σ η) : Wrap σ η := fun b r log =>
  record "r log" (w b r log, ((log.shown .info).map (·.text)).mergeSort fun a b => a ≤ b)

/-- What is held, each with what `f` tells of it. -/
def each {β : Type} [Encode β] (b : Bench σ η) (f : η → β) : Value :=
  .record (b.held.toList.map fun h => (h.1, encode (f h.2)))

/-- Runs the steps of a request one after the other on a state; the answer tells in the end what
`top` does. When a step panics, the request does. -/
def run (start : σ) (step : String → Handler σ η Value) (wrap : Wrap σ η)
    (top : Bench σ η → Fields) : Handler Unit Unit Value := do
  let (b, answers) := handleAll (do step (← arg "do")) wrap { state := start } (← arg "steps")
  if answers.contains panicked then throw panicked
  return .record (("steps", .list answers) :: top b)

def steps (start : σ) (step : String → Handler σ η Value) (wrap : Wrap σ η) :
    Handler Unit Unit Value :=
  run start step wrap fun _ => []

def before (f : σ → σ) (step : String → Handler σ η Value) (name : String) : Handler σ η Value := do
  alter f
  step name

def after (f : Handler σ η Unit) (step : String → Handler σ η Value) (name : String) :
    Handler σ η Value := do
  let answer ← settled (step name)
  f
  return answer

/-- The steps of a rehearsal, where a gate can always be opened. -/
def playing (settle : Gates → τ → τ × List ε × Log) (step : String → Stage τ ε η Value)
    (name : String) : Stage τ ε η Value :=
  rehearse settle (if name == "open" then act (·.openGate) "gate" else step name)

end QueryHost.Wire.Handler
