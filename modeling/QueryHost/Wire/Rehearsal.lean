import QueryHost.Threads.Rehearsal
import QueryHost.Wire.Handler

/-!
# Handling rehearsals

Handlers that act on what is rehearsed. After each of them everything goes on until it rests.
-/

namespace QueryHost.Wire.Handler

variable {τ ε η α : Type}

/-- A handler in a rehearsal. -/
abbrev Stage (τ ε η α : Type) := Handler (Rehearsal τ ε) η α

def onSubject (f : τ → τ) : Stage τ ε η Value := act (·.map f) ""

/-- Changes the subject and opens all gates. -/
def closing (f : τ → τ) : Stage τ ε η Value := act (·.conclude f) ""

def attempt (f : τ → Except Failure τ) : Stage τ ε η Value := act (·.attempt f) ""

def attemptReporting (f : τ → Except Failure (τ × Log)) : Stage τ ε η Value :=
  act (fun r => (f r.subject).map r.carry) ""

/-- Changes the subject, and gives what there is beside it. -/
def carry (f : τ → τ × α) : Stage τ ε η α := onBench fun b =>
  let (r, a) := b.state.carry (f b.state.subject)
  (b.alter fun _ => r, a)

/-- Lets everything go on, as `run` tells, once the request is handled. -/
def rehearse (run : Gates → τ → τ × List ε × Log) (h : Stage τ ε η Value) : Stage τ ε η Value := do
  let answer ← settled h
  let _ ← act (·.settle run) ""
  return answer

end QueryHost.Wire.Handler
