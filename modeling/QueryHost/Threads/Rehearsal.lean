import QueryHost.Threads.Gates

/-!
# Rehearsals

Something that executes named tasks, played through step by step: between the steps everything goes
on until all that is executed waits for a gate.
-/

namespace QueryHost

structure Rehearsal (τ ε : Type) where
  subject : τ
  gates : Gates := {}
  /-- What has ended, in its order. -/
  ended : List ε := []
  deriving Repr

namespace Rehearsal

variable {τ ε α : Type}

def map (r : Rehearsal τ ε) (f : τ → τ) : Rehearsal τ ε := { r with subject := f r.subject }

/-- What a change of the subject gives, beside the rehearsal that goes on with it. -/
def carry (r : Rehearsal τ ε) (p : τ × α) : Rehearsal τ ε × α := ({ r with subject := p.1 }, p.2)

def attempt (r : Rehearsal τ ε) (f : τ → Except Failure τ) : Except Failure (Rehearsal τ ε) :=
  (f r.subject).map fun subject => { r with subject }

def openGate (r : Rehearsal τ ε) (name : String) : Rehearsal τ ε :=
  { r with gates := r.gates.openGate name }

/-- Changes the subject, and opens all gates. -/
def conclude (r : Rehearsal τ ε) (f : τ → τ) : Rehearsal τ ε :=
  { r.map f with gates := { r.gates with wide := true } }

/-- Lets the subject go on as `run` tells. -/
def settle (r : Rehearsal τ ε) (run : Gates → τ → τ × List ε × Log) : Rehearsal τ ε × Log :=
  let (subject, ended, log) := run r.gates r.subject
  ({ r with subject, ended := r.ended ++ ended }, log)

end Rehearsal

end QueryHost
