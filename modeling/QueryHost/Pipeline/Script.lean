import QueryHost.Pipeline.Scheduler
import QueryHost.Threads.Gates

/-!
# Scripts

Tasks for the pipeline whose slices are written down beforehand. After the last one they finish, and
one with a gate is ready once that is open.
-/

namespace QueryHost

structure Script where
  name : String
  slices : List Slice := []
  gate : Option String := none
  deriving DecidableEq, Repr

/-- The slice that a letter stands for. -/
def Slice.ofLetter : Char → Slice
  | 'Y' => .yielded
  | 'B' => .blocked
  | 'P' => .panicked
  | _ => .finished

namespace Script

/-- A script whose slices are written with a letter each. -/
def ofLetters (name letters : String) (gate : Option String) : Script :=
  { name, slices := letters.toList.map Slice.ofLetter, gate }

def slice (t : Script) : Script × Slice :=
  match t.slices with
  | [] => (t, .finished)
  | s :: rest => ({ t with slices := rest }, s)

def isReady (g : Gates) (t : Script) : Bool := t.gate.all g.isOpen

def behaviour (g : Gates) : Scheduler.Behaviour Script := ⟨slice, isReady g, name⟩

end Script

end QueryHost
