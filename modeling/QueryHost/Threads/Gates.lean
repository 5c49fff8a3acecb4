import QueryHost.Load.Streams
import QueryHost.Threads.Rest

/-!
# Gates

Tasks that are known by name, for schedules that are played through step by step. An ordinary task
ends as soon as it is executed; a gated one runs until the gate of its name is open, and an open
gate stays open.
-/

namespace QueryHost

/-- How a task behaves once it is executed. -/
inductive Conduct where
  | ordinary | gated | panicking
  deriving DecidableEq, Repr

structure NamedTask where
  name : String
  conduct : Conduct := .ordinary
  /-- What the task fails with, if it is to fail. -/
  failure : Option Failure := none
  deriving DecidableEq, Repr

structure Gates where
  opened : List String := []
  /-- Whether all gates are open. -/
  wide : Bool := false
  deriving DecidableEq, Repr

namespace Gates

def openGate (g : Gates) (name : String) : Gates := { g with opened := g.opened ++ [name] }

def isOpen (g : Gates) (name : String) : Bool := g.wide || g.opened.contains name

/-- How an executed task ends; none while it has to wait for its gate. -/
def ending (g : Gates) (t : NamedTask) : Option Ending :=
  match t.conduct with
  | .ordinary => some .returned
  | .panicking => some .panicked
  | .gated => if g.isOpen t.name then some .returned else none

/-- The same of the plan of a load. -/
def planEnd (g : Gates) (t : NamedTask) : Option PlanEnd :=
  (g.ending t).map fun
    | .panicked => .panicked
    | .returned => match t.failure with
      | some f => .failed f
      | none => .succeeded

end Gates

end QueryHost
