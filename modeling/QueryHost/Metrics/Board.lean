import QueryHost.Metrics

/-!
# Boards

Metrics whose gauges read numbers that are set by hand. A gauge keeps its number, and can be set,
when it is deregistered; one that is registered anew begins with a number of its own.
-/

namespace QueryHost

structure Board where
  metrics : Metrics Nat := {}
  numbers : List Int := []
  /-- Where the number of each gauge is. -/
  gauges : Assoc String Nat := {}

namespace Board

def addGauge (b : Board) (name help : String) (start : Int) : Except Failure Board := do
  let place := b.numbers.length
  let metrics ← b.metrics.registerGauge name help place
  return { metrics, numbers := b.numbers ++ [start], gauges := b.gauges.put name place }

/-- Sets a gauge; says whether there is one of that name. -/
def set (b : Board) (name : String) (x : Int) : Board × Bool :=
  match b.gauges.get? name with
  | none => (b, false)
  | some place => ({ b with numbers := b.numbers.set place x }, true)

def addCounter (b : Board) (name help : String) : Except Failure (Board × CounterId) := do
  let (metrics, id) ← b.metrics.registerCounter name help
  return ({ b with metrics }, id)

/-- Counts on; gives the new count. -/
def increase (b : Board) (id : CounterId) (n : Nat) : Board × Nat :=
  let metrics := b.metrics.increase id n
  ({ b with metrics }, metrics.counterValue id)

def deregister (b : Board) (name : String) : Board × Bool :=
  let (metrics, known) := b.metrics.deregister name
  ({ b with metrics }, known)

def deregisterAll (b : Board) : Board := { b with metrics := b.metrics.deregisterAll }

def gather (b : Board) : String := b.metrics.gather fun place => b.numbers.getD place 0

end Board

end QueryHost
