import QueryHost.Failure
import QueryHost.Word

/-!
# Task queues

A queue of pipeline tasks has one sub-queue for each executor. An executor takes the oldest task of
its own; if it has none, it takes the newest one of the next sub-queue that is not empty. A closed
queue gives nothing, whatever it holds.
-/

namespace QueryHost

structure TaskQueue (τ : Type) where
  queues : List (List τ)
  /-- How many tasks there are in all. -/
  pending : Nat := 0
  /-- How many tasks were given to the sub-queues by turns. -/
  turn : Nat := 0
  closed : Bool := false
  deriving DecidableEq, Repr

namespace TaskQueue

variable {τ : Type}

def new (queues : Nat) : TaskQueue τ := { queues := List.replicate (max queues 1) [] }

def width (q : TaskQueue τ) : Nat := q.queues.length

def pushTo (q : TaskQueue τ) (idx : Nat) (task : τ) : TaskQueue τ :=
  { q with
    queues := q.queues.modify (idx % q.width) (· ++ [task])
    pending := q.pending + 1 }

/-- Gives a task to the sub-queue whose turn it is. -/
def push (q : TaskQueue τ) (task : τ) : TaskQueue τ :=
  { q.pushTo q.turn task with turn := (q.turn + 1) % word64Count }

def sub (q : TaskQueue τ) (idx : Nat) : List τ := q.queues.getD (idx % q.width) []

def setSub (q : TaskQueue τ) (idx : Nat) (tasks : List τ) : TaskQueue τ :=
  { q with queues := q.queues.set (idx % q.width) tasks, pending := q.pending - 1 }

/-- The newest task of the first sub-queue, of `count` from `idx` on, that is not empty. -/
def steal (q : TaskQueue τ) (idx : Nat) : (count : Nat) → Option (τ × TaskQueue τ)
  | 0 => none
  | count + 1 =>
    match (q.sub idx).getLast? with
    | some task => some (task, q.setSub idx (q.sub idx).dropLast)
    | none => q.steal (idx + 1) count

def tryTake (q : TaskQueue τ) (idx : Nat) : Option (τ × TaskQueue τ) :=
  match q.sub idx with
  | task :: rest => some (task, q.setSub idx rest)
  | [] => q.steal (idx + 1) (q.width - 1)

/-- A task for an executor; none once the queue is closed. -/
def take (q : TaskQueue τ) (idx : Nat) : TaskQueue τ × Attempt (Option τ) :=
  if q.closed then (q, .done none)
  else match q.tryTake idx with
    | some (task, q) => (q, .done (some task))
    | none => (q, .mustWait)

def close (q : TaskQueue τ) : TaskQueue τ := { q with closed := true }

end TaskQueue

end QueryHost
