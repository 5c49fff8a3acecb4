import QueryHost.Threads.Tokens

/-!
# Pools at rest

Workers go on by themselves until each waits for work or executes a task that is held up. `settle`
takes a pool there, for tasks that are told apart by what becomes of them: held up for now, or
ending in one of the two ways. Tasks start in the order of the queue whatever the order of the
workers' steps, so what rests in the end does not depend on it either.
-/

namespace QueryHost

/-- A task that has ended, with the serial token that it came by. -/
structure Ended (α : Type) where
  task : α
  token : Option TokenId
  deriving DecidableEq, Repr

namespace Crew

variable {α : Type}

/-- The next step of a worker, with the task that ends by it; none if it has to wait. -/
def advance (fate : α → Option Ending) (c : Crew α) (w : WorkerId) :
    Worker (Job α) → Option (Crew α × List (Ended α) × Log)
  | .looking => some ({ c with pool := c.pool.look w }, [], [])
  | .waiting =>
    if c.pool.closed || !c.pool.queue.isEmpty then
      some ({ c with pool := c.pool.wake w false }, [], [])
    else none
  | .executing (.direct task) =>
    (fate task).map fun e =>
      (c.finish w, [⟨task, none⟩], if e = .panicked then c.pool.panicLog else [])
  | .executing (.drain t none) => some (c.proceed w t, [], [])
  | .executing (.drain t (some task)) =>
    (fate task).map fun e =>
      (c.set w (.drain t none), [⟨task, some t⟩],
        if e = .panicked then [.error "serial token task panicked"] else [])

/-- The step of the first worker that can take one. -/
def stir (fate : α → Option Ending) (c : Crew α) : Option (Crew α × List (Ended α) × Log) :=
  c.pool.workers.toList.findSome? fun w => c.advance fate w.1 w.2

/-- Takes steps while there are any, but no more than `fuel`; gives the tasks that ended, in order.
-/
def run (fate : α → Option Ending) : (fuel : Nat) → Crew α → Crew α × List (Ended α) × Log
  | 0, c => (c, [], [])
  | fuel + 1, c =>
    match c.stir fate with
    | none => (c, [], [])
    | some (c, ended, log) =>
      let (c, ended', log') := run fate fuel c
      (c, ended ++ ended', log ++ log')

/-- The tasks and drains that wait for a worker, and the tasks that wait for a drain. -/
def backlog (c : Crew α) : Nat :=
  c.pool.queue.length + c.tokens.foldr (fun t n => t.pending.length + n) 0

/-- Every task takes its worker at most four steps, and every worker takes at most four more. -/
def settle (fate : α → Option Ending) (c : Crew α) : Crew α × List (Ended α) × Log :=
  c.run fate (4 * (c.backlog + c.pool.workers.size + 1))

/-- The tasks that are being executed. -/
def executing (c : Crew α) : List α :=
  c.pool.workers.values.filterMap fun
    | .executing (.direct task) => some task
    | .executing (.drain _ current) => current
    | _ => none

/-- The waiting workers find that their time is over, one after the other. -/
def retireIdle (c : Crew α) : Crew α :=
  c.pool.workers.toList.foldl (fun c w =>
    match w.2 with
    | .waiting => { c with pool := c.pool.wake w.1 true }
    | _ => c) c

end Crew

end QueryHost
