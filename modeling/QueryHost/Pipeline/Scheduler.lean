import QueryHost.Assoc
import QueryHost.Failure
import QueryHost.Log
import QueryHost.Pipeline.Queue

/-!
# The pipeline scheduler

Executors take tasks from a queue and execute each for a slice. A task that yields goes back to the
queue of its executor, and one that blocks is set aside; a poller looks from time to time which of
those are ready, and puts them in the queue again, one after the other. A task that panics counts as
finished. The poller and each executor have a thread of their own.

At any moment a task is in one place: in a sub-queue, in the hands of an executor, set aside, or in
the batch that the poller is putting back.
-/

namespace QueryHost

/-- How the slice of a task ends. -/
inductive Slice where
  | finished | yielded | blocked | panicked
  deriving DecidableEq, Repr

structure Scheduler (τ : Type) where
  queue : TaskQueue τ
  /-- The tasks that executors are executing, by executor. -/
  hands : Assoc Nat τ := {}
  blocked : List τ := []
  /-- What the poller found ready and has not put back yet. -/
  ready : List τ := []
  /-- Whether a start was tried. -/
  started : Bool := false
  /-- Whether the poller is at work. -/
  polling : Bool := false
  /-- How many executors are at work. -/
  staff : Nat := 0
  finished : Nat := 0
  deriving Repr

namespace Scheduler

variable {τ : Type}

def new (executors : Nat) : Scheduler τ := { queue := .new executors }

def executors (s : Scheduler τ) : Nat := s.queue.width

def pollerName : String := "blocked_task_poller"

def executorName (i : Nat) : String := "pip_exec_" ++ toString i

/-- Starts the poller and then the executors, up to the first thread that is refused. Those that
started before go on. -/
def start (s : Scheduler τ) (refuses : ThreadRefusals) : Scheduler τ × Except Failure Log :=
  if s.started then (s, .error (.internal "pipeline task scheduler already started"))
  else match refuses pollerName with
    | some e => ({ s with started := true }, .error (.io "spawn blocked task poller" e))
    | none =>
      let s := { s with started := true, polling := true }
      match (List.range s.executors).findSome? fun i => (refuses (executorName i)).map (i, ·) with
      | some (i, e) => ({ s with staff := i }, .error (.io "spawn pipeline executor" e))
      | none => ({ s with staff := s.executors },
          .ok [.info ("pipeline task scheduler started with " ++ toString s.executors
            ++ " executors")])

def submit (s : Scheduler τ) (task : τ) : Except Failure (Scheduler τ) :=
  if s.queue.closed then .error (.unavailable "pipeline task scheduler is shut down")
  else .ok { s with queue := s.queue.push task }

/-- Sets a task aside until it is ready. -/
def setAside (s : Scheduler τ) (task : τ) : Scheduler τ :=
  { s with blocked := s.blocked ++ [task] }

/-- A free executor takes a task, if there is one. -/
def take (s : Scheduler τ) (executor : Nat) : Scheduler τ :=
  match s.queue.take executor with
  | (queue, .done (some task)) => { s with queue, hands := s.hands.put executor task }
  | _ => s

/-- The slice of an executor's task is over; the task is now `task`. -/
def conclude (s : Scheduler τ) (executor : Nat) (task : τ) (how : Slice) : Scheduler τ :=
  let s := { s with hands := s.hands.erase executor }
  match how with
  | .finished | .panicked => { s with finished := s.finished + 1 }
  | .yielded => { s with queue := s.queue.pushTo executor task }
  | .blocked => s.setAside task

/-- The poller gathers the tasks that are ready. -/
def gather (s : Scheduler τ) (isReady : τ → Bool) : Scheduler τ :=
  { s with
    ready := s.ready ++ s.blocked.filter isReady
    blocked := s.blocked.filter fun t => !isReady t }

/-- The poller puts back the first of the tasks it has gathered. -/
def deliver (s : Scheduler τ) : Scheduler τ :=
  match s.ready with
  | task :: rest => { s with ready := rest, queue := s.queue.push task }
  | [] => s

def shutDown (s : Scheduler τ) : Scheduler τ := { s with queue := s.queue.close }

/-- Shuts the scheduler down and waits until its threads have ended. -/
def stop (s : Scheduler τ) : Scheduler τ := { s.shutDown with polling := false, staff := 0 }

/-! ## Schedulers at rest -/

/-- How tasks behave: what a slice makes of a task, whether it is ready, and its name. -/
structure Behaviour (τ : Type) where
  slice : τ → τ × Slice
  isReady : τ → Bool
  name : τ → String

/-- The next step of anybody, with the task whose slice it is and the lines it logs. -/
def advance (b : Behaviour τ) (s : Scheduler τ) : Option (Scheduler τ × Option τ × Log) :=
  match s.hands.toList with
  | (executor, task) :: _ =>
    let (next, how) := b.slice task
    some (s.conclude executor next how, some task,
      if how = .panicked then [.error ("pipeline task " ++ b.name task ++ " panicked")] else [])
  | [] =>
    if s.queue.closed then none
    else if 0 < s.staff && 0 < s.queue.pending then
      some ((List.range s.staff).foldl (fun s i => s.take i) s, none, [])
    else if !s.polling then none
    else if !s.ready.isEmpty then some (s.deliver, none, [])
    else if s.blocked.any b.isReady then some (s.gather b.isReady, none, [])
    else none

/-- Takes steps while there are any, but no more than `fuel`; gives the slices in their order. -/
def settle (b : Behaviour τ) : (fuel : Nat) → Scheduler τ → Scheduler τ × List τ × Log
  | 0, s => (s, [], [])
  | fuel + 1, s =>
    match s.advance b with
    | none => (s, [], [])
    | some (s, task, log) =>
      let (s, tasks, log') := settle b fuel s
      (s, task.toList ++ tasks, log ++ log')

end Scheduler

end QueryHost
