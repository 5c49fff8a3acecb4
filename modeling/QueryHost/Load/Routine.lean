import QueryHost.Load.Streams

/-!
# Routine loads

The tasks of routine loads run in the background, each under an id. A task that is queued or running
takes a place, of which there are twice as many as threads, until it has ended; a second task of
its id is taken to be the same one.

A submission takes two steps, each under a lock of its own: the task gets its place (`place`), and
is queued (`enqueue`).
-/

namespace QueryHost

structure RoutineLoads (ρ : Type) where
  capacity : Nat
  executor : FixedPool (UniqueId × ρ)
  /-- The ids of the tasks that take a place, each once. -/
  running : List UniqueId := []
  deriving Repr

namespace RoutineLoads

variable {ρ : Type}

def withThreads (threads : Nat) : RoutineLoads ρ :=
  { capacity := max threads 1 * 2, executor := { threads := max threads 1 } }

/-- Takes a place for a task, unless a task of its id has one; says whether it did. -/
def place (r : RoutineLoads ρ) (id : UniqueId) : Except Failure (RoutineLoads ρ × Bool) :=
  if id ∈ r.running then .ok (r, false)
  else if r.capacity ≤ r.running.length then
    .error (.unavailable ("routine load executor is full (" ++ toString r.capacity ++ " tasks)"))
  else .ok ({ r with running := r.running ++ [id] }, true)

def enqueue (r : RoutineLoads ρ) (id : UniqueId) (task : ρ) : RoutineLoads ρ :=
  { r with executor := r.executor.enqueue (id, task) }

/-- Takes a place for a task and queues it, with nobody stepping in. -/
def submit (r : RoutineLoads ρ) (id : UniqueId) (task : ρ) :
    Except Failure (RoutineLoads ρ × Log) := do
  let (r, placed) ← r.place id
  return if placed then (r.enqueue id task, [])
    else (r, [⟨.debug, "routine load task " ++ id.text ++ " is already running"⟩])

/-- What the end of a task does to its place. A task that panics keeps it. -/
def conclude (r : RoutineLoads ρ) (id : UniqueId) : PlanEnd → RoutineLoads ρ × Log
  | .panicked => (r, [])
  | .succeeded => ({ r with running := r.running.erase id }, [])
  | .failed f =>
    ({ r with running := r.running.erase id },
      [.warn ("routine load task " ++ id.text ++ " failed: " ++ f.message)])

/-- Lets tasks go on until each is held up; gives those that ended, in order. -/
def settle (fate : ρ → Option PlanEnd) (r : RoutineLoads ρ) : RoutineLoads ρ × List ρ × Log :=
  let (executor, ended) := r.executor.settle fun job => (fate job.2).isSome
  let (r, log) := ended.foldl (fun (r, log) job =>
    match fate job.2 with
    | none => (r, log)
    | some e =>
      let (r, lines) := r.conclude job.1 e
      (r, log ++ lines)) ({ r with executor }, [])
  (r, ended.map (·.2), log)

/-- Waits until every task has ended, each as `fate` tells. -/
def join (fate : ρ → PlanEnd) (r : RoutineLoads ρ) : RoutineLoads ρ × Log :=
  (r.executor.active ++ r.executor.queue).foldl (fun (r, log) job =>
    let (r, lines) := r.conclude job.1 (fate job.2)
    (r, log ++ lines)) ({ r with executor := { threads := r.executor.threads } }, [])

end RoutineLoads

end QueryHost
