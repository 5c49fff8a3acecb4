import QueryHost.Assoc
import QueryHost.Failure
import QueryHost.Log

/-!
# Thread pools

A pool has a bounded queue of tasks and workers that take them in order. It keeps at least
`minThreads` workers, hires more as tasks come in, up to `maxThreads`, and lets a worker go that has
waited in vain for too long. A pool that is shut down drops its queue, accepts nothing more, and
each worker leaves when it has ended its task.

Everything that happens under the pool's lock is one step: a task is queued (`push`), a worker looks
at the queue (at its start and whenever it has ended a task), a worker wakes up, the pool shuts
down. The pool counts its workers and those that wait beside keeping what each is about, because its
decisions depend on the counts. `PoolStep` is one step of any party if the system starts every
thread.

A worker is counted before its thread is started. If the system refuses the thread, the worker is
gone again by a step of its own (`unhire`).
-/

namespace QueryHost

structure PoolShape where
  name : String
  minThreads : Nat
  maxThreads : Nat
  maxQueue : Nat
  deriving DecidableEq, Repr

/-- What a worker is about. -/
inductive Worker (τ : Type) where
  /-- It will look at the queue next. -/
  | looking
  | waiting
  | executing (task : τ)
  deriving DecidableEq, Repr

abbrev WorkerId := Nat

structure ThreadPool (τ : Type) where
  shape : PoolShape
  queue : List τ := []
  /-- How many workers there are. -/
  threads : Nat := 0
  /-- How many workers wait, or have been woken and not yet looked. -/
  idle : Nat := 0
  closed : Bool := false
  workers : Assoc WorkerId (Worker τ) := {}
  nextWorker : WorkerId := 0
  deriving Repr

namespace PoolShape

def check (s : PoolShape) : Except Failure Unit :=
  if s.maxThreads = 0 then
    .error (.invalidConfig "max_threads" ("thread pool " ++ s.name ++ " needs at least one thread"))
  else if s.maxThreads < s.minThreads then
    .error (.invalidConfig "min_threads" ("thread pool " ++ s.name ++ ": min_threads "
      ++ toString s.minThreads ++ " > max_threads " ++ toString s.maxThreads))
  else .ok ()

end PoolShape

namespace ThreadPool

variable {τ : Type}

/-- One worker more, which will look at the queue. -/
def hire (p : ThreadPool τ) : ThreadPool τ :=
  { p with
    threads := p.threads + 1
    workers := p.workers.put p.nextWorker .looking
    nextWorker := p.nextWorker + 1 }

/-- The name of a worker's thread. -/
def threadName (p : ThreadPool τ) (w : WorkerId) : String := p.shape.name ++ "-" ++ toString w

def refusedFailure (p : ThreadPool τ) (e : IoFault) : Failure :=
  .io ("spawn worker for thread pool " ++ p.shape.name) e

/-- Hires workers one after the other, up to the first whose thread is refused. -/
def staff (refuses : ThreadRefusals) : Nat → ThreadPool τ → Except Failure (ThreadPool τ)
  | 0, p => .ok p
  | n + 1, p =>
    match refuses (p.threadName p.nextWorker) with
    | none => staff refuses n p.hire
    | some e => .error (p.refusedFailure e)

/-- A pool with its first workers. If one of them is refused, the others are sent away. -/
def build (refuses : ThreadRefusals) (shape : PoolShape) : Except Failure (ThreadPool τ) := do
  shape.check
  staff refuses shape.minThreads { shape := shape }

/-- What is said of a pool that was built. -/
def buildLog (shape : PoolShape) : Log :=
  [⟨.debug, "thread pool built pool=" ++ shape.name ++ " min_threads=" ++ toString shape.minThreads
    ++ " max_threads=" ++ toString shape.maxThreads
    ++ " max_queue_size=" ++ toString shape.maxQueue⟩]

def closedFailure (p : ThreadPool τ) : Failure :=
  .unavailable ("thread pool " ++ p.shape.name ++ " is shut down")

/-- Queues a task, and hires a worker if more tasks are queued than workers wait. -/
def push (p : ThreadPool τ) (task : τ) : Except Failure (ThreadPool τ) :=
  if p.closed then .error p.closedFailure
  else if p.shape.maxQueue ≤ p.queue.length then
    .error (.unavailable ("thread pool " ++ p.shape.name ++ " queue is full ("
      ++ toString p.shape.maxQueue ++ ")"))
  else
    let p := { p with queue := p.queue ++ [task] }
    .ok (if p.idle < p.queue.length ∧ p.threads < p.shape.maxThreads then p.hire else p)

def set (p : ThreadPool τ) (w : WorkerId) (stage : Worker τ) : ThreadPool τ :=
  { p with workers := p.workers.put w stage }

def leave (p : ThreadPool τ) (w : WorkerId) : ThreadPool τ :=
  { p with threads := p.threads - 1, workers := p.workers.erase w }

/-- A hired worker whose thread was refused is gone. Without it there may be no worker left, and
then the last task of the queue is taken back. -/
def unhire (p : ThreadPool τ) (w : WorkerId) : ThreadPool τ :=
  let p := p.leave w
  if p.threads = 0 then { p with queue := p.queue.dropLast } else p

/-- Queues a task, with nobody stepping in. If a worker is hired for it and its thread is refused,
the submission fails only if there is no other worker. Two things are left out: that a pool with
other workers logs a warning, and that one without passes over the number of the worker, which shows
in the names of its threads only. -/
def submit (p : ThreadPool τ) (refusal : Option IoFault) (task : τ) :
    Except Failure (ThreadPool τ) := do
  let q ← p.push task
  match refusal with
  | none => return q
  | some e =>
    if q.nextWorker = p.nextWorker then return q
    else
      let q := q.unhire p.nextWorker
      if q.threads = 0 then throw (p.refusedFailure e) else return q

/-- A worker takes the first task, or begins to wait, or leaves a pool that is shut down. -/
def look (p : ThreadPool τ) (w : WorkerId) : ThreadPool τ :=
  if p.closed then p.leave w
  else match p.queue with
    | task :: rest => { p.set w (.executing task) with queue := rest }
    | [] => { p.set w .waiting with idle := p.idle + 1 }

/-- A waiting worker wakes up: it was called, or the time it waits was over. -/
def wake (p : ThreadPool τ) (w : WorkerId) (timedOut : Bool) : ThreadPool τ :=
  let p := { p with idle := p.idle - 1 }
  if timedOut && p.queue.isEmpty && p.shape.minThreads < p.threads then p.leave w else p.look w

/-- A worker has ended its task. -/
def finish (p : ThreadPool τ) (w : WorkerId) : ThreadPool τ :=
  p.set w .looking

def shutDown (p : ThreadPool τ) : ThreadPool τ :=
  { p with closed := true, queue := if p.closed then p.queue else [] }

/-- Shuts the pool down and waits until every worker has left. -/
def stop (p : ThreadPool τ) : ThreadPool τ :=
  { p.shutDown with threads := 0, idle := 0, workers := {} }

/-- What the log says of a task that panicked. -/
def panicLog (p : ThreadPool τ) : Log :=
  [.error ("task panicked in thread pool pool=" ++ p.shape.name)]

end ThreadPool

/-- One step of a pool, whoever takes it. Every hired worker starts. -/
inductive PoolStep {τ : Type} : ThreadPool τ → ThreadPool τ → Prop
  | submit {p q : ThreadPool τ} (task : τ) : p.push task = .ok q → PoolStep p q
  | look {p : ThreadPool τ} (w : WorkerId) :
      p.workers.get? w = some .looking → PoolStep p (p.look w)
  | wake {p : ThreadPool τ} (w : WorkerId) (timedOut : Bool) :
      p.workers.get? w = some .waiting → PoolStep p (p.wake w timedOut)
  | finish {p : ThreadPool τ} (w : WorkerId) (task : τ) :
      p.workers.get? w = some (.executing task) → PoolStep p (p.finish w)
  | shutDown {p : ThreadPool τ} : PoolStep p p.shutDown

end QueryHost
