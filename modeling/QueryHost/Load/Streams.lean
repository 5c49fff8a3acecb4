import QueryHost.Assoc
import QueryHost.Load.Pipe
import QueryHost.Log
import QueryHost.Threads.Fixed
import QueryHost.UniqueId

/-!
# Stream loads

A stream load has a pipe for its body and a status. Loads are found by id in a registry; an older
registry holds bare pipes, and gives each away once. The plan of a load is executed in the
background: it makes the load running, and in the end committed or aborted.

To execute a plan takes three steps, each under a lock of its own: the load is seen to be pending
(`check`), it is made running (`begin`), and its plan is queued (`enqueue`).
-/

namespace QueryHost

inductive LoadStatus where
  | pending | running | committed | aborted
  deriving DecidableEq, Repr

def LoadStatus.text : LoadStatus → String
  | .pending => "Pending"
  | .running => "Running"
  | .committed => "Committed"
  | .aborted => "Aborted"

abbrev PipeId := Nat

structure StreamLoad where
  id : UniqueId
  database : String
  table : String
  label : String
  sink : PipeId
  status : LoadStatus := .pending
  deriving DecidableEq, Repr

abbrev LoadId := Nat

/-- How a plan ends. -/
inductive PlanEnd where
  | succeeded
  | failed (failure : Failure)
  | panicked
  deriving DecidableEq, Repr

/-- All pipes and loads, what is registered, and the plans of type `ρ` that are queued or running.
-/
structure StreamLoads (ρ : Type) where
  pipes : List Pipe := []
  loads : List StreamLoad := []
  registeredPipes : Assoc UniqueId PipeId := {}
  registered : Assoc UniqueId LoadId := {}
  executor : FixedPool (LoadId × ρ)
  deriving Repr

namespace StreamLoads

variable {ρ : Type}

/-- No loads yet, and an executor with a number of threads. -/
def withThreads (threads : Nat) : StreamLoads ρ :=
  { executor := { threads := max threads 1 } }

def newPipe (s : StreamLoads ρ) (capacity : Nat) : StreamLoads ρ × PipeId :=
  ({ s with pipes := s.pipes ++ [Pipe.new capacity] }, s.pipes.length)

def load? (s : StreamLoads ρ) (l : LoadId) : Option StreamLoad := s.loads[l]?

def onPipe {α : Type} (s : StreamLoads ρ) (p : PipeId)
    (f : Pipe → Pipe × Attempt α) : StreamLoads ρ × Attempt α :=
  match s.pipes[p]? with
  | none => (s, .mustWait)
  | some pipe =>
    let (pipe, r) := f pipe
    ({ s with pipes := s.pipes.set p pipe }, r)

def append (s : StreamLoads ρ) (p : PipeId) (chunk : Bytes) :
    StreamLoads ρ × Attempt (Except Failure Unit) :=
  s.onPipe p (·.append chunk)

def read (s : StreamLoads ρ) (p : PipeId) :
    StreamLoads ρ × Attempt (Except Failure (Option Bytes)) :=
  s.onPipe p (·.read)

def finishPipe (s : StreamLoads ρ) (p : PipeId) : StreamLoads ρ :=
  { s with pipes := s.pipes.modify p .finish }

def cancelPipe (s : StreamLoads ρ) (p : PipeId) (reason : String) : StreamLoads ρ :=
  { s with pipes := s.pipes.modify p (·.cancel reason) }

/-- What pipes of a registry that closes are cancelled with. -/
def closing : String := "backend shutting down"

/-! ## The registry of pipes -/

def putPipe (s : StreamLoads ρ) (id : UniqueId) (p : PipeId) : Except Failure (StreamLoads ρ) :=
  if s.registeredPipes.contains id then
    .error (.internal ("stream load pipe " ++ id.text ++ " already exists"))
  else .ok { s with registeredPipes := s.registeredPipes.put id p }

/-- Takes a pipe out of the registry. -/
def takePipe (s : StreamLoads ρ) (id : UniqueId) : StreamLoads ρ × Option PipeId :=
  ({ s with registeredPipes := s.registeredPipes.erase id }, s.registeredPipes.get? id)

def closePipes (s : StreamLoads ρ) : StreamLoads ρ :=
  s.registeredPipes.values.foldl (fun s p => s.cancelPipe p closing)
    { s with registeredPipes := {} }

/-! ## The registry of loads -/

def newLoad (s : StreamLoads ρ) (id : UniqueId) (database table label : String) (capacity : Nat) :
    StreamLoads ρ × LoadId :=
  let (s, sink) := s.newPipe capacity
  ({ s with loads := s.loads ++ [{ id := id, database, table, label, sink }] }, s.loads.length)

def setStatus (s : StreamLoads ρ) (l : LoadId) (status : LoadStatus) : StreamLoads ρ :=
  { s with loads := s.loads.modify l fun x => { x with status } }

def put (s : StreamLoads ρ) (l : LoadId) : Except Failure (StreamLoads ρ) :=
  match s.load? l with
  | none => .ok s
  | some x =>
    if s.registered.contains x.id then
      .error (.internal ("stream load context " ++ x.id.text ++ " already exists"))
    else .ok { s with registered := s.registered.put x.id l }

def get? (s : StreamLoads ρ) (id : UniqueId) : Option LoadId := s.registered.get? id

def remove (s : StreamLoads ρ) (id : UniqueId) : StreamLoads ρ × Option LoadId :=
  ({ s with registered := s.registered.erase id }, s.registered.get? id)

def size (s : StreamLoads ρ) : Nat := s.registered.size

def cancelSink (s : StreamLoads ρ) (l : LoadId) (reason : String) : StreamLoads ρ :=
  match s.load? l with
  | some x => s.cancelPipe x.sink reason
  | none => s

/-- Aborts every registered load, whatever its status, and forgets it. -/
def close (s : StreamLoads ρ) : StreamLoads ρ :=
  s.registered.values.foldl (fun s l => (s.cancelSink l closing).setStatus l .aborted)
    { s with registered := {} }

/-! ## Plans -/

def check (s : StreamLoads ρ) (l : LoadId) : Except Failure Unit :=
  match s.load? l with
  | none => .ok ()
  | some x =>
    if x.status = .pending then .ok ()
    else .error (.internal ("stream load " ++ x.label ++ " is not pending: " ++ x.status.text))

def begin (s : StreamLoads ρ) (l : LoadId) : StreamLoads ρ := s.setStatus l .running

def enqueue (s : StreamLoads ρ) (l : LoadId) (plan : ρ) : StreamLoads ρ :=
  { s with executor := s.executor.enqueue (l, plan) }

/-- Has a plan executed, with nobody stepping in. -/
def execute (s : StreamLoads ρ) (l : LoadId) (plan : ρ) : Except Failure (StreamLoads ρ) := do
  s.check l
  return (s.begin l).enqueue l plan

/-- What the end of its plan makes of a load. A plan that panics leaves it as it is. -/
def conclude (s : StreamLoads ρ) (l : LoadId) : PlanEnd → StreamLoads ρ × Log
  | .panicked => (s, [])
  | .succeeded =>
    (s.setStatus l .committed, (s.load? l).toList.map fun x =>
      .info ("stream load " ++ x.label ++ " committed"))
  | .failed f =>
    ((s.cancelSink l f.message).setStatus l .aborted, (s.load? l).toList.map fun x =>
      .warn ("stream load " ++ x.label ++ " aborted: " ++ f.message))

/-- Lets plans go on until each is held up; `fate` tells how a plan ends that is not. -/
def settle (fate : ρ → Option PlanEnd) (s : StreamLoads ρ) : StreamLoads ρ × Log :=
  let (executor, ended) := s.executor.settle fun job => (fate job.2).isSome
  ended.foldl (fun (s, log) job =>
    match fate job.2 with
    | none => (s, log)
    | some e =>
      let (s, lines) := s.conclude job.1 e
      (s, log ++ lines)) ({ s with executor }, [])

/-- Waits until every plan has ended, each as `fate` tells. -/
def join (fate : ρ → PlanEnd) (s : StreamLoads ρ) : StreamLoads ρ × Log :=
  (s.executor.active ++ s.executor.queue).foldl (fun (s, log) job =>
    let (s, lines) := s.conclude job.1 (fate job.2)
    (s, log ++ lines)) ({ s with executor := { threads := s.executor.threads } }, [])

end StreamLoads

end QueryHost
