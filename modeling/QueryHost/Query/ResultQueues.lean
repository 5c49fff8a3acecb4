import QueryHost.Assoc
import QueryHost.Failure
import QueryHost.Text.Digest
import QueryHost.UniqueId

/-!
# Result queues

Bounded queues of result items by fragment instance. A queue that is shut down takes no item any
more and still gives those it has. A handle on a queue outlives its registration.
-/

namespace QueryHost

structure ResultQueue where
  capacity : Nat
  items : List Bytes := []
  closed : Bool := false
  deriving DecidableEq, Repr

namespace ResultQueue

/-- The queue's bound where none is asked for. -/
def usualCapacity : Nat := 1024

def new (capacity : Nat) : ResultQueue := { capacity := max capacity 1 }

/-- Puts an item in once its time is over or there is room; says whether the queue took it. -/
def put (q : ResultQueue) (item : Bytes) : ResultQueue × Bool :=
  if q.closed || q.capacity ≤ q.items.length then (q, false)
  else ({ q with items := q.items ++ [item] }, true)

def get (q : ResultQueue) : ResultQueue × Option Bytes :=
  match q.items with
  | [] => (q, none)
  | item :: rest => ({ q with items := rest }, some item)

def shutdown (q : ResultQueue) : ResultQueue := { q with closed := true }

end ResultQueue

abbrev QueueId := Nat

structure ResultQueues where
  all : List ResultQueue := []
  registered : Assoc UniqueId QueueId := {}
  deriving Repr

namespace ResultQueues

def queue? (m : ResultQueues) (id : QueueId) : Option ResultQueue := m.all[id]?

/-- The queue of a fragment instance: the registered one or a new one. -/
def create (m : ResultQueues) (fragment : UniqueId) : ResultQueues × QueueId :=
  match m.registered.get? fragment with
  | some id => (m, id)
  | none =>
    let id := m.all.length
    (⟨m.all ++ [.new ResultQueue.usualCapacity], m.registered.put fragment id⟩, id)

def onQueue {α : Type} (m : ResultQueues) (id : QueueId) (absent : α)
    (f : ResultQueue → ResultQueue × α) : ResultQueues × α :=
  match m.all[id]? with
  | none => (m, absent)
  | some q =>
    let (q, r) := f q
    ({ m with all := m.all.set id q }, r)

def put (m : ResultQueues) (id : QueueId) (item : Bytes) : ResultQueues × Bool :=
  m.onQueue id false (·.put item)

/-- Puts items in one after the other; says how many the queue took. -/
def putAll (m : ResultQueues) (id : QueueId) : List Bytes → ResultQueues × Nat
  | [] => (m, 0)
  | item :: rest =>
    let (m, taken) := m.put id item
    let (m, n) := putAll m id rest
    (m, if taken then n + 1 else n)

def get (m : ResultQueues) (id : QueueId) : ResultQueues × Option Bytes :=
  m.onQueue id none (·.get)

def close (m : ResultQueues) (id : QueueId) : ResultQueues :=
  { m with all := m.all.modify id .shutdown }

def fetch (m : ResultQueues) (fragment : UniqueId) :
    Except Failure (ResultQueues × Option Bytes) :=
  match m.registered.get? fragment with
  | none => .error (.internal ("no result queue for " ++ fragment.text))
  | some id => .ok (m.get id)

def cancel (m : ResultQueues) (fragment : UniqueId) : ResultQueues × Bool :=
  match m.registered.get? fragment with
  | none => (m, false)
  | some id => ({ m.close id with registered := m.registered.erase fragment }, true)

def shutdown (m : ResultQueues) : ResultQueues :=
  let ids := m.registered.values
  { all := m.all.mapIdx fun i q => if i ∈ ids then q.shutdown else q, registered := {} }

end ResultQueues

end QueryHost
