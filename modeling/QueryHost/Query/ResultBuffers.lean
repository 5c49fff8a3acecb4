import QueryHost.Assoc
import QueryHost.Failure
import QueryHost.Log
import QueryHost.Text.Digest
import QueryHost.UniqueId

/-!
# Result buffers

The batches of a query's result wait in a buffer until they are fetched, as packets numbered from
zero; after the writer has closed the buffer and all is fetched, every further packet is the end of
the stream. Adding to a full buffer has to wait (`Attempt.mustWait`), and so has fetching from an
empty one.

The buffers are found by query. Each registration sets a deadline for its query, and `expire`
cancels what is registered for the queries whose deadline is past.
-/

namespace QueryHost

structure ResultBuffer where
  query : UniqueId
  capacity : Nat
  batches : List Bytes := []
  closed : Bool := false
  cancelled : Bool := false
  nextPacket : Nat := 0
  deriving DecidableEq, Repr

/-- A packet without a batch is the end of the stream. -/
structure Packet where
  number : Nat
  batch : Option Bytes
  deriving DecidableEq, Repr

namespace ResultBuffer

def new (query : UniqueId) (capacity : Nat) : ResultBuffer :=
  { query, capacity := max capacity 1 }

def cancelledFailure (b : ResultBuffer) : Failure :=
  .internal ("query " ++ b.query.text ++ " cancelled")

def add (b : ResultBuffer) (batch : Bytes) : ResultBuffer × Attempt (Except Failure Unit) :=
  if b.cancelled then (b, .done (.error b.cancelledFailure))
  else if b.capacity ≤ b.batches.length then (b, .mustWait)
  else ({ b with batches := b.batches ++ [batch] }, .done (.ok ()))

def close (b : ResultBuffer) : ResultBuffer := { b with closed := true }

def cancel (b : ResultBuffer) : ResultBuffer := { b with cancelled := true, batches := [] }

def fetch (b : ResultBuffer) : ResultBuffer × Attempt (Except Failure Packet) :=
  if b.cancelled then (b, .done (.error b.cancelledFailure))
  else match b.batches with
    | batch :: rest =>
      ({ b with batches := rest, nextPacket := b.nextPacket + 1 },
        .done (.ok ⟨b.nextPacket, some batch⟩))
    | [] =>
      if b.closed then
        ({ b with nextPacket := b.nextPacket + 1 }, .done (.ok ⟨b.nextPacket, none⟩))
      else (b, .mustWait)

end ResultBuffer

abbrev BufferId := Nat

/-- A moment on the host's clock. -/
abbrev Moment := Nat

structure ResultBuffers where
  all : List ResultBuffer := []
  registered : Assoc UniqueId BufferId := {}
  deadlines : List (Moment × UniqueId) := []
  /-- Whether there is a thread for the expiry. -/
  started : Bool := false
  stopped : Bool := false
  deriving Repr

namespace ResultBuffers

/-- The thread of the expiry. -/
def threadName : String := "result_buffer_cancel"

/-- Starts the expiry, unless it is started already. -/
def init (m : ResultBuffers) (refuses : ThreadRefusals) : Except Failure (ResultBuffers × Log) :=
  if m.started then .ok (m, [])
  else match refuses threadName with
    | some e => .error (.io "spawn result buffer cancel thread" e)
    | none => .ok ({ m with started := true }, [.info "result buffer manager started"])

/-- Whether the expiry is at work. -/
def expires (m : ResultBuffers) : Bool := m.started && !m.stopped

def buffer? (m : ResultBuffers) (id : BufferId) : Option ResultBuffer := m.all[id]?

/-- The buffer of a query: the registered one, or a new one that expires at `deadline`. -/
def create (m : ResultBuffers) (query : UniqueId) (capacity : Nat) (deadline : Moment) :
    ResultBuffers × BufferId :=
  match m.registered.get? query with
  | some id => (m, id)
  | none =>
    let id := m.all.length
    ({ m with
        all := m.all ++ [.new query capacity]
        registered := m.registered.put query id
        deadlines := m.deadlines ++ [(deadline, query)] }, id)

/-- Changes one buffer and gives what the change gives. -/
def onBuffer {α : Type} (m : ResultBuffers) (id : BufferId) (absent : α)
    (f : ResultBuffer → ResultBuffer × α) : ResultBuffers × α :=
  match m.all[id]? with
  | none => (m, absent)
  | some b =>
    let (b, r) := f b
    ({ m with all := m.all.set id b }, r)

def add (m : ResultBuffers) (id : BufferId) (batch : Bytes) :
    ResultBuffers × Attempt (Except Failure Unit) :=
  m.onBuffer id .mustWait (·.add batch)

def close (m : ResultBuffers) (id : BufferId) : ResultBuffers :=
  { m with all := m.all.modify id .close }

/-- Cancels a buffer and leaves its registration alone. -/
def cancelBuffer (m : ResultBuffers) (id : BufferId) : ResultBuffers :=
  { m with all := m.all.modify id .cancel }

def fetch (m : ResultBuffers) (query : UniqueId) :
    ResultBuffers × Attempt (Except Failure Packet) :=
  match m.registered.get? query with
  | none => (m, .done (.error (.internal ("no result buffer for query " ++ query.text))))
  | some id => m.onBuffer id .mustWait (·.fetch)

def cancel (m : ResultBuffers) (query : UniqueId) : ResultBuffers × Bool :=
  match m.registered.get? query with
  | none => (m, false)
  | some id => ({ m.cancelBuffer id with registered := m.registered.erase query }, true)

/-- Cancels what is registered for each query whose deadline lies before `now`. -/
def expire (m : ResultBuffers) (now : Moment) : ResultBuffers :=
  let due := m.deadlines.filter (·.1 < now)
  due.foldl (fun m d => (m.cancel d.2).1)
    { m with deadlines := m.deadlines.filter fun d => !(d.1 < now) }

def size (m : ResultBuffers) : Nat := m.registered.size

def shutdown (m : ResultBuffers) : ResultBuffers :=
  let ids := m.registered.values
  { m with
    all := m.all.mapIdx fun i b => if i ∈ ids then b.cancel else b
    registered := {}
    started := false
    stopped := true }

end ResultBuffers

end QueryHost
