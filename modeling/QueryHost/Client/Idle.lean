import QueryHost.Cluster.Brokers
import QueryHost.Metrics

/-!
# Clients

Clients of a service that are not in use are kept by the address they talk to, up to a number for
each. A client is taken from there, the last one kept first, or opened. Once the counters are
registered, they count which of the two it was.
-/

namespace QueryHost

/-- The counters of clients that were taken and of those that had to be opened. -/
structure ClientCounters where
  hits : CounterId
  misses : CounterId
  deriving DecidableEq, Repr

/-- A client of a service, by the address it was opened for. -/
structure ServiceClient where
  address : Address
  deriving DecidableEq, Repr

structure IdleClients where
  maxPerHost : Nat
  idle : Assoc Address (List ServiceClient) := {}
  counters : Option ClientCounters := none
  deriving Repr

/-- Whether there can be a service at the address. -/
def Address.isValid (a : Address) : Bool := !a.host.isEmpty && a.port != 0

def ServiceClient.open (a : Address) : Except Failure ServiceClient :=
  if a.isValid then .ok ⟨a⟩ else .error (.internal ("invalid service address " ++ a.text))

namespace IdleClients

variable {σ : Type}

/-- Registers the two counters. What is registered when the second one fails stays so. -/
def initMetrics (c : IdleClients) (m : Metrics σ) (name : String) :
    IdleClients × Metrics σ × Except Failure Unit :=
  match m.registerCounter (name ++ "_client_cache_hits_total") (name ++ " client cache hits") with
  | .error f => (c, m, .error f)
  | .ok (m, hits) =>
    match m.registerCounter (name ++ "_client_cache_misses_total")
        (name ++ " client cache misses") with
    | .error f => (c, m, .error f)
    | .ok (m, misses) =>
      match c.counters with
      | some _ => (c, m, .error (.internal (name ++ " client cache metrics already registered")))
      | none => ({ c with counters := some ⟨hits, misses⟩ }, m, .ok ())

def count (c : IdleClients) (m : Metrics σ) (which : ClientCounters → CounterId) : Metrics σ :=
  match c.counters with
  | some ids => m.increase (which ids) 1
  | none => m

def clients (c : IdleClients) (a : Address) : List ServiceClient :=
  match c.idle.get? a with
  | some l => l
  | none => []

def get (c : IdleClients) (m : Metrics σ) (a : Address) :
    IdleClients × Metrics σ × Except Failure ServiceClient :=
  match c.clients a with
  | client :: rest => ({ c with idle := c.idle.put a rest }, c.count m (·.hits), .ok client)
  | [] => (c, c.count m (·.misses), ServiceClient.open a)

/-- Keeps a client under an address, unless there are enough. -/
def release (c : IdleClients) (a : Address) (client : ServiceClient) : IdleClients :=
  let l := c.clients a
  { c with idle := c.idle.put a (if l.length < c.maxPerHost then client :: l else l) }

def close (c : IdleClients) (a : Address) : IdleClients := { c with idle := c.idle.erase a }

def shutdown (c : IdleClients) : IdleClients := { c with idle := {} }

end IdleClients

/-! ## Shared stubs -/

abbrev StubId := Nat

/-- One stub for each address, made at first use and shared from then on until it is forgotten. -/
structure Stubs where
  stubs : Assoc Address StubId := {}
  nextStub : StubId := 0
  deriving Repr

namespace Stubs

def get (s : Stubs) (a : Address) : Except Failure (Stubs × StubId) :=
  match s.stubs.get? a with
  | some id => .ok (s, id)
  | none =>
    if a.isValid then .ok (⟨s.stubs.put a s.nextStub, s.nextStub + 1⟩, s.nextStub)
    else .error (.internal ("invalid brpc address " ++ a.text))

def erase (s : Stubs) (a : Address) : Stubs × Bool :=
  ({ s with stubs := s.stubs.erase a }, s.stubs.contains a)

def size (s : Stubs) : Nat := s.stubs.size

def shutdown (s : Stubs) : Stubs := { s with stubs := {} }

end Stubs

end QueryHost
