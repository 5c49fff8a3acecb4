import QueryHost.Query.ResultBuffers

/-!
# Expiry of result buffers

Result buffers beside a clock. The expiry sweeps as soon as it is started, and from then on once a
second until it is stopped: a sweep cancels what is past its deadline at that moment.
-/

namespace QueryHost

structure SweptBuffers where
  buffers : ResultBuffers := {}
  /-- The time in microseconds. -/
  now : Moment := 0
  /-- When the last sweep was. -/
  swept : Moment := 0
  deriving Repr

namespace SweptBuffers

def second : Nat := 1000000

def sweep (s : SweptBuffers) (time : Moment) : SweptBuffers :=
  { s with buffers := s.buffers.expire time, swept := time }

/-- Starts the expiry, unless it is started already. -/
def init (s : SweptBuffers) (refuses : ThreadRefusals) : Except Failure (SweptBuffers × Log) := do
  let (buffers, log) ← s.buffers.init refuses
  let started := { s with buffers }
  return (if !s.buffers.started && buffers.expires then started.sweep s.now else started, log)

/-- Makes up to `count` sweeps, as far as they are due at `time`. -/
def catchUp (time : Moment) : (count : Nat) → SweptBuffers → SweptBuffers
  | 0, s => s
  | count + 1, s =>
    if s.buffers.expires && s.swept + second ≤ time then
      catchUp time count (s.sweep (s.swept + second))
    else s

/-- Lets time go by. -/
def advance (s : SweptBuffers) (time : Nat) : SweptBuffers :=
  let now := s.now + time
  { s.catchUp now ((now - s.swept) / second) with now }

/-- Changes the buffers at the present moment, and gives what the change gives. -/
def change {α : Type} (s : SweptBuffers) (f : ResultBuffers → ResultBuffers × α) :
    SweptBuffers × α :=
  let (buffers, a) := f s.buffers
  ({ s with buffers }, a)

def update (s : SweptBuffers) (f : ResultBuffers → ResultBuffers) : SweptBuffers :=
  { s with buffers := f s.buffers }

/-- Creates a buffer whose deadline is some milliseconds from now. -/
def create (s : SweptBuffers) (query : UniqueId) (capacity milliseconds : Nat) :
    SweptBuffers × BufferId :=
  s.change (·.create query capacity (s.now + 1000 * milliseconds))

/-- Fetches a packet, and if there is none yet, once more when some milliseconds are over. -/
def fetchWithin (s : SweptBuffers) (query : UniqueId) (milliseconds : Nat) :
    SweptBuffers × Attempt (Except Failure Packet) :=
  match s.change (·.fetch query) with
  | (s, .mustWait) => (s.advance (1000 * milliseconds)).change (·.fetch query)
  | r => r

/-- Lets up to an hour go by until there is a number of buffers. -/
def awaitSize (s : SweptBuffers) (size : Nat) : SweptBuffers :=
  (3600 : Nat).fold (fun _ _ s => if s.buffers.size = size then s else s.advance second) s

end SweptBuffers

end QueryHost
