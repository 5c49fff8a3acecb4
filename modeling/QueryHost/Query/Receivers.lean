import QueryHost.Assoc
import QueryHost.Failure
import QueryHost.UniqueId

/-!
# Stream receivers

The receivers of data streams, found by fragment instance and plan node. A receiver outlives its
registration: `all` holds every receiver ever made, and a registration points into it.
-/

namespace QueryHost

abbrev ReceiverId := Nat

structure ReceiverKey where
  fragment : UniqueId
  node : Int
  deriving DecidableEq, Repr

structure Receiver where
  key : ReceiverKey
  senders : Nat
  closedSenders : Nat := 0
  cancelled : Bool := false
  deriving DecidableEq, Repr

structure Receivers where
  all : List Receiver := []
  registered : Assoc ReceiverKey ReceiverId := {}
  deriving Repr

namespace Receivers

def create (r : Receivers) (key : ReceiverKey) (senders : Nat) :
    Except Failure (Receivers × ReceiverId) :=
  if r.registered.contains key then
    .error (.internal ("receiver for fragment " ++ key.fragment.text ++ " node "
      ++ toString key.node ++ " already exists"))
  else
    let id := r.all.length
    .ok (⟨r.all ++ [{ key := key, senders := senders }], r.registered.put key id⟩, id)

def find? (r : Receivers) (key : ReceiverKey) : Option ReceiverId := r.registered.get? key

def receiver? (r : Receivers) (id : ReceiverId) : Option Receiver := r.all[id]?

def isCancelled (r : Receivers) (id : ReceiverId) : Bool := (r.receiver? id).any (·.cancelled)

/-- Records the end of one sender's stream; says whether all have ended. -/
def closeSender (r : Receivers) (id : ReceiverId) : Receivers × Bool :=
  let all := r.all.modify id fun x => { x with closedSenders := x.closedSenders + 1 }
  ({ r with all }, (all[id]?).any fun x => x.senders ≤ x.closedSenders)

/-- Marks receivers as cancelled. -/
def mark (r : Receivers) (ids : List ReceiverId) : Receivers :=
  { r with all := r.all.mapIdx fun i x => if i ∈ ids then { x with cancelled := true } else x }

def deregister (r : Receivers) (key : ReceiverKey) : Receivers × Bool :=
  ({ r with registered := r.registered.erase key }, r.registered.contains key)

/-- Cancels and forgets every receiver of a fragment instance; says how many there were. -/
def cancel (r : Receivers) (fragment : UniqueId) : Receivers × Nat :=
  let hit := r.registered.filter fun key _ => key.fragment == fragment
  let rest := r.registered.filter fun key _ => key.fragment != fragment
  ({ r.mark hit.values with registered := rest }, hit.size)

def shutdown (r : Receivers) : Receivers :=
  { r.mark r.registered.values with registered := {} }

end Receivers

end QueryHost
