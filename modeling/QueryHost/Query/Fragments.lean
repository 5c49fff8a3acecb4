import QueryHost.Assoc
import QueryHost.Failure
import QueryHost.Log
import QueryHost.UniqueId

/-!
# Running fragments

The fragment instances that run, by their id. A handle on an instance outlives its registration:
`all` holds every instance ever registered.
-/

namespace QueryHost

abbrev FragmentId := Nat

structure Fragment where
  query : UniqueId
  instanceId : UniqueId
  /-- Why the instance was cancelled last. -/
  cancelReason : Option String := none
  deriving DecidableEq, Repr

def Fragment.isCancelled (f : Fragment) : Bool := f.cancelReason.isSome

structure Fragments where
  all : List Fragment := []
  registered : Assoc UniqueId FragmentId := {}
  deriving Repr

namespace Fragments

def register (f : Fragments) (query instanceId : UniqueId) :
    Except Failure (Fragments × FragmentId) :=
  if f.registered.contains instanceId then
    .error (.internal ("fragment instance " ++ instanceId.text ++ " is already running"))
  else
    let id := f.all.length
    .ok (⟨f.all ++ [{ query := query, instanceId := instanceId }],
      f.registered.put instanceId id⟩, id)

def fragment? (f : Fragments) (id : FragmentId) : Option Fragment := f.all[id]?

/-- Marks instances as cancelled for a reason. -/
def mark (f : Fragments) (ids : List FragmentId) (reason : String) : Fragments :=
  { f with all := f.all.mapIdx fun i x =>
      if i ∈ ids then { x with cancelReason := some reason } else x }

def cancel (f : Fragments) (instanceId : UniqueId) (reason : String) : Fragments × Bool :=
  match f.registered.get? instanceId with
  | some id => (f.mark [id] reason, true)
  | none => (f, false)

/-- The registered instances of a query. -/
def ofQuery (f : Fragments) (query : UniqueId) : List FragmentId :=
  f.registered.values.filter fun id => (f.fragment? id).any fun x => x.query == query

def cancelQuery (f : Fragments) (query : UniqueId) (reason : String) : Fragments × Nat :=
  let hit := f.ofQuery query
  (f.mark hit reason, hit.length)

/-- Forgets an instance that has finished. -/
def remove (f : Fragments) (instanceId : UniqueId) : Fragments × Bool :=
  ({ f with registered := f.registered.erase instanceId }, f.registered.contains instanceId)

def running (f : Fragments) : Nat := f.registered.size

def shutdown (f : Fragments) : Fragments × Log :=
  let log : Log :=
    if f.running = 0 then []
    else [.info ("cancelling " ++ toString f.running ++ " fragment instances on shutdown")]
  ({ f.mark f.registered.values "backend shutting down" with registered := {} }, log)

end Fragments

end QueryHost
