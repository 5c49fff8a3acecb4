import QueryHost.Memory.AllocationHook

/-!
# Accounts of memory

Who is charged for memory: all trackers, the hooks of the allocator, and the tracker that the main
thread is bound to.
-/

namespace QueryHost

structure Accounts where
  trackers : Trackers := {}
  hooks : AllocationHooks := {}
  bound : Binding := none
  deriving DecidableEq, Repr

/-- Bytes that somebody holds and that a tracker is charged for until they are let go. -/
structure Holding where
  tracker : TrackerId
  bytes : Int
  deriving DecidableEq, Repr

namespace Accounts

/-! ## Trackers -/

def newRoot (a : Accounts) (kind : TrackerKind) (label : String) : Accounts × TrackerId :=
  let (trackers, t) := a.trackers.newRoot kind label
  ({ a with trackers }, t)

def newChild (a : Accounts) (kind : TrackerKind) (label : String) (limit : Int)
    (parent : TrackerId) : Accounts × TrackerId :=
  let (trackers, t) := a.trackers.newChild kind label limit parent
  ({ a with trackers }, t)

def consume (a : Accounts) (t : TrackerId) (bytes : Int) : Accounts :=
  { a with trackers := a.trackers.consume t bytes }

def release (a : Accounts) (t : TrackerId) (bytes : Int) : Accounts :=
  { a with trackers := a.trackers.release t bytes }

def hold (a : Accounts) (t : TrackerId) (bytes : Nat) : Accounts × Holding :=
  (a.consume t (chargedBytes bytes), ⟨t, chargedBytes bytes⟩)

def letGo (a : Accounts) (h : Holding) : Accounts := a.release h.tracker h.bytes

/-! ## The binding of the thread -/

def boundLabel (a : Accounts) : Option String :=
  (a.bound.bind a.trackers.node?).map (·.label)

/-- Binds the thread to a tracker or to none; gives the label of the one that it was bound to. -/
def bind (a : Accounts) (b : Binding) : Accounts × Option String :=
  ({ a with bound := b }, a.boundLabel)

def unbind (a : Accounts) (t : TrackerId) : Accounts := { a with bound := a.bound.unbind t }

/-- Charges the tracker that the thread is bound to; says whether there is one. -/
def consumeBound (a : Accounts) (bytes : Int) : Accounts × Bool :=
  let (trackers, r) := a.bound.consume a.trackers bytes
  ({ a with trackers }, r)

/-! ## The hook of the allocator -/

def install (a : Accounts) (refuses : ThreadRefusals) (c : HookCapability) (t : TrackerId) :
    Accounts × Option HookId × Log :=
  let (hooks, r) := a.hooks.install refuses c t
  ({ a with hooks }, r)

def sync (a : Accounts) (h : HookId) : Accounts :=
  let (hooks, trackers) := a.hooks.sync h a.trackers
  { a with hooks, trackers }

def uninstall (a : Accounts) (h : HookId) : Accounts :=
  let (hooks, trackers) := a.hooks.uninstall h a.trackers
  { a with hooks, trackers }

def onAllocate (a : Accounts) (bytes : Nat) : Accounts :=
  { a with hooks := a.hooks.onAllocate bytes }

def onFree (a : Accounts) (bytes : Nat) : Accounts := { a with hooks := a.hooks.onFree bytes }

end Accounts

end QueryHost
