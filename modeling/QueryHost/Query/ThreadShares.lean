/-!
# Thread shares

The threads of the system are shared evenly among the pools that are registered and still in use. A
share is fixed anew when a pool comes or goes by a call; a pool that is only let go of keeps the
others at their shares until then.
-/

namespace QueryHost

abbrev SharePoolId := Nat

structure SharePool where
  quota : Nat := 0
  inUse : Bool := true
  deriving DecidableEq, Repr

structure ThreadShares where
  systemQuota : Nat
  all : List SharePool := []
  registered : List SharePoolId := []
  deriving DecidableEq, Repr

namespace ThreadShares

def new (quota : Nat) : ThreadShares := { systemQuota := max quota 1 }

def isInUse (t : ThreadShares) (id : SharePoolId) : Bool := (t.all[id]?).any (·.inUse)

/-- Forgets the pools that nobody uses any more. -/
def prune (t : ThreadShares) : ThreadShares :=
  { t with registered := t.registered.filter t.isInUse }

/-- Gives every registered pool that is in use the same share. -/
def share (t : ThreadShares) : ThreadShares :=
  let t := t.prune
  if t.registered.isEmpty then t
  else
    let quota := max (t.systemQuota / t.registered.length) 1
    { t with all := t.all.mapIdx fun i p => if i ∈ t.registered then { p with quota } else p }

def register (t : ThreadShares) : ThreadShares × SharePoolId :=
  let id := t.all.length
  (share { t with all := t.all ++ [{}], registered := t.registered ++ [id] }, id)

def unregister (t : ThreadShares) (id : SharePoolId) : ThreadShares :=
  share { t with registered := t.registered.filter (· != id) }

/-- Lets go of a pool without a word. -/
def dropPool (t : ThreadShares) (id : SharePoolId) : ThreadShares :=
  { t with all := t.all.modify id fun p => { p with inUse := false } }

def count (t : ThreadShares) : Nat := t.prune.registered.length

def quota (t : ThreadShares) (id : SharePoolId) : Nat :=
  match t.all[id]? with
  | some p => p.quota
  | none => 0

end ThreadShares

end QueryHost
