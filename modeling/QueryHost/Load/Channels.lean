import QueryHost.Assoc
import QueryHost.Failure
import QueryHost.Log
import QueryHost.Memory.Tracker
import QueryHost.UniqueId

/-!
# Load channels

Each open load has a channel with a memory tracker of its own. All of them lie below the tracker of
the channels together, whose limit is a share of the process limit.
-/

namespace QueryHost

structure LoadChannel where
  load : UniqueId
  tracker : TrackerId
  deriving DecidableEq, Repr

structure LoadChannels where
  /-- The share of the process limit, in hundredths. -/
  percentage : Nat
  tracker : Option TrackerId := none
  opened : Assoc UniqueId LoadChannel := {}
  deriving Repr

namespace LoadChannels

def new (percentage : Nat) : LoadChannels := { percentage := min percentage 100 }

def limitOf (c : LoadChannels) (processLimit : Int) : Int := processLimit * c.percentage / 100

def init (c : LoadChannels) (ts : Trackers) (processLimit : Int) :
    Except Failure (LoadChannels × Trackers × Log) :=
  if processLimit ≤ 0 then
    .error
      (.subsystem "load_channel_mgr" ("invalid process memory limit " ++ toString processLimit))
  else match c.tracker with
    | some _ => .error (.internal "load channel manager initialized twice")
    | none =>
      let limit := c.limitOf processLimit
      let (ts, root) := ts.newRoot .load "Load"
      let (ts, tracker) := ts.newChild .load "LoadChannelMgr" limit root
      .ok ({ c with tracker := some tracker }, ts,
        [.info ("load channel memory limit: " ++ toString limit ++ " bytes ("
          ++ toString c.percentage ++ "% of process)")])

def getTracker (c : LoadChannels) : Except Failure TrackerId :=
  match c.tracker with
  | some t => .ok t
  | none => .error .notInitialized

/-- The channel of a load. An open one stays as it is, whatever the limit. -/
def openChannel (c : LoadChannels) (ts : Trackers) (load : UniqueId) (limit : Int) :
    Except Failure (LoadChannels × Trackers × LoadChannel) := do
  let parent ← c.getTracker
  match c.opened.get? load with
  | some channel => return (c, ts, channel)
  | none =>
    let (ts, tracker) := ts.newChild .load ("LoadChannel#" ++ load.text) limit parent
    let channel : LoadChannel := ⟨load, tracker⟩
    return ({ c with opened := c.opened.put load channel }, ts, channel)

def cancel (c : LoadChannels) (load : UniqueId) : LoadChannels × Bool :=
  ({ c with opened := c.opened.erase load }, c.opened.contains load)

def size (c : LoadChannels) : Nat := c.opened.size

def close (c : LoadChannels) : LoadChannels := { c with opened := {} }

/-- The trackers that the open channels hold. -/
def held (c : LoadChannels) : List TrackerId :=
  c.tracker.toList ++ c.opened.values.map (·.tracker)

end LoadChannels

end QueryHost
