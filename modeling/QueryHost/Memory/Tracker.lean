import QueryHost.Word

/-!
# Memory trackers

Trackers form trees. Bytes that are consumed or released at a tracker count at it and at all its
ancestors. A tracker is known by its place in the order of creation, and holds its path: itself, its
parent, and so on to the root. The counts are signed words.
-/

namespace QueryHost

inductive TrackerKind where
  | global | query | load | compaction | other
  deriving DecidableEq, Repr, Inhabited

def TrackerKind.text : TrackerKind → String
  | .global => "Global"
  | .query => "Query"
  | .load => "Load"
  | .compaction => "Compaction"
  | .other => "Other"

abbrev TrackerId := Nat

structure Tracker where
  kind : TrackerKind
  label : String
  /-- Bytes that may be in use; below zero for no limit. -/
  limit : Int
  path : List TrackerId
  current : Int := 0
  peak : Int := 0
  allocated : Int := 0
  deallocated : Int := 0
  deriving DecidableEq, Repr, Inhabited

namespace Tracker

def hasLimit (t : Tracker) : Bool := 0 ≤ t.limit

def isExceeded (t : Tracker) : Bool := t.hasLimit && t.limit < t.current

def parent? (t : Tracker) : Option TrackerId := t.path.tail.head?

/-- The tracker after bytes were consumed at it or below it. -/
def add (t : Tracker) (bytes : Int) : Tracker :=
  let current := wrapInt64 (t.current + bytes)
  { t with current, allocated := wrapInt64 (t.allocated + bytes), peak := max t.peak current }

/-- The tracker after bytes were released at it or below it. -/
def subtract (t : Tracker) (bytes : Int) : Tracker :=
  { t with
    current := wrapInt64 (t.current - bytes)
    deallocated := wrapInt64 (t.deallocated + bytes) }

end Tracker

/-- All trackers, in the order of their creation. -/
structure Trackers where
  nodes : List Tracker := []
  deriving DecidableEq, Repr, Inhabited

namespace Trackers

def node? (ts : Trackers) (t : TrackerId) : Option Tracker := ts.nodes[t]?

def path (ts : Trackers) (t : TrackerId) : List TrackerId :=
  match ts.node? t with
  | some n => n.path
  | none => []

def add (ts : Trackers) (n : Tracker) : Trackers × TrackerId :=
  (⟨ts.nodes ++ [n]⟩, ts.nodes.length)

def newRoot (ts : Trackers) (kind : TrackerKind) (label : String) : Trackers × TrackerId :=
  ts.add { kind, label, limit := -1, path := [ts.nodes.length] }

def newChild (ts : Trackers) (kind : TrackerKind) (label : String) (limit : Int)
    (parent : TrackerId) : Trackers × TrackerId :=
  ts.add { kind, label, limit, path := ts.nodes.length :: ts.path parent }

/-- Changes the trackers on the path of `t`. -/
def onPath (ts : Trackers) (t : TrackerId) (f : Tracker → Tracker) : Trackers :=
  ⟨ts.nodes.mapIdx fun i n => if i ∈ ts.path t then f n else n⟩

/-- Counts bytes as consumed. An amount that is not positive counts nothing. -/
def consume (ts : Trackers) (t : TrackerId) (bytes : Int) : Trackers :=
  if 0 < bytes then ts.onPath t (·.add bytes) else ts

/-- Counts bytes as released. An amount that is not positive counts nothing. -/
def release (ts : Trackers) (t : TrackerId) (bytes : Int) : Trackers :=
  if 0 < bytes then ts.onPath t (·.subtract bytes) else ts

def current (ts : Trackers) (t : TrackerId) : Int :=
  match ts.node? t with
  | some n => n.current
  | none => 0

/-- Whether the tracker or one of its ancestors is above its limit. -/
def anyLimitExceeded (ts : Trackers) (t : TrackerId) : Bool :=
  (ts.path t).any fun i => (ts.node? i).any Tracker.isExceeded

/-- Whether one of the trackers in `held` is the tracker or lies below it. -/
def isLive (ts : Trackers) (held : List TrackerId) (t : TrackerId) : Bool :=
  held.any fun h => t ∈ ts.path h

/-- The children of a tracker that are still live while those in `held` are held. -/
def children (ts : Trackers) (held : List TrackerId) (t : TrackerId) : List Tracker :=
  (ts.nodes.zipIdx.filter fun n => n.1.parent? == some t && ts.isLive held n.2).map (·.1)

end Trackers

/-- The bytes that a holder of `bytes` is charged: what a signed word of 64 bits can count. -/
def chargedBytes (bytes : Nat) : Int := min (bytes : Int) int64Max

/-- The tracker that a thread charges, if it is bound to one. -/
abbrev Binding := Option TrackerId

/-- Charges the bound tracker; says whether there is one. -/
def Binding.consume (b : Binding) (ts : Trackers) (bytes : Int) : Trackers × Bool :=
  match b with
  | some t => (ts.consume t bytes, true)
  | none => (ts, false)

/-- What remains of a binding when the tracker `t` shuts down. -/
def Binding.unbind (b : Binding) (t : TrackerId) : Binding :=
  if b = some t then none else b

end QueryHost
