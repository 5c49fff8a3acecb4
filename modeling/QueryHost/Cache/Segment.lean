import QueryHost.Cache.Lru

/-!
# The segment loader

Open segments are kept in a cache, one unit each. A segment that is not in it is opened and then
kept; a failure to open is passed on and leaves the cache as it was. What opens a segment does not
use the loader meanwhile.
-/

namespace QueryHost

structure SegmentKey where
  rowset : String
  segment : Nat
  deriving DecidableEq, Repr

structure Segment where
  path : String
  rows : Nat
  deriving DecidableEq, Repr

structure SegmentLoader where
  cache : LruCache SegmentKey Segment

namespace SegmentLoader

def shardCount : Nat := 16

def new (capacity : Nat) (hash : SegmentKey → Nat) : SegmentLoader :=
  ⟨.new capacity shardCount hash⟩

/-- The cached segment, or the one that `opening` gives. -/
def loadBy {m : Type → Type} [Monad m] {ε : Type} (l : SegmentLoader) (k : SegmentKey)
    (opening : m (Except ε Segment)) : m (SegmentLoader × Except ε Segment) :=
  match l.cache.lookup k with
  | (cache, some s) => return (⟨cache⟩, .ok s)
  | (cache, none) => do
    match ← opening with
    | .error e => return (⟨cache⟩, .error e)
    | .ok s => return (⟨(cache.insert k s 1).1⟩, .ok s)

/-- What a load gave, and whether it had to open the segment. -/
structure Loaded (ε : Type) where
  result : Except ε Segment
  opened : Bool

/-- A load that notes whether the segment was opened. -/
def load {ε : Type} (l : SegmentLoader) (k : SegmentKey) (opening : Except ε Segment) :
    SegmentLoader × Loaded ε :=
  let noted : StateM Bool (Except ε Segment) := do
    set true
    return opening
  let ((l, result), opened) := ((l.loadBy k noted).run false).run
  (l, ⟨result, opened⟩)

def erase (l : SegmentLoader) (k : SegmentKey) : SegmentLoader × Bool :=
  let (cache, r) := l.cache.erase k
  (⟨cache⟩, r)

def stats (l : SegmentLoader) : CacheStats := l.cache.stats

end SegmentLoader

end QueryHost
