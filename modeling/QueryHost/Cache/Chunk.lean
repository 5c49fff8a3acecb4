import QueryHost.Failure
import QueryHost.Memory.Tracker
import QueryHost.Text.Digest

/-!
# Chunks of memory

A chunk is a block whose size is a power of two. A freed chunk is parked for reuse while the parked
ones fit a reserve, and given back otherwise. The allocator's tracker is charged for every chunk
of its own that is held or parked.
-/

namespace QueryHost

structure Chunk where
  /-- Tells chunks apart. -/
  serial : Nat
  size : Nat
  /-- Who is charged for it. -/
  tracker : TrackerId
  /-- The bytes written at the start of the chunk; those after them are zero. -/
  written : Bytes := []
  deriving DecidableEq, Repr

namespace Chunk

/-- The first `count` bytes of the chunk. -/
def front (c : Chunk) (count : Nat) : Bytes :=
  let n := min count c.size
  c.written.take n ++ List.replicate (n - c.written.length) 0

/-- Overwrites the start of the chunk; says how many bytes fit. -/
def write (c : Chunk) (data : Bytes) : Chunk × Nat :=
  let fits := data.take c.size
  ({ c with written := fits ++ c.written.drop fits.length }, fits.length)

end Chunk

structure ChunkAllocator where
  reserveLimit : Int
  tracker : TrackerId
  reserved : Int := 0
  /-- The parked chunks by size: those of list `i` have `2 ^ i` bytes. The last parked comes first.
  -/
  free : List (List Chunk) := List.replicate 48 []
  nextSerial : Nat := 0
  deriving DecidableEq, Repr

namespace ChunkAllocator

def new (reserveLimit : Int) (tracker : TrackerId) : ChunkAllocator :=
  { reserveLimit := max reserveLimit 0, tracker }

/-- Takes a parked chunk of the next power of two, or a new one of zeros. -/
def allocate (a : ChunkAllocator) (ts : Trackers) (size : Nat) :
    Except Failure (Chunk × ChunkAllocator × Trackers) :=
  let rounded := 1 <<< ceilLog2 (max size 1)
  let cls := rounded.log2
  match a.free[cls]? with
  | none => .error (.internal ("chunk size " ++ toString size ++ " is too large"))
  | some (c :: rest) =>
    .ok (c, { a with free := a.free.set cls rest, reserved := a.reserved - rounded }, ts)
  | some [] =>
    .ok (⟨a.nextSerial, rounded, a.tracker, []⟩, { a with nextSerial := a.nextSerial + 1 },
      ts.consume a.tracker (chargedBytes rounded))

/-- Gives a chunk that is not parked back to the system. -/
def discard (ts : Trackers) (c : Chunk) : Trackers :=
  ts.release c.tracker (chargedBytes c.size)

/-- Parks the chunk, or gives it back when the reserve is full. -/
def release (a : ChunkAllocator) (ts : Trackers) (c : Chunk) : ChunkAllocator × Trackers :=
  if a.reserveLimit < a.reserved + c.size then (a, discard ts c)
  else
    ({ a with reserved := a.reserved + c.size, free := a.free.modify c.size.log2 (c :: ·) }, ts)

def parked (a : ChunkAllocator) : List Chunk := a.free.flatten

/-- Gives back every parked chunk. -/
def releaseReserved (a : ChunkAllocator) (ts : Trackers) : ChunkAllocator × Trackers :=
  ({ a with
      reserved := a.parked.foldl (fun n c => n - c.size) a.reserved
      free := a.free.map fun _ => [] },
    a.parked.foldl discard ts)

end ChunkAllocator

end QueryHost
