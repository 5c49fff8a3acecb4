import QueryHost.Cache.Recency
import QueryHost.Word

/-!
# Least recently used caches

A shard holds entries up to a capacity, by their charges, and drops the least recently used ones to
make room. A sharded cache is a power of two of shards that share a capacity; the hash of a key
selects its shard. The clock of a shard is a number without bound: it leaves a word of 64 bits after
`2 ^ 64` uses.
-/

namespace QueryHost

structure CacheStats where
  entries : Nat := 0
  usage : Nat := 0
  capacity : Nat := 0
  deriving DecidableEq, Repr

structure LruShard (κ α : Type) where
  map : Recency κ α := {}
  capacity : Nat

namespace LruShard

variable {κ α : Type} [DecidableEq κ]

def lookup (s : LruShard κ α) (k : κ) : LruShard κ α × Option α :=
  let (map, r) := s.map.touch k
  ({ s with map }, r)

def erase (s : LruShard κ α) (k : κ) : LruShard κ α × Bool :=
  let (map, r) := s.map.erase k
  ({ s with map }, r)

/-- Puts an entry in, in place of an older one under its key. An entry that can never fit, or is
charged nothing, is refused. -/
def insert (s : LruShard κ α) (k : κ) (value : α) (charge : Nat) : LruShard κ α × Bool :=
  if charge = 0 ∨ s.capacity < charge then (s, false)
  else
    let room := (s.map.erase k).1.trim (s.capacity - charge)
    ({ s with map := room.push k value charge }, true)

end LruShard

structure LruCache (κ α : Type) where
  shards : List (LruShard κ α)
  capacity : Nat
  hash : κ → Nat

namespace LruCache

variable {κ α : Type}

/-- The number of shards is the least power of two that is at least `requested`, and each has an
equal share of the capacity, rounded up. -/
def new (capacity requested : Nat) (hash : κ → Nat) : LruCache κ α :=
  let count := 1 <<< ceilLog2 (max requested 1)
  { shards := List.replicate count { capacity := (capacity + count - 1) / count }
    capacity
    hash }

def shardCount (c : LruCache κ α) : Nat := c.shards.length

/-- The shard of a key. -/
def index (c : LruCache κ α) (k : κ) : Nat :=
  c.hash k &&& (c.shards.length - 1)

/-- Runs an operation on the shard of a key. -/
def onShard {β : Type} (c : LruCache κ α) (k : κ) (absent : β)
    (f : LruShard κ α → LruShard κ α × β) : LruCache κ α × β :=
  match c.shards[c.index k]? with
  | none => (c, absent)
  | some s =>
    let (s, r) := f s
    ({ c with shards := c.shards.set (c.index k) s }, r)

def stats (c : LruCache κ α) : CacheStats where
  entries := c.shards.foldr (fun s n => s.map.size + n) 0
  usage := c.shards.foldr (fun s n => s.map.total + n) 0
  capacity := c.capacity

variable [DecidableEq κ]

def insert (c : LruCache κ α) (k : κ) (value : α) (charge : Nat) : LruCache κ α × Bool :=
  c.onShard k false (·.insert k value charge)

def lookup (c : LruCache κ α) (k : κ) : LruCache κ α × Option α :=
  c.onShard k none (·.lookup k)

def erase (c : LruCache κ α) (k : κ) : LruCache κ α × Bool :=
  c.onShard k false (·.erase k)

end LruCache

end QueryHost
