import QueryHost.Cache.Lru
import QueryHost.Memory.Budget
import QueryHost.Text.Digest

/-!
# The page cache

Pages of data and pages of indexes are kept in two caches that divide one capacity between them,
each with a hash of its own. A part of zero bytes has no cache.
-/

namespace QueryHost

structure PageKey where
  file : String
  offset : Nat
  deriving DecidableEq, Repr

inductive PageType where
  | data | index
  deriving DecidableEq, Repr

structure PageCache where
  capacity : Nat
  indexPercentage : Nat
  data : Option (LruCache PageKey Bytes)
  index : Option (LruCache PageKey Bytes)

namespace PageCache

def build (capacity shards : Nat) (hash : PageKey → Nat) : Option (LruCache PageKey Bytes) :=
  if 0 < capacity then some (.new capacity shards hash) else none

def new (capacity : Int) (indexPercentage shards : Nat) (hash : PageType → PageKey → Nat) :
    Except Failure PageCache :=
  if capacity < 0 then
    .error (.invalidConfig "storage_page_cache_limit" ("negative capacity " ++ toString capacity))
  else if 100 < indexPercentage then
    .error (.invalidConfig "index_page_cache_percentage"
      ("must be within [0, 100]: " ++ toString indexPercentage))
  else if !isPowerOfTwo shards then
    .error (.invalidConfig "storage_page_cache_shard_size"
      ("must be a power-of-two: " ++ toString shards))
  else
    let total := capacity.toNat
    let indexPart := total / 100 * indexPercentage
    .ok {
      capacity := total
      indexPercentage
      data := build (total - indexPart) shards (hash .data)
      index := build indexPart shards (hash .index) }

def part (c : PageCache) : PageType → Option (LruCache PageKey Bytes)
  | .data => c.data
  | .index => c.index

def setPart (c : PageCache) (type : PageType) (p : LruCache PageKey Bytes) : PageCache :=
  match type with
  | .data => { c with data := some p }
  | .index => { c with index := some p }

def isAvailable (c : PageCache) (type : PageType) : Bool := (c.part type).isSome

def lookup (c : PageCache) (k : PageKey) (type : PageType) : PageCache × Option Bytes :=
  match c.part type with
  | none => (c, none)
  | some p =>
    let (p, r) := p.lookup k
    (c.setPart type p, r)

/-- A page is charged its length, an empty one a byte. -/
def insert (c : PageCache) (k : PageKey) (page : Bytes) (type : PageType) : PageCache × Bool :=
  match c.part type with
  | none => (c, false)
  | some p =>
    let (p, r) := p.insert k page (max page.length 1)
    (c.setPart type p, r)

def stats (c : PageCache) (type : PageType) : CacheStats :=
  match c.part type with
  | some p => p.stats
  | none => {}

end PageCache

end QueryHost
