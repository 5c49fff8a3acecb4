import QueryHost.Cache.Recency
import QueryHost.Text.Digest

/-!
# The result cache

Results are kept by key up to a size, and may grow past it by an elasticity. When they grow past
both, the least recently used are dropped until the rest fits the size. `update?` and `fetch?` count
in words, and give nothing when a word overflows.
-/

namespace QueryHost

structure ResultCache where
  maxSize : Nat
  elasticity : Nat
  results : Recency String Bytes := {}

namespace ResultCache

/-- Megabytes in bytes, as far as a word can count them. -/
def megabytes (n : Nat) : Nat := min (n * 1048576) word64Max

def ofMegabytes (maxSize elasticity : Nat) : ResultCache :=
  { maxSize := megabytes maxSize, elasticity := megabytes elasticity }

def update (c : ResultCache) (key : String) (value : Bytes) : ResultCache :=
  let results := (c.results.erase key).1.push key value value.length
  { c with
    results :=
      if c.maxSize + c.elasticity < results.total then results.trim c.maxSize else results }

def fetch (c : ResultCache) (key : String) : ResultCache × Option Bytes :=
  let (results, r) := c.results.touch key
  ({ c with results }, r)

def update? (c : ResultCache) (key : String) (value : Bytes) : Option ResultCache := do
  let rest ← c.results.erase? key
  let grown ← rest.push? key value value.length
  let bound ← addWord? c.maxSize c.elasticity
  let results ← if bound < grown.total then grown.trim? c.maxSize else some grown
  return { c with results }

def fetch? (c : ResultCache) (key : String) : Option (ResultCache × Option Bytes) := do
  let (results, r) ← c.results.touch? key
  return ({ c with results }, r)

def clear (c : ResultCache) : ResultCache := { c with results := {} }

def totalSize (c : ResultCache) : Nat := c.results.total

def size (c : ResultCache) : Nat := c.results.size

end ResultCache

end QueryHost
