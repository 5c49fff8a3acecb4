import QueryHost.Act

/-!
# Spilled blocks

Queries that run out of memory spill blocks to disk, each into a directory of its own, which the
stores give by turns. What an earlier run has left is first moved aside, so that a start is short,
and then removed from there.
-/

namespace QueryHost

structure Spill where
  stores : List Path
  /-- How many directories were given. -/
  turn : Nat := 0
  deriving DecidableEq, Repr

namespace Spill

def spillIn (store : Path) : Path := store / "spill"
def wasteIn (store : Path) : Path := store / "spill_gc"

def directories (s : Spill) : List Path := s.stores.map spillIn

def ensure (directory : Path) : Act Unit :=
  Act.makeDirectories ("create spill directory " ++ directory.text) directory

/-- Moves the given entries of one directory into another; gives their number. -/
def moveEntries (source target : Path) : List String → Act Nat
  | [] => return 0
  | name :: rest => do
    Act.change ("move " ++ (source / name).text ++ " to gc")
      (·.move (source / name) (target / name))
    return 1 + (← moveEntries source target rest)

def moveChildren (source target : Path) : Act Nat := do
  match (← Act.disk).list source with
  | .ok names => moveEntries source target names
  | .error e => Act.fail (.io ("read spill directory " ++ source.text) e)

/-- Moves aside what the stores hold of earlier spills; gives the number of entries. -/
def moveAside : List Path → Act Nat
  | [] => return 0
  | store :: rest => do
    ensure (wasteIn store)
    let moved ←
      if (← Act.disk).isPresent (spillIn store) then moveChildren (spillIn store) (wasteIn store)
      else pure 0
    ensure (spillIn store)
    return moved + (← moveAside rest)

/-- Removes the given entries of a directory; gives the number of those that went. -/
def discard (directory : Path) : List String → Act Nat
  | [] => return 0
  | name :: rest => do
    let path := directory / name
    let d ← Act.disk
    match if d.isDirectory path then d.removeTree path else d.removeFile path with
    | .ok d =>
      Act.setDisk d
      return 1 + (← discard directory rest)
    | .error e =>
      Act.warn ("failed to remove spill gc entry " ++ path.text ++ ": " ++ e.text)
      discard directory rest

/-- Removes what was moved aside in the stores; gives the number of entries. -/
def collectIn : List Path → Act Nat
  | [] => return 0
  | store :: rest => do
    let removed ← match (← Act.disk).list (wasteIn store) with
      | .ok names => discard (wasteIn store) names
      | .error _ => pure 0
    return removed + (← collectIn rest)

def collect (s : Spill) : Act Nat := collectIn s.stores

def init (s : Spill) : Act Unit := do
  let moved ← moveAside s.stores
  if 0 < moved then Act.info ("moved " ++ toString moved ++ " stale spill entries to gc")
  let _ ← s.collect

/-- The directory for the blocks of a query; making it is left to the query. -/
def nextDirectory (s : Spill) (query : String) : Spill × Except Failure Path :=
  match s.stores[s.turn % s.stores.length]? with
  | none => (s, .error (.subsystem "block_spill_mgr" "no store paths"))
  | some store => ({ s with turn := (s.turn + 1) % word64Count }, .ok (spillIn store / query))

end Spill

end QueryHost
