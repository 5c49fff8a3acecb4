import QueryHost.Assoc
import QueryHost.Word

/-!
# Recency maps

A map whose entries have a weight and are stamped with the time of their last use. `order` lists the
stamps with their keys, oldest first; `trim` drops oldest entries until the total weight fits a
bound. Where the clock and the total are words, an operation gives nothing when one of them leaves
its range (`touch?` and the others).
-/

namespace QueryHost

structure Stamped (α : Type) where
  value : α
  weight : Nat
  stamp : Nat
  deriving DecidableEq, Repr

structure Recency (κ α : Type) where
  entries : Assoc κ (Stamped α) := {}
  order : List (Nat × κ) := []
  clock : Nat := 0
  total : Nat := 0

namespace Recency

variable {κ α : Type} [DecidableEq κ]

def size (m : Recency κ α) : Nat := m.entries.size

/-- Takes the entry's value and makes it the newest one. -/
def touch (m : Recency κ α) (k : κ) : Recency κ α × Option α :=
  let now := m.clock + 1
  match m.entries.get? k with
  | none => ({ m with clock := now }, none)
  | some e =>
    ({ m with
        clock := now
        order := m.order.filter (·.1 != e.stamp) ++ [(now, k)]
        entries := m.entries.put k { e with stamp := now } }, some e.value)

def erase (m : Recency κ α) (k : κ) : Recency κ α × Bool :=
  match m.entries.get? k with
  | none => (m, false)
  | some e =>
    ({ m with
        entries := m.entries.erase k
        order := m.order.filter (·.1 != e.stamp)
        total := m.total - e.weight }, true)

/-- Adds a key that the map does not hold, as the newest one. -/
def push (m : Recency κ α) (k : κ) (value : α) (weight : Nat) : Recency κ α :=
  let now := m.clock + 1
  { entries := m.entries.put k ⟨value, weight, now⟩
    order := m.order ++ [(now, k)]
    clock := now
    total := m.total + weight }

/-- Drops the oldest entries, in the given order, while the total is above the bound. -/
def trimOrder (bound : Nat) (m : Recency κ α) : List (Nat × κ) → Recency κ α
  | [] => { m with order := [] }
  | (stamp, k) :: order =>
    if m.total ≤ bound then { m with order := (stamp, k) :: order }
    else
      let weight := match m.entries.get? k with
        | some e => e.weight
        | none => 0
      trimOrder bound { m with entries := m.entries.erase k, total := m.total - weight } order

def trim (m : Recency κ α) (bound : Nat) : Recency κ α :=
  trimOrder bound m m.order

/-! ## Clock and total as words -/

def touch? (m : Recency κ α) (k : κ) : Option (Recency κ α × Option α) := do
  let now ← addWord? m.clock 1
  match m.entries.get? k with
  | none => return ({ m with clock := now }, none)
  | some e =>
    return ({ m with
        clock := now
        order := m.order.filter (·.1 != e.stamp) ++ [(now, k)]
        entries := m.entries.put k { e with stamp := now } }, some e.value)

def erase? (m : Recency κ α) (k : κ) : Option (Recency κ α) :=
  match m.entries.get? k with
  | none => return m
  | some e => do
    let total ← subWord? m.total e.weight
    return { m with
      entries := m.entries.erase k
      order := m.order.filter (·.1 != e.stamp)
      total }

def push? (m : Recency κ α) (k : κ) (value : α) (weight : Nat) : Option (Recency κ α) := do
  let now ← addWord? m.clock 1
  let total ← addWord? m.total weight
  return {
    entries := m.entries.put k ⟨value, weight, now⟩
    order := m.order ++ [(now, k)]
    clock := now
    total }

def trimOrder? (bound : Nat) (m : Recency κ α) : List (Nat × κ) → Option (Recency κ α)
  | [] => return { m with order := [] }
  | (stamp, k) :: order =>
    if m.total ≤ bound then return { m with order := (stamp, k) :: order }
    else
      match m.entries.get? k with
      | none => trimOrder? bound { m with entries := m.entries.erase k } order
      | some e => do
        let total ← subWord? m.total e.weight
        trimOrder? bound { m with entries := m.entries.erase k, total } order

def trim? (m : Recency κ α) (bound : Nat) : Option (Recency κ α) :=
  trimOrder? bound m m.order

end Recency

end QueryHost
