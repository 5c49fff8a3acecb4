import QueryHost.Cache.Lru
import QueryHost.Proofs.Calls
import QueryHost.Proofs.RecencyOrder
import QueryHost.Word

/-!
# A shard is a list in the order of use

The plain form of a shard is one list of entries, least recently used first (`UseList`). A shard
answers every run of calls as its plain form does, and its entries, stamps and usage stay in step
(`shard_follows_uses`).
-/

namespace QueryHost

variable {κ α : Type} [DecidableEq κ]

inductive CacheCall (κ α : Type) where
  | insert (key : κ) (value : α) (charge : Nat)
  | lookup (key : κ)
  | erase (key : κ)
  deriving DecidableEq, Repr

inductive CacheAnswer (α : Type) where
  | done (yes : Bool)
  | found (value : Option α)
  deriving DecidableEq, Repr

def LruShard.call (s : LruShard κ α) : CacheCall κ α → LruShard κ α × CacheAnswer α
  | .insert k value charge => ((s.insert k value charge).1, .done (s.insert k value charge).2)
  | .lookup k => ((s.lookup k).1, .found (s.lookup k).2)
  | .erase k => ((s.erase k).1, .done (s.erase k).2)

namespace UseList

/-- The total charge. -/
def usage (l : List (Use κ α)) : Nat := (l.map (·.charge)).sum

def without (k : κ) (l : List (Use κ α)) : List (Use κ α) := l.filter (·.key != k)

def lookup (l : List (Use κ α)) (k : κ) : List (Use κ α) × Option α :=
  match l.find? (·.key == k) with
  | some u => (without k l ++ [u], some u.value)
  | none => (l, none)

/-- Drops the key's old entry, then as few of the least recently used as make room. -/
def insert (capacity : Nat) (l : List (Use κ α)) (k : κ) (value : α) (charge : Nat) :
    List (Use κ α) × Bool :=
  if charge = 0 ∨ capacity < charge then (l, false)
  else (shed (·.charge) (· + charge ≤ capacity) (without k l) ++ [⟨k, value, charge⟩], true)

def erase (l : List (Use κ α)) (k : κ) : List (Use κ α) × Bool :=
  (without k l, (l.find? (·.key == k)).isSome)

def call (capacity : Nat) (l : List (Use κ α)) :
    CacheCall κ α → List (Use κ α) × CacheAnswer α
  | .insert k value charge =>
    ((insert capacity l k value charge).1, .done (insert capacity l k value charge).2)
  | .lookup k => ((lookup l k).1, .found (lookup l k).2)
  | .erase k => ((erase l k).1, .done (erase l k).2)

end UseList

namespace Recency

theorem map_useOf_filter (l : List (κ × Stamped α)) (k : κ) :
    (l.filter fun x => x.1 != k).map useOf = UseList.without k (l.map useOf) := by
  rw [UseList.without, List.filter_map]
  rfl

end Recency

namespace LruShard

open Recency

/-- The shard has the entries of a plain list, within its capacity. -/
structure Shows (capacity : Nat) (s : LruShard κ α) (u : List (Use κ α)) : Prop where
  capacity_eq : s.capacity = capacity
  total_le : s.map.total ≤ capacity
  lists : ∃ l, Lists s.map l ∧ u = l.map useOf

section Shows

variable {capacity : Nat} {s : LruShard κ α} {u : List (Use κ α)}

/-- A lookup in the shard is one in the list that it shows. -/
theorem Shows.lookup (h : Shows capacity s u) (k : κ) :
    Shows capacity (s.lookup k).1 (UseList.lookup u k).1
      ∧ (s.lookup k).2 = (UseList.lookup u k).2 := by
  obtain ⟨hcap, hle, l, hl, rfl⟩ := h
  have htotal : (s.lookup k).1.map.total ≤ capacity := (touch_total s.map k).trans_le hle
  unfold UseList.lookup
  rw [hl.find?_use]
  cases he : s.map.entries.get? k with
  | none =>
    obtain ⟨htouch, hanswer⟩ := hl.touch_of_none he
    exact ⟨⟨hcap, htotal, l, htouch, rfl⟩, hanswer⟩
  | some e =>
    obtain ⟨htouch, hanswer⟩ := hl.touch_of_some he
    refine ⟨⟨hcap, htotal, _, htouch, ?_⟩, hanswer⟩
    rw [List.map_append, map_useOf_filter]
    rfl

theorem Shows.erase (h : Shows capacity s u) (k : κ) :
    Shows capacity (s.erase k).1 (UseList.erase u k).1
      ∧ (s.erase k).2 = (UseList.erase u k).2 := by
  obtain ⟨hcap, hle, l, hl, rfl⟩ := h
  obtain ⟨herase, hanswer⟩ := hl.erase k
  refine ⟨⟨hcap, (erase_total_le s.map k).trans hle, _, herase, (map_useOf_filter l k).symm⟩, ?_⟩
  rw [UseList.erase, hl.find?_use, Option.isSome_map]
  exact hanswer

theorem Shows.insert (h : Shows capacity s u) (k : κ) (value : α) (charge : Nat) :
    Shows capacity (s.insert k value charge).1 (UseList.insert capacity u k value charge).1
      ∧ (s.insert k value charge).2 = (UseList.insert capacity u k value charge).2 := by
  obtain ⟨rfl, hle, l, hl, rfl⟩ := h
  unfold LruShard.insert UseList.insert
  split_ifs with hc
  · exact ⟨⟨rfl, hle, l, hl, rfl⟩, rfl⟩
  · obtain ⟨hroom, hnone, htotal⟩ := hl.room k (s.capacity - charge)
    refine ⟨⟨rfl, ?_, _, hroom.push hnone value charge, ?_⟩, rfl⟩
    · change _ + charge ≤ s.capacity
      omega
    · have hfits : (fun n => decide (n ≤ s.capacity - charge))
          = fun n => decide (n + charge ≤ s.capacity) := by
        funext n
        exact decide_eq_decide.2 (by omega)
      rw [List.map_append, hfits, ← map_useOf_filter, ← map_shed]
      rfl

theorem Shows.call (c : CacheCall κ α) (h : Shows capacity s u) :
    Shows capacity (s.call c).1 (UseList.call capacity u c).1
      ∧ (s.call c).2 = (UseList.call capacity u c).2 := by
  cases c with
  | insert k value charge => exact (h.insert k value charge).imp_right (congrArg _)
  | lookup k => exact (h.lookup k).imp_right (congrArg _)
  | erase k => exact (h.erase k).imp_right (congrArg _)

omit [DecidableEq κ] in
theorem shows_new (capacity : Nat) :
    Shows capacity ({ capacity } : LruShard κ α) ([] : List (Use κ α)) :=
  ⟨rfl, Nat.zero_le _, [], ⟨rfl, .nil, .nil, fun e he => by simp at he, rfl⟩, rfl⟩

end Shows

/-- A shard answers as the plain list does and has its entries. Its usage is the sum of the charges
and leaves room for what an insertion adds up, and each key has one stamp in the order. -/
theorem shard_follows_uses (capacity : Nat) (small : capacity < 2 ^ 63)
    (calls : List (CacheCall κ α)) :
    let run := callAll LruShard.call { capacity } calls
    let plain := callAll (UseList.call capacity) [] calls
    run.2 = plain.2 ∧ run.1.map.uses = plain.1
      ∧ run.1.map.total = UseList.usage plain.1
      ∧ run.1.map.total = (run.1.map.entries.values.map (·.weight)).sum
      ∧ run.1.map.total ≤ capacity
      ∧ (∀ charge ≤ capacity, run.1.map.total + charge ≤ word64Max)
      ∧ run.1.map.order.Pairwise (fun a b => a.1 < b.1)
      ∧ ∀ stamp k, (stamp, k) ∈ run.1.map.order ↔
          ∃ e, run.1.map.entries.get? k = some e ∧ e.stamp = stamp := by
  intro run plain
  obtain ⟨⟨-, hle, l, hl, hu⟩, hanswers⟩ := callAll_simulates
    (fun s u c (h : Shows capacity s u) => h.call c) calls _ _ (shows_new capacity)
  refine ⟨hanswers, hl.uses_eq.trans hu.symm, ?_, ?_, hle, fun charge hc => ?_, ?_,
    fun stamp k => hl.stamp_iff stamp k⟩
  · rw [hl.total_eq, UseList.usage, hu, List.map_map]
    rfl
  · rw [hl.total_eq, Assoc.values, List.map_map]
    exact ((hl.entries_perm.map _).sum_eq).symm
  · have hsum : run.1.map.total + charge ≤ capacity + capacity := Nat.add_le_add hle hc
    simp only [word64Max]
    omega
  · rw [hl.order_eq, List.pairwise_map]
    exact hl.sorted

/-- Room for a charge of two costs the two entries that were not looked up. -/
theorem shard_follows_uses_evicting : 3 < 2 ^ 63
    ∧ (callAll LruShard.call { capacity := 3 }
        [.insert 1 'a' 1, .insert 2 'b' 1, .insert 3 'c' 1, .lookup 1, .insert 4 'd' 2, .lookup 2,
          .erase 3, .insert 1 'e' 4, .lookup 1]).2
      = [.done true, .done true, .done true, .found (some 'a'), .done true, .found none,
          .done false, .done false, .found (some 'a')] :=
  ⟨by decide, (shard_follows_uses 3 (by decide) _).1.trans (by decide)⟩

end LruShard

end QueryHost
