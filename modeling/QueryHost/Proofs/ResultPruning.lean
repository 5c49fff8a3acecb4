import QueryHost.Cache.Result
import QueryHost.Proofs.Calls
import QueryHost.Proofs.RecencyOrder
import QueryHost.Word

/-!
# The result cache is a list that is pruned now and then

The plain form of the result cache is one list of keys with their values, least recently used first
(`ResultList`). An update may leave more in it than the size, and only when it leaves more than size
and elasticity together does it cut the list down to the size, even if its own value goes then. The
cache answers every run of calls as its plain form does, and counts the bytes of its values and its
keys right (`results_follow_uses`).
-/

namespace QueryHost

inductive ResultCall where
  | update (key : String) (value : Bytes)
  | fetch (key : String)
  | clear
  deriving DecidableEq, Repr

/-- A call with its answer; only a fetch finds something. -/
def ResultCache.call (c : ResultCache) : ResultCall → ResultCache × Option Bytes
  | .update key value => (c.update key value, none)
  | .fetch key => c.fetch key
  | .clear => (c.clear, none)

namespace ResultList

/-- The length of all values. -/
def size (l : List (String × Bytes)) : Nat := (l.map (·.2.length)).sum

def without (key : String) (l : List (String × Bytes)) : List (String × Bytes) :=
  l.filter (·.1 != key)

/-- Puts the value last, in place of the key's old one. When the list gets too long by that, as few
of the least recently used are dropped as bring it down to `maxSize`. -/
def update (maxSize elasticity : Nat) (l : List (String × Bytes)) (key : String) (value : Bytes) :
    List (String × Bytes) :=
  let grown := without key l ++ [(key, value)]
  if maxSize + elasticity < size grown then shed (·.2.length) (· ≤ maxSize) grown else grown

def fetch (l : List (String × Bytes)) (key : String) : List (String × Bytes) × Option Bytes :=
  match l.find? (·.1 == key) with
  | some e => (without key l ++ [e], some e.2)
  | none => (l, none)

def call (maxSize elasticity : Nat) (l : List (String × Bytes)) :
    ResultCall → List (String × Bytes) × Option Bytes
  | .update key value => (update maxSize elasticity l key value, none)
  | .fetch key => fetch l key
  | .clear => ([], none)

end ResultList

namespace ResultCache

open Recency

/-- An entry without its stamp. -/
def entryOf (x : String × Stamped Bytes) : String × Bytes := (x.1, x.2.value)

/-- The keys with their values, least recently used first. -/
def toList (c : ResultCache) : List (String × Bytes) := c.results.uses.map fun u => (u.key, u.value)

/-- The cache has the entries of a plain list, and they weigh what their values are long. -/
structure Shows (maxSize elasticity : Nat) (c : ResultCache) (u : List (String × Bytes)) :
    Prop where
  maxSize_eq : c.maxSize = maxSize
  elasticity_eq : c.elasticity = elasticity
  total_le : c.results.total ≤ maxSize + elasticity
  lists : ∃ l, Lists c.results l ∧ (∀ x ∈ l, x.2.weight = x.2.value.length) ∧ u = l.map entryOf

theorem map_entryOf_filter (l : List (String × Stamped Bytes)) (key : String) :
    (l.filter fun x => x.1 != key).map entryOf = ResultList.without key (l.map entryOf) := by
  rw [ResultList.without, List.filter_map]
  rfl

section Lists

variable {m : Recency String Bytes} {l : List (String × Stamped Bytes)}

theorem find?_entryOf (h : Lists m l) (key : String) :
    (l.map entryOf).find? (·.1 == key) = (m.entries.get? key).map fun e => (key, e.value) := by
  have hmap : l.map entryOf = (l.map useOf).map fun u => (u.key, u.value) := by
    rw [List.map_map]
    rfl
  rw [hmap, List.find?_map]
  exact (congrArg _ (h.find?_use key)).trans (Option.map_map _ _ _)

theorem total_eq_size (h : Lists m l) (hw : ∀ x ∈ l, x.2.weight = x.2.value.length) :
    m.total = ResultList.size (l.map entryOf) := by
  rw [h.total_eq, List.map_congr_left hw, ResultList.size, List.map_map]
  rfl

end Lists

section Shows

variable {maxSize elasticity : Nat} {c : ResultCache} {u : List (String × Bytes)}

theorem Shows.fetch (h : Shows maxSize elasticity c u) (key : String) :
    Shows maxSize elasticity (c.fetch key).1 (ResultList.fetch u key).1
      ∧ (c.fetch key).2 = (ResultList.fetch u key).2 := by
  obtain ⟨hmax, hel, hle, l, hl, hw, rfl⟩ := h
  have htotal : (c.fetch key).1.results.total ≤ maxSize + elasticity :=
    (touch_total c.results key).trans_le hle
  unfold ResultList.fetch
  rw [find?_entryOf hl]
  cases he : c.results.entries.get? key with
  | none =>
    obtain ⟨htouch, hanswer⟩ := hl.touch_of_none he
    exact ⟨⟨hmax, hel, htotal, l, htouch, hw, rfl⟩, hanswer⟩
  | some e =>
    obtain ⟨htouch, hanswer⟩ := hl.touch_of_some he
    refine ⟨⟨hmax, hel, htotal, _, htouch, fun x hx => ?_, ?_⟩, hanswer⟩
    · rcases List.mem_append.1 hx with hx | hx
      · exact hw x (List.mem_filter.1 hx).1
      · rw [List.mem_singleton.1 hx]
        exact hw (key, e) (hl.get?_iff.1 he)
    · rw [List.map_append, map_entryOf_filter]
      rfl

/-- An update puts the result at the end of the list, and prunes the list if it has grown too far.
-/
theorem Shows.update (h : Shows maxSize elasticity c u) (key : String) (value : Bytes) :
    Shows maxSize elasticity (c.update key value)
      (ResultList.update maxSize elasticity u key value) := by
  obtain ⟨rfl, rfl, -, l, hl, hw, rfl⟩ := h
  have hpush := hl.replace key value value.length
  generalize hgrown : (l.filter fun x => x.1 != key)
    ++ [(key, ⟨value, value.length, (c.results.erase key).1.clock + 1⟩)] = grown at hpush
  have hweights : ∀ x ∈ grown, x.2.weight = x.2.value.length := by
    intro x hx
    rcases List.mem_append.1 (hgrown ▸ hx) with hx | hx
    · exact hw x (List.mem_filter.1 hx).1
    · rw [List.mem_singleton.1 hx]
  have hplain : ResultList.without key (l.map entryOf) ++ [(key, value)] = grown.map entryOf := by
    rw [← hgrown, List.map_append, map_entryOf_filter]
    rfl
  unfold ResultCache.update ResultList.update
  dsimp only
  rw [hplain, ← total_eq_size hpush hweights]
  split_ifs with hover
  · have htrim := hpush.trim c.maxSize
    refine ⟨rfl, rfl, ?_, _, htrim, fun x hx => hweights x ((shed_suffix _ _ _).mem hx), ?_⟩
    · have hfits : (((shed (·.2.weight) (· ≤ c.maxSize) grown).map fun x => x.2.weight).sum)
          ≤ c.maxSize := by
        simpa using fits_shed (fun x : String × Stamped Bytes => x.2.weight) (· ≤ c.maxSize)
          (by simp) grown
      rw [htrim.total_eq]
      exact hfits.trans (Nat.le_add_right _ _)
    · rw [← map_shed, shed_congr _ hweights]
      rfl
  · exact ⟨rfl, rfl, Nat.le_of_not_lt hover, grown, hpush, hweights, rfl⟩

theorem Shows.call (k : ResultCall) (h : Shows maxSize elasticity c u) :
    Shows maxSize elasticity (c.call k).1 (ResultList.call maxSize elasticity u k).1
      ∧ (c.call k).2 = (ResultList.call maxSize elasticity u k).2 := by
  cases k with
  | update key value => exact ⟨h.update key value, rfl⟩
  | fetch key => exact h.fetch key
  | clear =>
    refine ⟨⟨h.maxSize_eq, h.elasticity_eq, Nat.zero_le _, [], ?_, by simp, rfl⟩, rfl⟩
    exact ⟨rfl, .nil, .nil, fun e he => by simp at he, rfl⟩

theorem shows_new (maxSize elasticity : Nat) :
    Shows maxSize elasticity { maxSize, elasticity } [] :=
  ⟨rfl, rfl, Nat.zero_le _, [], ⟨rfl, .nil, .nil, fun e he => by simp at he, rfl⟩, by simp, rfl⟩

theorem Shows.toList_eq (h : Shows maxSize elasticity c u) : c.toList = u := by
  obtain ⟨-, -, -, l, hl, -, rfl⟩ := h
  rw [toList, hl.uses_eq, List.map_map]
  rfl

theorem Shows.totalSize_eq (h : Shows maxSize elasticity c u) :
    c.totalSize = ResultList.size u := by
  obtain ⟨-, -, -, l, hl, hw, rfl⟩ := h
  exact total_eq_size hl hw

theorem Shows.size_eq (h : Shows maxSize elasticity c u) : c.size = u.length := by
  obtain ⟨-, -, -, l, hl, -, rfl⟩ := h
  rw [List.length_map]
  exact hl.entries_perm.length_eq

theorem Shows.nodup_keys (h : Shows maxSize elasticity c u) : (u.map (·.1)).Nodup := by
  obtain ⟨-, -, -, l, hl, -, rfl⟩ := h
  rw [List.map_map]
  exact hl.nodup_keys

end Shows

/-- The cache answers as the plain list does and has its entries. What it counts is the length of
their values and the number of their keys, and the size and the elasticity together bound it. -/
theorem results_follow_uses (maxSize elasticity : Nat) (small : maxSize + elasticity ≤ word64Max)
    (calls : List ResultCall) :
    let run := callAll ResultCache.call { maxSize, elasticity } calls
    let plain := callAll (ResultList.call maxSize elasticity) [] calls
    run.2 = plain.2 ∧ run.1.toList = plain.1
      ∧ run.1.totalSize = ResultList.size plain.1
      ∧ run.1.totalSize ≤ maxSize + elasticity ∧ run.1.totalSize ≤ word64Max
      ∧ run.1.size = plain.1.length ∧ (plain.1.map (·.1)).Nodup := by
  intro run plain
  obtain ⟨h, hanswers⟩ := callAll_simulates
    (fun c u k (h : Shows maxSize elasticity c u) => h.call k) calls _ _
    (shows_new maxSize elasticity)
  exact ⟨hanswers, h.toList_eq, h.totalSize_eq, h.total_le, h.total_le.trans small, h.size_eq,
    h.nodup_keys⟩

/-- The third result drives out the one that was not fetched; the last drives out all, and itself.
-/
theorem results_follow_uses_pruned : 3 + 2 ≤ word64Max
    ∧ (callAll ResultCache.call { maxSize := 3, elasticity := 2 }
        [.update "a" [1, 2], .update "b" [3, 4, 5], .fetch "a", .update "c" [6], .fetch "b",
          .fetch "a", .update "d" [1, 2, 3, 4, 5, 6], .fetch "d", .fetch "c"]).2
      = [none, none, some [1, 2], none, none, some [1, 2], none, none, none] := by
  refine ⟨by decide, (results_follow_uses 3 2 (by decide) _).1.trans ?_⟩
  decide

end ResultCache

end QueryHost
