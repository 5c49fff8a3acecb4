import Mathlib.Algebra.Order.BigOperators.Group.List
import Mathlib.Algebra.Order.Floor.Div
import Mathlib.Data.List.Nodup
import Mathlib.Order.Bounds.Basic
import QueryHost.Proofs.LruShards

/-!
# Shards that share nothing

The mask of a power of two selects a shard for each hash, and a call reaches the shard of its key
alone (`exists_call`). So every entry stays with the shard that its key selects (`Housed`), no key
is held twice, and as each shard keeps to its share, the cache keeps to its capacity but for what
the shares were rounded up by (`shards_share_nothing`).
-/

namespace QueryHost

variable {κ α : Type}

namespace CacheCall

def key : CacheCall κ α → κ
  | insert k _ _ => k
  | lookup k => k
  | erase k => k

end CacheCall

namespace LruCache

/-- The entries of all shards. -/
def entries (c : LruCache κ α) : List (κ × Stamped α) :=
  c.shards.flatMap (·.map.entries.toList)

section Shards

variable {c : LruCache κ α} {k : κ} {s : LruShard κ α}

theorem index_lt (h : 0 < c.shards.length) (k : κ) : c.index k < c.shards.length :=
  Nat.lt_of_le_of_lt Nat.and_le_right (Nat.sub_lt h Nat.one_pos)

theorem exists_shard (h : 0 < c.shards.length) (k : κ) : ∃ s, c.shards[c.index k]? = some s :=
  ⟨_, List.getElem?_eq_getElem (index_lt h k)⟩

theorem onShard_of_some {β : Type} (h : c.shards[c.index k]? = some s) (absent : β)
    (f : LruShard κ α → LruShard κ α × β) :
    c.onShard k absent f = ({ c with shards := c.shards.set (c.index k) (f s).1 }, (f s).2) := by
  simp only [onShard, h]

theorem stats_entries (c : LruCache κ α) : c.stats.entries = c.entries.length := by
  rw [entries, List.length_flatMap, List.sum, List.foldr_map]
  rfl

theorem stats_usage (c : LruCache κ α) : c.stats.usage = (c.shards.map (·.map.total)).sum := by
  rw [List.sum, List.foldr_map]
  rfl

end Shards

/-! ## Where the entries are -/

/-- There are `count` shards, and each shows a list of uses that are charged for and whose keys
select the shard. -/
structure Housed (count share : Nat) (hash : κ → Nat) (c : LruCache κ α) : Prop where
  hash_eq : c.hash = hash
  length_eq : c.shards.length = count
  shows : ∀ {i : Nat} {s : LruShard κ α}, c.shards[i]? = some s →
    ∃ u, LruShard.Shows share s u ∧ ∀ x ∈ u, c.index x.key = i ∧ 0 < x.charge

/-- What a shard holds. -/
structure Held (share : Nat) (c : LruCache κ α) (i : Nat) (s : LruShard κ α) : Prop where
  index_eq : ∀ e ∈ s.map.entries.toList, c.index e.1 = i
  weight_pos : ∀ e ∈ s.map.entries.toList, 0 < e.2.weight
  total_eq : s.map.total = (s.map.entries.toList.map (·.2.weight)).sum
  total_le : s.map.total ≤ share
  capacity_eq : s.capacity = share

namespace Housed

variable {count share : Nat} {hash : κ → Nat} {c : LruCache κ α} {i : Nat} {s : LruShard κ α}

theorem new (capacity requested : Nat) (hash : κ → Nat) :
    Housed (2 ^ ceilLog2 (max requested 1)) (capacity ⌈/⌉ 2 ^ ceilLog2 (max requested 1)) hash
      (LruCache.new capacity requested hash : LruCache κ α) := by
  refine ⟨rfl, by simp [LruCache.new, Nat.one_shiftLeft], fun {i s} hs => ?_⟩
  have hs : s = { capacity := capacity ⌈/⌉ 2 ^ ceilLog2 (max requested 1) } := by
    have hmem := List.eq_of_mem_replicate (List.mem_of_getElem? hs)
    rw [hmem, Nat.one_shiftLeft, Nat.ceilDiv_eq_add_pred_div]
  exact ⟨[], hs ▸ LruShard.shows_new _, fun x hx => nomatch hx⟩

theorem held (h : Housed count share hash c) (hs : c.shards[i]? = some s) : Held share c i s := by
  obtain ⟨_, ⟨hcap, hle, l, hl, rfl⟩, huses⟩ := h.shows hs
  have hentry : ∀ e ∈ s.map.entries.toList, c.index e.1 = i ∧ 0 < e.2.weight := fun e he =>
    huses (Recency.useOf e) (List.mem_map_of_mem (hl.entries_perm.mem_iff.1 he))
  refine ⟨fun e he => (hentry e he).1, fun e he => (hentry e he).2, ?_, hle, hcap⟩
  rw [hl.total_eq]
  exact ((hl.entries_perm.map _).sum_eq).symm

theorem held_of_mem (h : Housed count share hash c) (hs : s ∈ c.shards) :
    ∃ i, Held share c i s := by
  obtain ⟨i, hi⟩ := List.mem_iff_getElem?.1 hs
  exact ⟨i, h.held hi⟩

theorem nodup_keys (h : Housed count share hash c) : (c.entries.map (·.1)).Nodup := by
  rw [entries, List.map_flatMap, List.nodup_flatMap]
  refine ⟨fun s _ => s.map.entries.nodup_keys, List.pairwise_iff_getElem.2 ?_⟩
  intro i j hi hj hij k hki hkj
  obtain ⟨e, he, rfl⟩ := List.mem_map.1 hki
  obtain ⟨e', he', hk⟩ := List.mem_map.1 hkj
  have hi := (h.held (List.getElem?_eq_getElem hi)).index_eq e he
  have hj := (h.held (List.getElem?_eq_getElem hj)).index_eq e' he'
  exact Nat.ne_of_lt hij (hi.symm.trans ((congrArg c.index hk).symm.trans hj))

theorem usage_eq (h : Housed count share hash c) :
    c.stats.usage = (c.entries.map (·.2.weight)).sum := by
  rw [stats_usage, entries, List.map_flatMap, List.flatMap, List.sum_flatten, List.map_map]
  refine congrArg List.sum (List.map_congr_left fun s hs => ?_)
  obtain ⟨i, hi⟩ := h.held_of_mem hs
  exact hi.total_eq

theorem usage_le (h : Housed count share hash c) : c.stats.usage ≤ count * share := by
  rw [stats_usage, ← h.length_eq, ← List.length_map (·.map.total), ← smul_eq_mul]
  refine List.sum_le_card_nsmul _ _ fun n hn => ?_
  obtain ⟨s, hs, rfl⟩ := List.mem_map.1 hn
  obtain ⟨i, hi⟩ := h.held_of_mem hs
  exact hi.total_le

/-- Every entry is charged for. -/
theorem entries_le (h : Housed count share hash c) : c.stats.entries ≤ c.stats.usage := by
  rw [stats_entries, h.usage_eq, ← List.length_map (·.2.weight)]
  refine List.length_le_sum_of_one_le _ fun n hn => ?_
  obtain ⟨e, he, rfl⟩ := List.mem_map.1 hn
  obtain ⟨s, hs, he⟩ := List.mem_flatMap.1 he
  obtain ⟨i, hi⟩ := h.held_of_mem hs
  exact hi.weight_pos e he

end Housed

end LruCache

/-! ## Calls -/

variable [DecidableEq κ]

namespace UseList

variable {k : κ} {l : List (Use κ α)} {u : Use κ α}

theorem mem_lookup (h : u ∈ (lookup l k).1) : u ∈ l := by
  unfold lookup at h
  cases hf : l.find? (·.key == k) with
  | none => simpa [hf] using h
  | some x =>
    rw [hf] at h
    rcases List.mem_append.1 h with h | h
    · exact List.mem_of_mem_filter h
    · exact List.mem_singleton.1 h ▸ List.mem_of_find?_eq_some hf

theorem mem_insert {capacity charge : Nat} {value : α}
    (h : u ∈ (insert capacity l k value charge).1) : u ∈ l ∨ u.key = k ∧ 0 < u.charge := by
  unfold insert at h
  split_ifs at h with hc
  · exact .inl h
  · rcases List.mem_append.1 h with h | h
    · exact .inl (List.mem_of_mem_filter ((shed_suffix _ _ _).mem h))
    · rw [List.mem_singleton.1 h]
      exact .inr ⟨rfl, Nat.pos_of_ne_zero fun h0 => hc (.inl h0)⟩

/-- What a call adds is under its key, and charged for. -/
theorem mem_call {capacity : Nat} {c : CacheCall κ α} (h : u ∈ (call capacity l c).1) :
    u ∈ l ∨ u.key = c.key ∧ 0 < u.charge := by
  cases c with
  | insert k value charge => exact mem_insert h
  | lookup k => exact .inl (mem_lookup h)
  | erase k => exact .inl (List.mem_of_mem_filter h)

end UseList

namespace LruCache

/-- A value that is shared with others is inserted like any other. -/
def call (c : LruCache κ α) : CacheCall κ α → LruCache κ α × CacheAnswer α
  | .insert k value charge => ((c.insert k value charge).1, .done (c.insert k value charge).2)
  | .lookup k => ((c.lookup k).1, .found (c.lookup k).2)
  | .erase k => ((c.erase k).1, .done (c.erase k).2)

section Call

variable {c : LruCache κ α} {i : Nat}

/-- A call is a call of the shard of its key. -/
theorem exists_call (hpos : 0 < c.shards.length) (call : CacheCall κ α) :
    ∃ s, c.shards[c.index call.key]? = some s
      ∧ c.call call = ({ c with shards := c.shards.set (c.index call.key) (s.call call).1 },
        (s.call call).2) := by
  obtain ⟨s, hs⟩ := exists_shard hpos call.key
  refine ⟨s, hs, ?_⟩
  cases call with
  | insert k value charge =>
    simp only [LruCache.call, LruCache.insert, onShard_of_some (k := k) hs]
    rfl
  | lookup k =>
    simp only [LruCache.call, LruCache.lookup, onShard_of_some (k := k) hs]
    rfl
  | erase k =>
    simp only [LruCache.call, LruCache.erase, onShard_of_some (k := k) hs]
    rfl

theorem shards_call_of_ne (hpos : 0 < c.shards.length) {call : CacheCall κ α}
    (hi : i ≠ c.index call.key) : (c.call call).1.shards[i]? = c.shards[i]? := by
  obtain ⟨s, -, heq⟩ := exists_call hpos call
  rw [heq, List.getElem?_set_ne hi.symm]

end Call

section Run

variable {count share : Nat} {hash : κ → Nat} {c : LruCache κ α}

/-- A call keeps every key in its shard, and every shard within its share. -/
theorem Housed.call (h : Housed count share hash c) (hpos : 0 < count) (call : CacheCall κ α) :
    Housed count share hash (c.call call).1 := by
  obtain ⟨s, hs, heq⟩ := exists_call (h.length_eq.symm ▸ hpos) call
  have hindex : (c.call call).1.index = c.index := by
    funext k
    simp only [heq, index, List.length_set]
  refine ⟨by rw [heq, ← h.hash_eq], by rw [heq, List.length_set, h.length_eq], ?_⟩
  intro i s' hs'
  rw [hindex]
  by_cases hi : i = c.index call.key
  · subst hi
    obtain ⟨u, hu, hkeys⟩ := h.shows hs
    rw [heq, List.getElem?_set_self (List.getElem?_eq_some_iff.1 hs).1] at hs'
    obtain rfl := Option.some.inj hs'
    refine ⟨_, (hu.call call).1, fun x hx => ?_⟩
    rcases UseList.mem_call hx with hx | ⟨hkey, hcharge⟩
    · exact hkeys x hx
    · exact ⟨congrArg c.index hkey, hcharge⟩
  · rw [heq, List.getElem?_set_ne (Ne.symm hi)] at hs'
    exact h.shows hs'

/-- A lookup finds what is held, whichever shard holds it. -/
theorem Housed.lookup_iff (h : Housed count share hash c) (hpos : 0 < count) (k : κ) (value : α) :
    (c.lookup k).2 = some value ↔ ∃ e, (k, e) ∈ c.entries ∧ e.value = value := by
  obtain ⟨s, hs⟩ := exists_shard (h.length_eq.symm ▸ hpos) k
  have hlookup : (c.lookup k).2 = (s.map.touch k).2 :=
    congrArg Prod.snd (onShard_of_some hs none (·.lookup k))
  rw [hlookup, Recency.touch_value, Option.map_eq_some_iff]
  refine exists_congr fun e => and_congr_left fun _ => ?_
  rw [← Assoc.mem_toList_iff, entries, List.mem_flatMap]
  refine ⟨fun he => ⟨s, List.mem_of_getElem? hs, he⟩, fun ⟨s', hmem, he⟩ => ?_⟩
  obtain ⟨i, hi⟩ := List.mem_iff_getElem?.1 hmem
  obtain rfl := (h.held hi).index_eq _ he
  rw [hs] at hi
  exact Option.some.inj hi ▸ he

/-- After any calls, the number of shards is the least power of two that is enough, and a hash
selects one of them. Every entry is with the shard that its key selects, no key is held twice, and
lookups find what is held. A call changes no shard but that of its key. Entries and usage are those
of all shards; the usage keeps to what the shares add up to, which is below the capacity and the
number of shards, so no sum leaves the range of a word. -/
theorem shards_share_nothing (capacity requested : Nat) (small : capacity < 2 ^ 63)
    (few : requested ≤ 2 ^ 32) (hash : κ → Nat) (calls : List (CacheCall κ α)) :
    let run := (callAll LruCache.call (LruCache.new capacity requested hash) calls).1
    let count := run.shardCount
    IsLeast {n | (∃ j, n = 2 ^ j) ∧ max requested 1 ≤ n} count
      ∧ (∀ k, run.index k = hash k % count)
      ∧ (∀ i s, run.shards[i]? = some s → ∀ k ∈ s.map.entries.keys, run.index k = i)
      ∧ (run.entries.map (·.1)).Nodup
      ∧ (∀ k value, (run.lookup k).2 = some value ↔ ∃ e, (k, e) ∈ run.entries ∧ e.value = value)
      ∧ (∀ (c : CacheCall κ α) i, i ≠ run.index c.key →
          (run.call c).1.shards[i]? = run.shards[i]?)
      ∧ run.stats.entries = run.entries.length
      ∧ run.stats.usage = (run.entries.map (·.2.weight)).sum
      ∧ run.stats.usage ≤ count * (capacity ⌈/⌉ count)
      ∧ run.stats.usage < capacity + count
      ∧ run.stats.entries ≤ word64Max ∧ run.stats.usage ≤ word64Max
      ∧ ∀ s ∈ run.shards, ∀ charge ≤ s.capacity, s.map.total + charge ≤ word64Max := by
  intro run count
  have hpos : 0 < 2 ^ ceilLog2 (max requested 1) := Nat.two_pow_pos _
  have hrun : Housed _ _ hash run := (callAll_forall (P := Housed _ _ hash) (Q := fun _ => True)
    (fun _ c h => ⟨h.call hpos c, trivial⟩) calls (.new capacity requested hash)).1
  have hcount : count = 2 ^ ceilLog2 (max requested 1) := hrun.length_eq
  have hleast : IsLeast {n | (∃ j, n = 2 ^ j) ∧ max requested 1 ≤ n} count := by
    have hlog : ∀ j, ceilLog2 (max requested 1) ≤ j ↔ max requested 1 ≤ 2 ^ j := fun j => by
      rw [ceilLog2_le_iff, Nat.one_shiftLeft]
    refine ⟨⟨⟨_, hcount⟩, hcount ▸ (hlog _).1 (Nat.le_refl _)⟩, ?_⟩
    rintro _ ⟨⟨j, rfl⟩, hj⟩
    exact hcount ▸ Nat.pow_le_pow_right Nat.two_pos ((hlog j).2 hj)
  have hfew : count ≤ 2 ^ 32 := hleast.2 ⟨⟨32, rfl⟩, max_le few Nat.one_le_two_pow⟩
  rw [← hcount] at hrun hpos
  have hle := hrun.usage_le
  have hshares : count * (capacity ⌈/⌉ count) < capacity + count := by
    rw [Nat.ceilDiv_eq_add_pred_div]
    have hsum : 0 < capacity + count := Nat.add_pos_right _ hpos
    exact Nat.lt_of_le_of_lt (Nat.mul_div_le _ _) (Nat.sub_lt hsum Nat.one_pos)
  have husage : run.stats.usage < capacity + count := Nat.lt_of_le_of_lt hle hshares
  have hword : run.stats.usage ≤ word64Max := by
    simp only [word64Max]
    omega
  refine ⟨hleast, fun k => ?_, fun i s hs k hk => ?_, hrun.nodup_keys, hrun.lookup_iff hpos,
    fun c i => shards_call_of_ne (hrun.length_eq.symm ▸ hpos), stats_entries run, hrun.usage_eq,
    hle, husage, Nat.le_trans hrun.entries_le hword, hword, fun s hs charge hcharge => ?_⟩
  · rw [hcount, ← Nat.and_two_pow_sub_one_eq_mod, ← hcount, ← hrun.hash_eq, ← hrun.length_eq]
    rfl
  · obtain ⟨e, he, rfl⟩ := List.mem_map.1 hk
    exact (hrun.held hs).index_eq e he
  · obtain ⟨i, hi⟩ := hrun.held_of_mem hs
    have hshare : capacity ⌈/⌉ count ≤ capacity :=
      (ceilDiv_le_iff_le_mul hpos).2 (Nat.le_mul_of_pos_left _ hpos)
    have htotal := hi.total_le
    have hcap := hi.capacity_eq
    simp only [word64Max]
    omega

/-- In four shards the keys 1 and 5 are together, where there is room for a charge of 3 only, and
nowhere is there room for one of 4. -/
def crowded : LruCache Nat Char :=
  (callAll LruCache.call (.new 10 3 id)
    [.insert 1 'a' 2, .insert 2 'b' 3, .insert 5 'c' 2, .insert 7 'd' 4, .lookup 2]).1

theorem shards_share_nothing_crowded : 10 < 2 ^ 63 ∧ 3 ≤ 2 ^ 32
    ∧ crowded.shardCount = 4 ∧ crowded.stats = ⟨2, 5, 10⟩
    ∧ (crowded.entries.map (·.1)).Nodup
    ∧ crowded.stats.usage = (crowded.entries.map (·.2.weight)).sum
    ∧ crowded.stats.usage < 10 + crowded.shardCount := by
  obtain ⟨-, -, -, hnodup, -, -, -, husage, -, hlt, -⟩ :=
    shards_share_nothing 10 3 (by decide) (by decide) id
      [.insert 1 'a' 2, .insert 2 'b' 3, .insert 5 'c' 2, .insert 7 'd' 4, .lookup 2]
  exact ⟨by decide, by decide, by decide, by decide, hnodup, husage, hlt⟩

end Run

end LruCache

end QueryHost
