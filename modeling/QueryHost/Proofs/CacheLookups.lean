import QueryHost.Proofs.LruCaches

/-!
# What a cache gives

What a cache gives for a key is what was put under it last and taken, and no call changes that but
one of the key (`LruCache.lookup_insert`, `LruCache.lookup_lookup`, `LruCache.lookup_erase`); all
that room costs is entries.
-/

namespace QueryHost

variable {κ α : Type} [DecidableEq κ]

namespace Recency

variable {m : Recency κ α} {k k' : κ} {e : Stamped α} {bound : Nat}

theorem get?_of_trimOrder : ∀ {order : List (Nat × κ)} {m : Recency κ α},
    (trimOrder bound m order).entries.get? k = some e → m.entries.get? k = some e
  | [], _, h => h
  | (_, k') :: order, m, h => by
    simp only [trimOrder] at h
    split_ifs at h with hfits
    · exact h
    · have hrest := get?_of_trimOrder h
      rw [Assoc.get?_erase] at hrest
      split_ifs at hrest
      exact hrest

theorem get?_erase (m : Recency κ α) (k k' : κ) :
    (m.erase k).1.entries.get? k' = if k' = k then none else m.entries.get? k' := by
  unfold Recency.erase
  split
  · rename_i hnone
    split_ifs with hk
    · exact hk ▸ hnone
    · rfl
  · exact Assoc.get?_erase m.entries k k'

/-- The values of a map are not changed by looking. -/
theorem values_touch (m : Recency κ α) (k k' : κ) :
    ((m.touch k).1.entries.get? k').map (·.value) = (m.entries.get? k').map (·.value) := by
  unfold touch
  dsimp only
  split
  · rfl
  · rename_i e he
    rw [Assoc.get?_put]
    split_ifs with hk
    · rw [hk, he]
      rfl
    · rfl

end Recency

namespace LruShard

variable {s : LruShard κ α} {k k' : κ} {value : α} {charge : Nat} {e : Stamped α}

theorem insert_ok_iff : (s.insert k value charge).2 = true ↔ charge ≠ 0 ∧ charge ≤ s.capacity := by
  unfold LruShard.insert
  split_ifs with hc
  · exact iff_of_false (by simp) (by omega)
  · exact iff_of_true rfl (by omega)

theorem insert_refused (h : (s.insert k value charge).2 = false) :
    (s.insert k value charge).1 = s := by
  unfold LruShard.insert at h ⊢
  split_ifs with hc
  · rfl
  · rw [if_neg hc] at h
    exact nomatch h

/-- A shard that takes an entry holds it, and of the others some that it held. -/
theorem get?_insert (h : (s.insert k value charge).2 = true) :
    (∃ stamp, (s.insert k value charge).1.map.entries.get? k = some ⟨value, charge, stamp⟩)
      ∧ ∀ k' e, k' ≠ k → (s.insert k value charge).1.map.entries.get? k' = some e →
        s.map.entries.get? k' = some e := by
  have hc : ¬(charge = 0 ∨ s.capacity < charge) := by
    have := insert_ok_iff.1 h
    omega
  unfold LruShard.insert
  rw [if_neg hc]
  refine ⟨⟨_, (Assoc.get?_put _ _ _ _).trans (if_pos rfl)⟩, fun k' e hk he => ?_⟩
  have hroom := Recency.get?_of_trimOrder
    (((Assoc.get?_put _ _ _ _).trans (if_neg hk)).symm.trans he)
  rw [Recency.get?_erase, if_neg hk] at hroom
  exact hroom

end LruShard

/-! ## What a cache gives -/

namespace LruCache

variable {c : LruCache κ α} {k k' : κ} {s : LruShard κ α} {value value' : α} {charge : Nat}

theorem lookup_of_shard (h : c.shards[c.index k]? = some s) :
    (c.lookup k).2 = (s.map.entries.get? k).map (·.value) :=
  (congrArg Prod.snd (onShard_of_some h none (·.lookup k))).trans (Recency.touch_value s.map k)

theorem lookup_new (capacity requested : Nat) (hash : κ → Nat) (k : κ) :
    ((LruCache.new capacity requested hash : LruCache κ α).lookup k).2 = none := by
  have hpos : 0 < (LruCache.new capacity requested hash : LruCache κ α).shards.length := by
    simp only [LruCache.new, List.length_replicate, Nat.one_shiftLeft]
    exact Nat.two_pow_pos _
  obtain ⟨s, hs⟩ := exists_shard hpos k
  have hempty := List.eq_of_mem_replicate (List.mem_of_getElem? hs)
  rw [lookup_of_shard hs, hempty]
  rfl

/-- After a shard was exchanged, its keys are looked up in the new one and the others where they
were. -/
theorem lookup_set (hpos : 0 < c.shards.length) (k k' : κ) (s : LruShard κ α) :
    (lookup { c with shards := c.shards.set (c.index k) s } k').2
      = if c.index k' = c.index k then (s.map.entries.get? k').map (·.value)
        else (c.lookup k').2 := by
  have hindex : index { c with shards := c.shards.set (c.index k) s } k' = c.index k' := by
    simp only [index, List.length_set]
  split_ifs with h
  · refine lookup_of_shard ?_
    rw [hindex, h]
    exact List.getElem?_set_self (index_lt hpos k)
  · obtain ⟨t, ht⟩ := exists_shard hpos k'
    rw [lookup_of_shard ht]
    refine lookup_of_shard ?_
    rw [hindex]
    exact (List.getElem?_set_ne (Ne.symm h)).trans ht

theorem lookup_lookup (hpos : 0 < c.shards.length) (k k' : κ) :
    ((c.lookup k).1.lookup k').2 = (c.lookup k').2 := by
  obtain ⟨s, hs⟩ := exists_shard hpos k
  have hlooked : (c.lookup k).1 = { c with shards := c.shards.set (c.index k) (s.lookup k).1 } :=
    congrArg Prod.fst (onShard_of_some hs none (·.lookup k))
  rw [hlooked, lookup_set hpos]
  split_ifs with h
  · rw [lookup_of_shard (h ▸ hs)]
    exact Recency.values_touch s.map k k'
  · rfl

theorem insert_of_shard (h : c.shards[c.index k]? = some s) : c.insert k value charge
    = ({ c with shards := c.shards.set (c.index k) (s.insert k value charge).1 },
      (s.insert k value charge).2) :=
  onShard_of_some h false (·.insert k value charge)

theorem insert_refused (hpos : 0 < c.shards.length) (h : (c.insert k value charge).2 = false) :
    (c.insert k value charge).1 = c := by
  obtain ⟨s, hs⟩ := exists_shard hpos k
  rw [insert_of_shard hs] at h ⊢
  obtain ⟨hi, hget⟩ := List.getElem?_eq_some_iff.1 hs
  rw [LruShard.insert_refused h, ← hget, List.set_getElem_self]

/-- A cache that takes a value gives it under its key, and under another key what it gave, if
anything. -/
theorem lookup_insert (hpos : 0 < c.shards.length) (h : (c.insert k value charge).2 = true) :
    ((c.insert k value charge).1.lookup k).2 = some value
      ∧ ∀ k' value', k' ≠ k → ((c.insert k value charge).1.lookup k').2 = some value' →
        (c.lookup k').2 = some value' := by
  obtain ⟨s, hs⟩ := exists_shard hpos k
  rw [insert_of_shard hs] at h ⊢
  obtain ⟨⟨stamp, hself⟩, hothers⟩ := LruShard.get?_insert h
  refine ⟨?_, fun k' value' hk hfound => ?_⟩
  · rw [lookup_set hpos, if_pos rfl, hself]
    rfl
  · rw [lookup_set hpos] at hfound
    split_ifs at hfound with hindex
    · obtain ⟨e, he, rfl⟩ := Option.map_eq_some_iff.1 hfound
      rw [lookup_of_shard (hindex ▸ hs), hothers k' e hk he]
      rfl
    · exact hfound

/-- What is erased is not found any more, and all else is. -/
theorem lookup_erase (hpos : 0 < c.shards.length) (k k' : κ) :
    ((c.erase k).1.lookup k').2 = if k' = k then none else (c.lookup k').2 := by
  obtain ⟨s, hs⟩ := exists_shard hpos k
  have herased : (c.erase k).1 = { c with shards := c.shards.set (c.index k) (s.erase k).1 } :=
    congrArg Prod.fst (onShard_of_some hs false (·.erase k))
  have hvalue : ((s.erase k).1.map.entries.get? k').map (·.value)
      = if k' = k then none else (s.map.entries.get? k').map (·.value) := by
    rw [LruShard.erase, Recency.get?_erase, apply_ite (Option.map _)]
    rfl
  rw [herased, lookup_set hpos, hvalue]
  split_ifs with hindex hk hk
  · rfl
  · rw [lookup_of_shard (hindex ▸ hs)]
  · exact absurd (hk ▸ rfl) hindex
  · rfl

/-- To look for what is not there leaves all entries as they are. -/
theorem entries_lookup_of_none (hpos : 0 < c.shards.length) (h : (c.lookup k).2 = none) :
    (c.lookup k).1.entries = c.entries := by
  obtain ⟨s, hs⟩ := exists_shard hpos k
  have hlooked : (c.lookup k).1 = { c with shards := c.shards.set (c.index k) (s.lookup k).1 } :=
    congrArg Prod.fst (onShard_of_some hs none (·.lookup k))
  have hnone : s.map.entries.get? k = none := by
    rwa [lookup_of_shard hs, Option.map_eq_none_iff] at h
  have hsame : (s.lookup k).1.map.entries.toList = s.map.entries.toList := by
    simp only [LruShard.lookup, Recency.touch, hnone]
  obtain ⟨hi, rfl⟩ := List.getElem?_eq_some_iff.1 hs
  rw [hlooked, entries, entries, List.flatMap_def, List.flatMap_def, List.map_set, hsame,
    ← List.map_set, List.set_getElem_self]

theorem Housed.insert_ok_iff {count share : Nat} {hash : κ → Nat} (h : Housed count share hash c)
    (hpos : 0 < count) : (c.insert k value charge).2 = true ↔ charge ≠ 0 ∧ charge ≤ share := by
  obtain ⟨s, hs⟩ := exists_shard (h.length_eq.symm ▸ hpos) k
  rw [insert_of_shard hs, ← (h.held hs).capacity_eq]
  exact LruShard.insert_ok_iff

end LruCache

end QueryHost
