import Mathlib.Data.List.Nodup
import QueryHost.Assoc

/-!
# The rows of a finite map

Up to their order, the rows of a map are the row of a key and the rows of the map without the key
(`perm_cons_erase`), and giving a key a value exchanges its row (`toList_put_perm`). So what is
counted or summed over the rows changes by the row of one key (`countP_values_put`,
`countP_values_erase`).
-/

namespace QueryHost

namespace Assoc

variable {κ α : Type}

theorem nodup_toList (m : Assoc κ α) : m.toList.Nodup :=
  List.Nodup.of_map _ m.nodup_keys

variable [DecidableEq κ]

/-- The rows of a map are what `get?` gives. -/
theorem mem_toList_iff (m : Assoc κ α) (k : κ) (a : α) :
    (k, a) ∈ m.toList ↔ m.get? k = some a := by
  constructor
  · intro h
    have hnd := m.nodup_keys
    unfold get?
    generalize m.toList = l at h hnd
    induction l with
    | nil => simp at h
    | cons e l ih =>
      simp only [List.map_cons, List.nodup_cons] at hnd
      rcases List.mem_cons.1 h with rfl | h
      · simp
      · have hne : e.1 ≠ k := by
          rintro rfl
          exact hnd.1 (List.mem_map.2 ⟨_, h, rfl⟩)
        simp only [List.find?_cons, hne, decide_false]
        exact ih h hnd.2
  · intro h
    obtain ⟨e, he, rfl⟩ := Option.map_eq_some_iff.1 h
    have hk : e.1 = k := by simpa using List.find?_some he
    exact hk ▸ List.mem_of_find?_eq_some he

theorem filter_key_ne_self {l : List (κ × α)} {k : κ} (h : k ∉ l.map (·.1)) :
    (l.filter fun e => e.1 != k) = l := by
  rw [List.filter_eq_self]
  intro e he
  simp only [bne_iff_ne, ne_eq]
  rintro rfl
  exact h (List.mem_map.2 ⟨e, he, rfl⟩)

theorem toList_erase_of_get?_none {m : Assoc κ α} {k : κ} (h : m.get? k = none) :
    (m.erase k).toList = m.toList :=
  filter_key_ne_self ((get?_eq_none_iff m k).1 h)

theorem erase_put_of_none {m : Assoc κ α} {k : κ} (a : α) (h : m.get? k = none) :
    (m.put k a).erase k = m := by
  have hk := (get?_eq_none_iff m k).1 h
  have hrows : ((m.put k a).erase k).toList = m.toList := by
    rw [put, dif_neg hk]
    calc (m.toList ++ [(k, a)]).filter (fun e => e.1 != k)
        = m.toList.filter (fun e => e.1 != k) ++ [(k, a)].filter (fun e => e.1 != k) :=
          List.filter_append ..
      _ = m.toList := by simp [filter_key_ne_self hk]
  cases m
  rwa [Assoc.mk.injEq]

theorem nodup_cons_erase (m : Assoc κ α) (k : κ) (a : α) :
    ((k, a) :: (m.erase k).toList).Nodup := by
  refine List.nodup_cons.2 ⟨fun h => ?_, nodup_toList _⟩
  rw [mem_toList_iff, get?_erase] at h
  simp at h

theorem perm_cons_erase {m : Assoc κ α} {k : κ} {a : α} (h : m.get? k = some a) :
    m.toList.Perm ((k, a) :: (m.erase k).toList) := by
  refine (List.perm_ext_iff_of_nodup m.nodup_toList (nodup_cons_erase m k a)).2 ?_
  rintro ⟨k', b⟩
  rw [List.mem_cons, mem_toList_iff, mem_toList_iff, get?_erase, Prod.mk.injEq]
  by_cases hk : k' = k
  · subst hk
    simp [h, eq_comm]
  · simp [hk]

theorem toList_put_perm (m : Assoc κ α) (k : κ) (a : α) :
    (m.put k a).toList.Perm ((k, a) :: (m.erase k).toList) := by
  refine (List.perm_ext_iff_of_nodup (nodup_toList _) (nodup_cons_erase m k a)).2 ?_
  rintro ⟨k', b⟩
  rw [List.mem_cons, mem_toList_iff, mem_toList_iff, get?_put, get?_erase, Prod.mk.injEq]
  by_cases hk : k' = k
  · simp [hk, eq_comm]
  · simp [hk]

/-! ## Keys -/

theorem contains_eq_decide (m : Assoc κ α) (k : κ) : m.contains k = decide (k ∈ m.keys) := by
  rw [contains, Bool.eq_iff_iff, decide_eq_true_iff, Option.isSome_iff_ne_none, ne_eq,
    get?_eq_none_iff, not_not, keys]

/-- A key that is there keeps its place, a new one comes last. -/
theorem keys_put (m : Assoc κ α) (k : κ) (a : α) :
    (m.put k a).keys = if k ∈ m.keys then m.keys else m.keys ++ [k] := by
  unfold put keys
  split
  · simp [modify, mapValues, Function.comp_def]
  · simp

/-! ## Values -/

theorem mem_values_iff (m : Assoc κ α) (a : α) : a ∈ m.values ↔ ∃ k, m.get? k = some a := by
  constructor
  · intro h
    obtain ⟨e, he, rfl⟩ := List.mem_map.1 h
    exact ⟨e.1, (mem_toList_iff m e.1 e.2).1 he⟩
  · rintro ⟨k, hk⟩
    exact List.mem_map.2 ⟨(k, a), (mem_toList_iff m k a).2 hk, rfl⟩

/-- No value is twice in the map if no two keys have the same one. -/
theorem nodup_values {m : Assoc κ α}
    (h : ∀ k k' a, m.get? k = some a → m.get? k' = some a → k = k') :
    m.values.Nodup := by
  refine List.Nodup.map_on ?_ m.nodup_toList
  rintro ⟨k, a⟩ hk ⟨k', a'⟩ hk' (rfl : a = a')
  rw [h k k' a ((mem_toList_iff m k a).1 hk) ((mem_toList_iff m k' a).1 hk')]

/-! ## Counting values -/

theorem values_perm {m : Assoc κ α} {k : κ} {a : α} (h : m.get? k = some a) :
    m.values.Perm (a :: (m.erase k).values) := (perm_cons_erase h).map Prod.snd

theorem values_put_perm (m : Assoc κ α) (k : κ) (a : α) :
    (m.put k a).values.Perm (a :: (m.erase k).values) := (toList_put_perm m k a).map Prod.snd

theorem values_put_perm_of_none {m : Assoc κ α} {k : κ} (a : α) (h : m.get? k = none) :
    (m.put k a).values.Perm (a :: m.values) := by
  have := values_put_perm m k a
  rwa [values, values, toList_erase_of_get?_none h] at this

theorem countP_values_erase {m : Assoc κ α} {k : κ} {a : α} (p : α → Bool)
    (h : m.get? k = some a) :
    m.values.countP p = (m.erase k).values.countP p + if p a then 1 else 0 := by
  rw [(values_perm h).countP_eq p, List.countP_cons]

theorem countP_values_put_of_none {m : Assoc κ α} {k : κ} (p : α → Bool) (b : α)
    (h : m.get? k = none) :
    (m.put k b).values.countP p = m.values.countP p + if p b then 1 else 0 := by
  rw [(values_put_perm_of_none b h).countP_eq p, List.countP_cons]

theorem countP_values_put {m : Assoc κ α} {k : κ} {a : α} (p : α → Bool) (b : α)
    (h : m.get? k = some a) :
    (m.put k b).values.countP p + (if p a then 1 else 0)
      = m.values.countP p + if p b then 1 else 0 := by
  rw [countP_values_erase p h, (values_put_perm m k b).countP_eq p, List.countP_cons]
  omega

omit [DecidableEq κ] in
theorem size_eq_countP (m : Assoc κ α) : m.size = m.values.countP fun _ => true := by
  simp [size, values]

end Assoc

end QueryHost
