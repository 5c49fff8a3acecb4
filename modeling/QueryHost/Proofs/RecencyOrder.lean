import Mathlib.Algebra.BigOperators.Group.List.Basic
import Mathlib.Algebra.Ring.Nat
import Mathlib.Data.List.Infix
import Mathlib.Data.List.Nodup
import QueryHost.Cache.Recency
import QueryHost.Proofs.AssocRows

/-!
# Entries in the order of their use

A recency map keeps its entries, the order of their stamps and their total weight apart. `Lists`
says that the three agree on one list of stamped entries, oldest first, and each operation does to
that list what it is meant to do: `touch` moves an entry to the end, `erase` takes one out, `push`
adds one at the end (`Lists.newest`), `trim` drops as few of the first entries as make the rest
light enough (`Lists.trim`).
-/

namespace QueryHost

/-- What remains of a list when as few of its first elements are dropped as give a total weight that
fits. -/
def shed {β : Type} (weight : β → Nat) (fits : Nat → Bool) (l : List β) : List β :=
  (l.tails.find? fun rest => fits (rest.map weight).sum).getD []

section Shed

variable {β γ : Type} (weight : β → Nat) (fits : Nat → Bool)

theorem shed_cons (b : β) (l : List β) :
    shed weight fits (b :: l)
      = if fits ((b :: l).map weight).sum then b :: l else shed weight fits l := by
  unfold shed
  rw [List.tails_cons, List.find?_cons]
  split <;> simp_all

theorem shed_nil : shed weight fits [] = [] := by
  unfold shed
  simp only [List.tails, List.find?_cons]
  split <;> rfl

theorem shed_suffix : ∀ l : List β, shed weight fits l <:+ l
  | [] => by simp [shed_nil]
  | b :: l => by
    rw [shed_cons]
    split
    · exact List.suffix_refl _
    · exact (shed_suffix l).trans (List.suffix_cons b l)

theorem map_shed (f : γ → β) : ∀ l : List γ,
    (shed (weight ∘ f) fits l).map f = shed weight fits (l.map f)
  | [] => by simp [shed_nil]
  | c :: l => by
    rw [shed_cons, ← List.map_map, List.map_cons, shed_cons]
    split
    · rfl
    · exact map_shed f l

theorem shed_congr {weight weight' : β → Nat} : ∀ {l : List β},
    (∀ b ∈ l, weight b = weight' b) → shed weight fits l = shed weight' fits l
  | [], _ => by rw [shed_nil, shed_nil]
  | b :: l, h => by
    rw [shed_cons, shed_cons, List.map_congr_left h,
      shed_congr fun c hc => h c (List.mem_cons_of_mem b hc)]

/-- The rest fits as soon as nothing does. -/
theorem fits_shed (h : fits 0) : ∀ l : List β, fits ((shed weight fits l).map weight).sum
  | [] => by simpa [shed_nil] using h
  | b :: l => by
    rw [shed_cons]
    split
    · assumption
    · exact fits_shed h l

end Shed

/-- An entry as its user knows it. -/
structure Use (κ α : Type) where
  key : κ
  value : α
  charge : Nat
  deriving DecidableEq, Repr

namespace Recency

variable {κ α : Type} [DecidableEq κ]

/-- The entries, least recently used first. -/
def uses (m : Recency κ α) : List (Use κ α) :=
  m.order.filterMap fun o => (m.entries.get? o.2).map fun e => ⟨o.2, e.value, e.weight⟩

def useOf (e : κ × Stamped α) : Use κ α := ⟨e.1, e.2.value, e.2.weight⟩

theorem touch_total (m : Recency κ α) (k : κ) : (m.touch k).1.total = m.total := by
  unfold touch
  dsimp only
  split <;> rfl

theorem touch_value (m : Recency κ α) (k : κ) :
    (m.touch k).2 = (m.entries.get? k).map (·.value) := by
  unfold touch
  dsimp only
  split <;> simp_all

theorem erase_total_le (m : Recency κ α) (k : κ) : (m.erase k).1.total ≤ m.total := by
  unfold Recency.erase
  split
  · exact Nat.le_refl _
  · exact Nat.sub_le _ _

/-- The entries of `m` are those of `l`, which is in the order of their stamps. -/
structure Lists (m : Recency κ α) (l : List (κ × Stamped α)) : Prop where
  order_eq : m.order = l.map fun e => (e.2.stamp, e.1)
  entries_perm : m.entries.toList.Perm l
  sorted : l.Pairwise fun a b => a.2.stamp < b.2.stamp
  le_clock : ∀ e ∈ l, e.2.stamp ≤ m.clock
  total_eq : m.total = (l.map fun e => e.2.weight).sum

section Lists

variable {m : Recency κ α} {l : List (κ × Stamped α)} {k : κ} {e : Stamped α}

theorem Lists.get?_iff (h : Lists m l) : m.entries.get? k = some e ↔ (k, e) ∈ l := by
  rw [← Assoc.mem_toList_iff, h.entries_perm.mem_iff]

omit [DecidableEq κ] in
theorem Lists.nodup_keys (h : Lists m l) : (l.map (·.1)).Nodup :=
  (h.entries_perm.map _).nodup_iff.1 m.entries.nodup_keys

omit [DecidableEq κ] in
theorem Lists.nodup_stamps (h : Lists m l) : (l.map fun e => e.2.stamp).Nodup :=
  (List.pairwise_map.2 h.sorted).imp Nat.ne_of_lt

theorem Lists.get?_none_iff (h : Lists m l) :
    m.entries.get? k = none ↔ k ∉ l.map (·.1) := by
  rw [Assoc.get?_eq_none_iff, (h.entries_perm.map _).mem_iff]

theorem Lists.filter_key_of_none (h : Lists m l) (hk : m.entries.get? k = none) :
    (l.filter fun e => e.1 != k) = l :=
  Assoc.filter_key_ne_self (h.get?_none_iff.1 hk)

theorem Lists.uses_eq (h : Lists m l) : m.uses = l.map useOf := by
  unfold uses
  rw [h.order_eq, List.filterMap_map, ← List.filterMap_eq_map]
  refine List.filterMap_congr fun e he => ?_
  simp [h.get?_iff.2 he, useOf]

/-- A key is found in the list as it is in the map. -/
theorem Lists.find?_use (h : Lists m l) (k : κ) :
    (l.map useOf).find? (·.key == k)
      = (m.entries.get? k).map fun e => ⟨k, e.value, e.weight⟩ := by
  cases hf : (l.map useOf).find? (·.key == k) with
  | none =>
    have hk : m.entries.get? k = none := by
      refine h.get?_none_iff.2 fun hk => ?_
      obtain ⟨x, hx, rfl⟩ := List.mem_map.1 hk
      exact List.find?_eq_none.1 hf (useOf x) (List.mem_map_of_mem hx) (beq_self_eq_true x.1)
    rw [hk]
    rfl
  | some u =>
    obtain ⟨⟨k', e⟩, hx, rfl⟩ := List.mem_map.1 (List.mem_of_find?_eq_some hf)
    obtain rfl : k' = k := by simpa [useOf] using List.find?_some hf
    rw [h.get?_iff.2 hx]
    rfl

/-- A stamp and a key tell the same entry. -/
theorem Lists.filter_stamp (h : Lists m l) (he : m.entries.get? k = some e) :
    (l.filter fun x => x.2.stamp != e.stamp) = l.filter fun x => x.1 != k := by
  refine List.filter_congr fun x hx => ?_
  have hmem := h.get?_iff.1 he
  have hiff : x.2.stamp = e.stamp ↔ x.1 = k :=
    ⟨fun hs => congrArg (·.1) (List.inj_on_of_nodup_map h.nodup_stamps hx hmem hs),
      fun hk => congrArg (·.2.stamp) (List.inj_on_of_nodup_map h.nodup_keys hx hmem hk)⟩
  rw [Bool.eq_iff_iff, bne_iff_ne, bne_iff_ne]
  exact not_congr hiff

theorem Lists.filter_order (h : Lists m l) (he : m.entries.get? k = some e) :
    m.order.filter (·.1 != e.stamp)
      = (l.filter fun x => x.1 != k).map fun x => (x.2.stamp, x.1) := by
  rw [h.order_eq, List.filter_map, ← h.filter_stamp he]
  rfl

theorem Lists.erase_perm (h : Lists m l) (k : κ) :
    (m.entries.erase k).toList.Perm (l.filter fun x => x.1 != k) :=
  h.entries_perm.filter _

theorem Lists.weight_eq (h : Lists m l) (he : m.entries.get? k = some e) :
    (l.map fun x => x.2.weight).sum
      = ((l.filter fun x => x.1 != k).map fun x => x.2.weight).sum + e.weight := by
  have hp := h.entries_perm.symm.trans (Assoc.perm_cons_erase he)
  have hq := hp.trans ((h.erase_perm k).cons (k, e))
  rw [(hq.map fun x => x.2.weight).sum_eq, List.map_cons, List.sum_cons, Nat.add_comm]

/-- A key gets a new entry, as the newest one. -/
theorem Lists.newest (h : Lists m l) (k : κ) (value : α) (weight : Nat) :
    Lists
      { entries := m.entries.put k ⟨value, weight, m.clock + 1⟩
        order := ((l.filter fun x => x.1 != k).map fun x => (x.2.stamp, x.1)) ++ [(m.clock + 1, k)]
        clock := m.clock + 1
        total := ((l.filter fun x => x.1 != k).map fun x => x.2.weight).sum + weight }
      ((l.filter fun x => x.1 != k) ++ [(k, ⟨value, weight, m.clock + 1⟩)]) where
  order_eq := by simp
  entries_perm := by
    refine (Assoc.toList_put_perm _ _ _).trans ?_
    exact ((h.erase_perm k).cons _).trans (List.perm_append_singleton _ _).symm
  sorted := by
    refine List.pairwise_append.2 ⟨h.sorted.filter _, List.pairwise_singleton _ _, ?_⟩
    intro a ha b hb
    rw [List.mem_singleton.1 hb]
    exact Nat.lt_succ_of_le (h.le_clock a (List.mem_filter.1 ha).1)
  le_clock x hx := by
    rcases List.mem_append.1 hx with hx | hx
    · exact Nat.le_succ_of_le (h.le_clock x (List.mem_filter.1 hx).1)
    · rw [List.mem_singleton.1 hx]
  total_eq := by simp

theorem Lists.touch_of_none (h : Lists m l) (hk : m.entries.get? k = none) :
    Lists (m.touch k).1 l ∧ (m.touch k).2 = none := by
  simp only [touch, hk, and_true]
  exact ⟨h.order_eq, h.entries_perm, h.sorted, fun e he => Nat.le_succ_of_le (h.le_clock e he),
    h.total_eq⟩

theorem Lists.touch_of_some (h : Lists m l) (he : m.entries.get? k = some e) :
    Lists (m.touch k).1
        ((l.filter fun x => x.1 != k) ++ [(k, ⟨e.value, e.weight, m.clock + 1⟩)])
      ∧ (m.touch k).2 = some e.value := by
  have hnew := h.newest k e.value e.weight
  have htotal := h.total_eq.trans (h.weight_eq he)
  rw [← htotal, ← h.filter_order he] at hnew
  simp only [touch, he, and_true]
  exact hnew

theorem Lists.erase (h : Lists m l) (k : κ) :
    Lists (m.erase k).1 (l.filter fun x => x.1 != k)
      ∧ (m.erase k).2 = (m.entries.get? k).isSome := by
  unfold Recency.erase
  cases he : m.entries.get? k with
  | none =>
    rw [h.filter_key_of_none he]
    exact ⟨h, rfl⟩
  | some e =>
    refine ⟨⟨h.filter_order he, h.erase_perm k, h.sorted.filter _,
      fun x hx => h.le_clock x (List.mem_filter.1 hx).1, ?_⟩, rfl⟩
    change m.total - e.weight = _
    rw [h.total_eq, h.weight_eq he, Nat.add_sub_cancel]

theorem Lists.push (h : Lists m l) (hk : m.entries.get? k = none) (value : α) (weight : Nat) :
    Lists (m.push k value weight) (l ++ [(k, ⟨value, weight, m.clock + 1⟩)]) := by
  have hnew := h.newest k value weight
  rw [h.filter_key_of_none hk, ← h.order_eq, ← h.total_eq] at hnew
  exact hnew

/-- A key gets a new entry in place of the one it may have had. -/
theorem Lists.replace (h : Lists m l) (k : κ) (value : α) (weight : Nat) :
    Lists ((m.erase k).1.push k value weight)
      ((l.filter fun x => x.1 != k) ++ [(k, ⟨value, weight, (m.erase k).1.clock + 1⟩)]) := by
  have herase := (h.erase k).1
  refine herase.push (herase.get?_none_iff.2 fun hk => ?_) value weight
  obtain ⟨x, hx, rfl⟩ := List.mem_map.1 hk
  simpa using (List.mem_filter.1 hx).2

/-- What stays when the oldest entry goes. -/
theorem Lists.drop_oldest (h : Lists m ((k, e) :: l)) :
    Lists
      { m with
        entries := m.entries.erase k
        order := l.map fun e => (e.2.stamp, e.1)
        total := m.total - e.weight } l := by
  have hnotin := (List.nodup_cons.1 h.nodup_keys).1
  have hrest : ((k, e) :: l).filter (fun x => x.1 != k) = l := by
    rw [List.filter_cons_of_neg (by simp), Assoc.filter_key_ne_self hnotin]
  refine ⟨rfl, hrest ▸ h.erase_perm k, (List.pairwise_cons.1 h.sorted).2,
    fun x hx => h.le_clock x (List.mem_cons_of_mem _ hx), ?_⟩
  change m.total - e.weight = _
  rw [h.total_eq, List.map_cons, List.sum_cons, Nat.add_sub_cancel_left]

/-- `trimOrder` drops from the map what `shed` drops from the list. -/
theorem trimOrder_lists (bound : Nat) : ∀ (l : List (κ × Stamped α)) (m : Recency κ α),
    Lists { m with order := l.map fun e => (e.2.stamp, e.1) } l →
      Lists (trimOrder bound m (l.map fun e => (e.2.stamp, e.1)))
        (shed (·.2.weight) (· ≤ bound) l)
  | [], m, h => by
    rw [shed_nil]
    exact h
  | (k, e) :: l, m, h => by
    have htotal : m.total = ((k, e) :: l |>.map fun e => e.2.weight).sum := h.total_eq
    rw [shed_cons, ← htotal, List.map_cons, trimOrder]
    simp only [decide_eq_true_eq]
    split_ifs with hle
    · exact h
    · have he : m.entries.get? k = some e := h.get?_iff.2 List.mem_cons_self
      simp only [he]
      exact trimOrder_lists bound l _ h.drop_oldest

theorem Lists.trim (h : Lists m l) (bound : Nat) :
    Lists (m.trim bound) (shed (·.2.weight) (· ≤ bound) l) := by
  unfold Recency.trim
  rw [h.order_eq]
  refine trimOrder_lists bound l m ?_
  rw [← h.order_eq]
  exact h

/-- What stays when a key is to get a new entry. -/
theorem Lists.room (h : Lists m l) (k : κ) (bound : Nat) :
    Lists ((m.erase k).1.trim bound)
        (shed (·.2.weight) (· ≤ bound) (l.filter fun x => x.1 != k))
      ∧ ((m.erase k).1.trim bound).entries.get? k = none
      ∧ ((m.erase k).1.trim bound).total ≤ bound := by
  have htrim := (h.erase k).1.trim bound
  refine ⟨htrim, htrim.get?_none_iff.2 fun hk => ?_, ?_⟩
  · obtain ⟨x, hx, rfl⟩ := List.mem_map.1 hk
    have := (List.mem_filter.1 ((shed_suffix _ _ _).mem hx)).2
    simp at this
  · rw [htrim.total_eq]
    simpa using fits_shed (fun x : κ × Stamped α => x.2.weight) (· ≤ bound) (by simp)
      (l.filter fun x => x.1 != k)

/-- Stamps and entries are in step. -/
theorem Lists.stamp_iff (h : Lists m l) (stamp : Nat) (k : κ) :
    (stamp, k) ∈ m.order ↔ ∃ e, m.entries.get? k = some e ∧ e.stamp = stamp := by
  rw [h.order_eq, List.mem_map]
  constructor
  · rintro ⟨⟨k', e⟩, he, heq⟩
    obtain ⟨rfl, rfl⟩ := Prod.mk.inj heq
    exact ⟨e, h.get?_iff.2 he, rfl⟩
  · rintro ⟨e, he, rfl⟩
    exact ⟨(k, e), h.get?_iff.1 he, rfl⟩

end Lists

end Recency

end QueryHost
