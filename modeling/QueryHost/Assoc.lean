/-!
# Finite maps

A finite map is a list of pairs whose keys are distinct. A new key comes last, a key that gets a new
value keeps its place. The operations are known by what they do to `get?` (`get?_put`,
`get?_erase`).
-/

namespace QueryHost

structure Assoc (κ α : Type) where
  toList : List (κ × α)
  nodup_keys : (toList.map (·.1)).Nodup

namespace Assoc

variable {κ α : Type}

def empty : Assoc κ α := ⟨[], List.nodup_nil⟩

instance : EmptyCollection (Assoc κ α) := ⟨empty⟩

instance : Inhabited (Assoc κ α) := ⟨{}⟩

instance [Repr κ] [Repr α] : Repr (Assoc κ α) := ⟨fun m n => reprPrec m.toList n⟩

instance [DecidableEq κ] [DecidableEq α] : DecidableEq (Assoc κ α) := fun a b =>
  decidable_of_iff (a.toList = b.toList) <| by cases a; cases b; simp

def keys (m : Assoc κ α) : List κ := m.toList.map (·.1)

def values (m : Assoc κ α) : List α := m.toList.map (·.2)

def size (m : Assoc κ α) : Nat := m.toList.length

def isEmpty (m : Assoc κ α) : Bool := m.toList.isEmpty

/-- The pairs that satisfy a test. -/
def filter (m : Assoc κ α) (p : κ → α → Bool) : Assoc κ α :=
  ⟨m.toList.filter fun e => p e.1 e.2,
    m.nodup_keys.sublist ((List.filter_sublist).map _)⟩

/-- Changes every value. -/
def mapValues {β : Type} (m : Assoc κ α) (f : κ → α → β) : Assoc κ β :=
  ⟨m.toList.map fun e => (e.1, f e.1 e.2), by
    simpa only [List.map_map, Function.comp_def] using m.nodup_keys⟩

variable [DecidableEq κ]

def get? (m : Assoc κ α) (k : κ) : Option α :=
  (m.toList.find? (·.1 = k)).map (·.2)

def contains (m : Assoc κ α) (k : κ) : Bool :=
  (m.get? k).isSome

def erase (m : Assoc κ α) (k : κ) : Assoc κ α :=
  m.filter fun k' _ => k' != k

/-- Changes the value of one key. -/
def modify (m : Assoc κ α) (k : κ) (f : α → α) : Assoc κ α :=
  m.mapValues fun k' a => if k' = k then f a else a

/-- Gives a key a value. -/
def put (m : Assoc κ α) (k : κ) (a : α) : Assoc κ α :=
  if h : k ∈ m.toList.map (·.1) then m.modify k fun _ => a
  else ⟨m.toList ++ [(k, a)], by
    rw [List.map_append, List.nodup_append]
    refine ⟨m.nodup_keys, by simp, fun x hx y hy hxy => h ?_⟩
    simp only [List.map_cons, List.map_nil, List.mem_singleton] at hy
    exact hy ▸ hxy ▸ hx⟩

@[simp] theorem get?_empty (k : κ) : ({} : Assoc κ α).get? k = none := rfl

theorem get?_filter_key (m : Assoc κ α) (p : κ → Bool) (k : κ) :
    (m.filter fun k' _ => p k').get? k = if p k then m.get? k else none := by
  have same : (fun e : κ × α => decide (p e.1 = true ∧ decide (e.1 = k) = true)) =
      fun e => p k && decide (e.1 = k) := by
    funext e
    by_cases h : e.1 = k <;> simp [h]
  simp only [get?, filter, List.find?_filter]
  rw [same]
  cases p k <;> simp

@[simp] theorem get?_erase (m : Assoc κ α) (k k' : κ) :
    (m.erase k).get? k' = if k' = k then none else m.get? k' := by
  rw [erase, get?_filter_key m (fun x => x != k)]
  by_cases h : k' = k <;> simp [h]

theorem get?_mapValues {β : Type} (m : Assoc κ α) (f : κ → α → β) (k : κ) :
    (m.mapValues f).get? k = (m.get? k).map (f k) := by
  simp only [get?, mapValues, List.find?_map, Option.map_map, Function.comp_def]
  generalize m.toList = l
  induction l with
  | nil => simp
  | cons e l ih => by_cases h : e.1 = k <;> simp [h, ih]

theorem get?_modify (m : Assoc κ α) (k : κ) (f : α → α) (k' : κ) :
    (m.modify k f).get? k' = if k' = k then (m.get? k').map f else m.get? k' := by
  rw [modify, get?_mapValues]
  by_cases h : k' = k
  · simp [h]
  · rw [if_neg h]
    cases m.get? k' <;> simp [h]

theorem get?_eq_none_iff (m : Assoc κ α) (k : κ) : m.get? k = none ↔ k ∉ m.toList.map (·.1) := by
  simp only [get?, Option.map_eq_none_iff, List.find?_eq_none, List.mem_map, decide_eq_true_eq]
  exact ⟨fun h ⟨e, he, hk⟩ => h e he hk, fun h e he hk => h ⟨e, he, hk⟩⟩

@[simp] theorem get?_put (m : Assoc κ α) (k : κ) (a : α) (k' : κ) :
    (m.put k a).get? k' = if k' = k then some a else m.get? k' := by
  unfold put
  split
  · rename_i h
    rw [get?_modify]
    by_cases hk : k' = k
    · subst hk
      cases hg : m.get? k' with
      | none => exact absurd h ((get?_eq_none_iff m k').1 hg)
      | some b => simp
    · simp [hk]
  · rename_i h
    simp only [get?, List.find?_append]
    by_cases hk : k' = k
    · subst hk
      have := (get?_eq_none_iff m k').2 h
      simp only [get?, Option.map_eq_none_iff] at this
      simp [this]
    · have : (k = k') = False := by simpa using fun h => hk h.symm
      simp [hk, this]

end Assoc

end QueryHost
