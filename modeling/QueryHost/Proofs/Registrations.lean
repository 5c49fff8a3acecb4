import QueryHost.Proofs.AssocRows
import QueryHost.Proofs.ListParts

/-!
# Registrations

What is registered under keys has numbers that are given out one after the other, and each number
belongs to one key. The events of a run say what is registered: a number that was entered under a
key stands there until an event ends it (`Roll.Stands`). A map that each call changes as its event
says (`Roll.Turn`) agrees with the events of every run (`Roll.Tracks.turn`), and a number that is
not registered any more never is again (`Roll.Turn.free`).
-/

namespace QueryHost

/-- How events speak of registrations. -/
structure Roll (ε κ : Type) where
  /-- The key under which a number is registered, anew or still. -/
  enters : ε → Option (κ × Nat)
  /-- Whether nothing is registered under a key any more. -/
  ends : ε → κ → Prop

namespace Roll

variable {ε κ : Type} {r : Roll ε κ} {events : List ε} {e : ε} {key : κ} {id : Nat}

/-- The number has been registered under the key. -/
def Entered (r : Roll ε κ) (events : List ε) (key : κ) (id : Nat) : Prop :=
  ∃ e ∈ events, r.enters e = some (key, id)

/-- The number was registered under the key, and that has not been ended since. -/
def Stands (r : Roll ε κ) (events : List ε) (key : κ) (id : Nat) : Prop :=
  ∃ before e after, events = before ++ e :: after
    ∧ r.enters e = some (key, id) ∧ ∀ e' ∈ after, ¬ r.ends e' key

theorem entered_snoc : r.Entered (events ++ [e]) key id
    ↔ r.Entered events key id ∨ r.enters e = some (key, id) := by
  simp [Entered, or_and_right, exists_or]

theorem stands_snoc : r.Stands (events ++ [e]) key id
    ↔ (r.Stands events key id ∧ ¬ r.ends e key) ∨ r.enters e = some (key, id) := by
  unfold Stands
  rw [exists_split_concat (P := fun _ e after =>
    r.enters e = some (key, id) ∧ ∀ e' ∈ after, ¬ r.ends e' key)]
  refine or_congr ⟨?_, ?_⟩ (by simp)
  · rintro ⟨before, e', after, rfl, henters, hafter⟩
    rw [List.forall_mem_append] at hafter
    exact ⟨⟨before, e', after, rfl, henters, hafter.1⟩, hafter.2 e (List.mem_singleton_self e)⟩
  · rintro ⟨⟨before, e', after, rfl, henters, hafter⟩, hends⟩
    refine ⟨before, e', after, rfl, henters, List.forall_mem_append.2 ⟨hafter, ?_⟩⟩
    exact fun d hd => List.mem_singleton.1 hd ▸ hends

theorem Stands.entered (h : r.Stands events key id) : r.Entered events key id := by
  obtain ⟨before, e, after, rfl, henters, -⟩ := h
  exact ⟨e, by simp, henters⟩

variable [DecidableEq κ] {m m' : Assoc κ Nat} {n n' : Nat}

/-- What a call may do to the registrations, when numbers below `n` have been given out: register
the next number, answer what is registered, or end registrations. -/
inductive Turn (r : Roll ε κ) (m : Assoc κ Nat) (n : Nat) (e : ε) : Assoc κ Nat → Nat → Prop where
  | enter (key : κ) (hfree : m.get? key = none) (henters : r.enters e = some (key, n))
      (hends : ∀ k, ¬ r.ends e k) : Turn r m n e (m.put key n) (n + 1)
  | again (key : κ) (id : Nat) (hget : m.get? key = some id)
      (henters : r.enters e = some (key, id)) (hends : ∀ k, ¬ r.ends e k) : Turn r m n e m n
  | leave (m' : Assoc κ Nat) (henters : r.enters e = none)
      (hget : ∀ k i, m'.get? k = some i ↔ m.get? k = some i ∧ ¬ r.ends e k) : Turn r m n e m' n

theorem Turn.idle (henters : r.enters e = none) (hends : ∀ k, ¬ r.ends e k) :
    Turn r m n e m n :=
  .leave m henters fun k i => by simp [hends k]

theorem Turn.length_eq (hturn : Turn r m n e m' n') (henters : r.enters e = none) : n' = n := by
  cases hturn with
  | enter _ _ h _ => cases henters.symm.trans h
  | again | leave => rfl

/-- How a map of registrations agrees with what has happened. -/
structure Tracks (r : Roll ε κ) (m : Assoc κ Nat) (n : Nat) (events : List ε) : Prop where
  get?_iff : ∀ key id, m.get? key = some id ↔ r.Stands events key id
  lt_iff : ∀ id, id < n ↔ ∃ key, r.Entered events key id
  key_eq : ∀ key key' id, r.Entered events key id → r.Entered events key' id → key = key'

theorem tracks_empty (r : Roll ε κ) : r.Tracks {} 0 [] where
  get?_iff key id := by simp [Stands]
  lt_iff id := by simp [Entered]
  key_eq key key' id h := by simp [Entered] at h

section Tracks

variable (h : r.Tracks m n events)

include h

theorem Tracks.lt (hentered : r.Entered events key id) : id < n :=
  (h.lt_iff id).2 ⟨key, hentered⟩

theorem Tracks.entered (hget : m.get? key = some id) : r.Entered events key id :=
  ((h.get?_iff key id).1 hget).entered

theorem Tracks.nodup_values : m.values.Nodup :=
  Assoc.nodup_values fun _ _ id hk hk' => h.key_eq _ _ id (h.entered hk) (h.entered hk')

theorem Tracks.get?_eq_none_iff : m.get? key = none ↔ ∀ id, ¬ r.Stands events key id := by
  rw [Option.eq_none_iff_forall_ne_some]
  exact forall_congr' fun id => not_congr (h.get?_iff key id)

theorem Tracks.contains_iff : m.contains key = true ↔ ∃ id, r.Stands events key id := by
  rw [Assoc.contains, Option.isSome_iff_exists]
  exact exists_congr fun id => h.get?_iff key id

/-- Who enters gets a number that is nobody else's. -/
theorem Tracks.enter (hfree : m.get? key = none) (henters : r.enters e = some (key, n))
    (hends : ∀ k, ¬ r.ends e k) : r.Tracks (m.put key n) (n + 1) (events ++ [e]) where
  get?_iff key' id := by
    rw [Assoc.get?_put, stands_snoc, henters, and_iff_left (hends key'), ← h.get?_iff]
    split_ifs with hkey
    · simp [hkey, hfree]
    · simp [Ne.symm hkey]
  lt_iff id := by
    rw [Nat.lt_succ_iff_lt_or_eq, h.lt_iff]
    simp only [entered_snoc, henters, exists_or, Option.some.injEq, Prod.mk.injEq,
      exists_eq_left', eq_comm (a := n)]
  key_eq key₁ key₂ id h₁ h₂ := by
    rcases entered_snoc.1 h₁ with hold₁ | hnew₁ <;> rcases entered_snoc.1 h₂ with hold₂ | hnew₂
    · exact h.key_eq _ _ _ hold₁ hold₂
    · rw [henters] at hnew₂
      obtain ⟨-, rfl⟩ := Prod.mk.inj (Option.some.inj hnew₂)
      exact absurd (h.lt hold₁) (Nat.lt_irrefl _)
    · rw [henters] at hnew₁
      obtain ⟨-, rfl⟩ := Prod.mk.inj (Option.some.inj hnew₁)
      exact absurd (h.lt hold₂) (Nat.lt_irrefl _)
    · exact (Prod.mk.inj (Option.some.inj (hnew₁.symm.trans hnew₂))).1

theorem Tracks.again (hget : m.get? key = some id) (henters : r.enters e = some (key, id))
    (hends : ∀ k, ¬ r.ends e k) : r.Tracks m n (events ++ [e]) := by
  have hentered (key' : κ) (id' : Nat) :
      r.Entered (events ++ [e]) key' id' ↔ r.Entered events key' id' := by
    rw [entered_snoc, henters, or_iff_left_of_imp]
    rintro heq
    obtain ⟨rfl, rfl⟩ := Prod.mk.inj (Option.some.inj heq)
    exact h.entered hget
  refine ⟨fun key' id' => ?_, fun id' => by simp only [hentered, h.lt_iff],
    fun key₁ key₂ id' h₁ h₂ => h.key_eq _ _ _ ((hentered _ _).1 h₁) ((hentered _ _).1 h₂)⟩
  rw [stands_snoc, and_iff_left (hends key'), ← h.get?_iff, henters, or_iff_left_of_imp]
  rintro heq
  obtain ⟨rfl, rfl⟩ := Prod.mk.inj (Option.some.inj heq)
  exact hget

theorem Tracks.leave (henters : r.enters e = none)
    (hget : ∀ k i, m'.get? k = some i ↔ m.get? k = some i ∧ ¬ r.ends e k) :
    r.Tracks m' n (events ++ [e]) := by
  have hentered (key' : κ) (id' : Nat) :
      r.Entered (events ++ [e]) key' id' ↔ r.Entered events key' id' := by
    simp [entered_snoc, henters]
  refine ⟨fun key' id' => ?_, fun id' => by simp only [hentered, h.lt_iff],
    fun key₁ key₂ id' h₁ h₂ => h.key_eq _ _ _ ((hentered _ _).1 h₁) ((hentered _ _).1 h₂)⟩
  rw [hget, stands_snoc, h.get?_iff, henters]
  simp

theorem Tracks.turn (hturn : Turn r m n e m' n') : r.Tracks m' n' (events ++ [e]) := by
  cases hturn with
  | enter key hfree henters hends => exact h.enter hfree henters hends
  | again key id hget henters hends => exact h.again hget henters hends
  | leave _ henters hget => exact h.leave henters hget

end Tracks

/-- A number that is yet to be given out has not been registered at any time. -/
theorem Tracks.not_stood (h : r.Tracks m n events) (hid : n ≤ id) {before after : List ε}
    (hsplit : events = before ++ after) : ¬ r.Stands before key id := by
  intro hstands
  obtain ⟨e, he, henters⟩ := hstands.entered
  have hentered : r.Entered events key id := ⟨e, hsplit ▸ List.mem_append_left after he, henters⟩
  exact absurd hid (Nat.not_le.2 (h.lt hentered))

/-- A number that is registered nowhere will not be registered again. -/
theorem Turn.free (hturn : Turn r m n e m' n') (hlt : id < n) (hfree : ∀ k, m.get? k ≠ some id) :
    id < n' ∧ ∀ k, m'.get? k ≠ some id := by
  cases hturn with
  | enter key _ _ _ =>
    refine ⟨Nat.lt_succ_of_lt hlt, fun k => ?_⟩
    rw [Assoc.get?_put]
    split_ifs
    · exact fun h => Nat.ne_of_gt hlt (Option.some.inj h)
    · exact hfree k
  | again _ _ _ _ _ => exact ⟨hlt, hfree⟩
  | leave _ _ hget => exact ⟨hlt, fun k hk => hfree k ((hget k id).1 hk).1⟩

end Roll

section Rooted

variable {κ χ : Type} [DecidableEq κ]

/-- What is registered exists, and has the key that it is registered under. -/
def Rooted (keyOf : χ → κ) (all : List χ) (m : Assoc κ Nat) : Prop :=
  ∀ key id, m.get? key = some id → ∃ x, all[id]? = some x ∧ keyOf x = key

variable {keyOf : χ → κ} {all : List χ} {m : Assoc κ Nat} {key : κ} {id : Nat} {x : χ}

theorem Rooted.get?_iff (h : Rooted keyOf all m) (hx : all[id]? = some x) :
    m.get? key = some id ↔ key = keyOf x ∧ m.get? (keyOf x) = some id := by
  constructor
  · intro hkey
    obtain ⟨x', hx', rfl⟩ := h key id hkey
    obtain rfl := Option.some.inj (hx.symm.trans hx')
    exact ⟨rfl, hkey⟩
  · rintro ⟨rfl, hkey⟩
    exact hkey

theorem Rooted.mem_values_iff (h : Rooted keyOf all m) (hx : all[id]? = some x) :
    id ∈ m.values ↔ m.get? (keyOf x) = some id := by
  rw [Assoc.mem_values_iff]
  exact ⟨fun ⟨_, hkey⟩ => ((h.get?_iff hx).1 hkey).2, fun hkey => ⟨_, hkey⟩⟩

end Rooted

end QueryHost
