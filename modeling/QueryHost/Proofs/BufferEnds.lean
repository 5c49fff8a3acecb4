import Mathlib.Tactic.Common
import QueryHost.Proofs.BufferPackets

/-!
# Whether the end of a result is final

The end of the stream is given when a closed buffer is empty. Closed buffers take batches all the
same, so the end is final (`EndIsFinal`) only if nothing more comes: a batch that is taken after the
end is fetched by whoever fetches next, unless the buffer is cancelled (`Reopened`). That is the
only way (`endIsFinal_iff`).
-/

namespace QueryHost

namespace BufferEvent

/-- The packet of number `n` ends the stream. -/
def ended (n : Nat) : BufferEvent := .fetched (.done (.ok ⟨n, none⟩))

section Append

variable (before after : List BufferEvent) (n : Nat)

theorem taken_append : taken (before ++ after) = taken before ++ taken after :=
  List.filterMap_append

theorem delivered_append : delivered (before ++ after) = delivered before ++ delivered after := by
  simp only [delivered, packets, List.filterMap_append]

theorem taken_ended_cons : taken (ended n :: after) = taken after := rfl

theorem delivered_ended_cons : delivered (ended n :: after) = delivered after := rfl

end Append

theorem taken_ne_nil {events : List BufferEvent} (h : taken events ≠ []) :
    ∃ before batch after, events = before ++ .added batch (.done (.ok ())) :: after := by
  obtain ⟨batch, hbatch⟩ := List.exists_mem_of_ne_nil _ h
  obtain ⟨e, he, hb⟩ := List.mem_filterMap.1 hbatch
  obtain ⟨before, after, rfl⟩ := List.append_of_mem he
  unfold batch? at hb
  split at hb
  · exact ⟨before, _, after, rfl⟩
  · cases hb

theorem delivered_ne_nil {events : List BufferEvent} (h : delivered events ≠ []) :
    ∃ before n batch after, events = before ++ .fetched (.done (.ok ⟨n, some batch⟩)) :: after := by
  obtain ⟨batch, hbatch⟩ := List.exists_mem_of_ne_nil _ h
  obtain ⟨⟨n, x⟩, hpacket, rfl⟩ := List.mem_filterMap.1 hbatch
  obtain ⟨e, he, hp⟩ := List.mem_filterMap.1 hpacket
  obtain ⟨before, after, rfl⟩ := List.append_of_mem he
  unfold packet? at hp
  split at hp
  · obtain rfl := Option.some.inj hp
    exact ⟨before, n, batch, after, rfl⟩
  · cases hp

/-- Once a fetch has given the end of the stream, no later fetch gives a batch. -/
def EndIsFinal (events : List BufferEvent) : Prop :=
  ∀ before n after, events = before ++ ended n :: after → delivered after = []

/-- After the end a batch is taken, and somebody fetches before the buffer is cancelled. -/
def Reopened (events : List BufferEvent) : Prop :=
  ∃ before n mid batch rest answer after,
    events = before ++ ended n :: (mid ++ .added batch (.done (.ok ())) :: rest)
        ++ .fetched answer :: after
      ∧ BufferEvent.cancelled ∉ rest

end BufferEvent

namespace ResultBuffer

open BufferEvent

section Use

variable {b : ResultBuffer} {u : BufferUse}

theorem cancelled_use_iff :
    (b.use u).1.cancelled = true ↔ b.cancelled = true ∨ (b.use u).2 = .cancelled := by
  cases u with
  | add batch =>
    rcases b.add_cases batch with ⟨-, h⟩ | ⟨-, h⟩ | ⟨-, -, h⟩ <;> simp [use, h]
  | close => simp [use, close]
  | cancel => simp [use, cancel]
  | fetch =>
    rcases b.fetch_cases with ⟨-, h⟩ | ⟨batch, rest, -, -, h⟩ | ⟨-, -, -, h⟩ | ⟨-, h⟩ <;>
      simp [use, h]

theorem open_of_taken {batch : Bytes} (h : (b.use u).2 = .added batch (.done (.ok ()))) :
    b.cancelled = false := by
  cases u with
  | add batch' =>
    rcases b.add_cases batch' with ⟨-, ha⟩ | ⟨ho, -⟩ | ⟨ho, -⟩
    · simp [use, ha] at h
    · exact ho
    · exact ho
  | close | cancel | fetch => simp [use] at h

theorem fetch_of_use {answer : Attempt (Except Failure Packet)}
    (h : (b.use u).2 = .fetched answer) : b.fetch.2 = answer := by
  cases u with
  | fetch => exact BufferEvent.fetched.inj h
  | add | close | cancel => simp [use] at h

theorem batches_of_delivered {n : Nat} {batch : Bytes}
    (h : b.fetch.2 = .done (.ok ⟨n, some batch⟩)) : b.cancelled = false ∧ b.batches ≠ [] := by
  rcases b.fetch_cases with ⟨-, hf⟩ | ⟨first, rest, ho, hb, -⟩ | ⟨-, -, -, hf⟩ | ⟨-, hf⟩
  · simp [hf] at h
  · exact ⟨ho, by simp [hb]⟩
  · simp [hf] at h
  · simp [hf] at h

theorem delivered_of_batches (ho : b.cancelled = false) (hb : b.batches ≠ []) :
    ∃ n batch, b.fetch.2 = .done (.ok ⟨n, some batch⟩) := by
  rcases b.fetch_cases with ⟨hc, -⟩ | ⟨first, rest, -, -, hf⟩ | ⟨-, hnil, -⟩ | ⟨-, hf⟩
  · rw [ho] at hc
    cases hc
  · exact ⟨_, _, by rw [hf]⟩
  · exact absurd hnil hb
  · cases hbs : b.batches with
    | nil => exact absurd hbs hb
    | cons first rest => simp [fetch, ho, hbs] at hf

end Use

section Runs

variable {query : UniqueId} {capacity : Nat} {uses : List BufferUse}
  {before after : List BufferEvent} {n : Nat}

theorem cancelled_iff_mem : (callAll use (new query capacity) uses).1.cancelled = true
    ↔ BufferEvent.cancelled ∈ (callAll use (new query capacity) uses).2 := by
  have step (b : ResultBuffer) (events : List BufferEvent) (u : BufferUse)
      (h : b.cancelled = true ↔ BufferEvent.cancelled ∈ events) :
      (b.use u).1.cancelled = true ↔ BufferEvent.cancelled ∈ events ++ [(b.use u).2] := by
    rw [cancelled_use_iff, h, List.mem_append, List.mem_singleton]
    exact or_congr_right eq_comm
  have hrun := callAll_history step uses (new query capacity) [] (by simp [new])
  rwa [List.nil_append] at hrun

theorem delivered_of_ended
    (h : (callAll use (new query capacity) uses).2 = before ++ ended n :: after) :
    delivered before = taken before := by
  obtain ⟨uses₁, u, uses₂, -, rfl, hu, -⟩ := callAll_split before h
  exact ((kept_uses query capacity uses₁).of_end hu).2

/-- What is fetched after the end was taken after the end. -/
theorem delivered_after_end
    (h : (callAll use (new query capacity) uses).2 = before ++ ended n :: after) :
    delivered after <+: taken after := by
  have hprefix := (kept_uses query capacity uses).delivered_taken
  rw [h, delivered_append, taken_append, delivered_ended_cons, taken_ended_cons,
    delivered_of_ended h] at hprefix
  exact (List.prefix_append_right_inj _).1 hprefix

theorem taken_after_end
    (h : (callAll use (new query capacity) uses).2 = before ++ ended n :: after)
    (ho : (callAll use (new query capacity) uses).1.cancelled = false) :
    taken after = delivered after ++ (callAll use (new query capacity) uses).1.batches := by
  have htaken := (kept_uses query capacity uses).taken_eq ho
  rw [h, delivered_append, taken_append, delivered_ended_cons, taken_ended_cons,
    delivered_of_ended h, List.append_assoc] at htaken
  exact List.append_cancel_left htaken

/-- If the end is final, nothing is fetched after it: a buffer that takes a batch and gives it later
has not been cancelled in between. -/
theorem not_reopened_of_endIsFinal
    (h : EndIsFinal (callAll use (new query capacity) uses).2) :
    ¬ Reopened (callAll use (new query capacity) uses).2 := by
  rintro ⟨before, n, mid, batch, rest, answer, after, hevents, hrest⟩
  obtain ⟨uses₁, u, uses₂, -, hbefore, hu, -⟩ := callAll_split _ hevents
  have ho : (callAll use (new query capacity) uses₁).1.cancelled = false := by
    have htaken : (callAll use (new query capacity) uses₁).2
        = (before ++ ended n :: mid) ++ .added batch (.done (.ok ())) :: rest := by
      rw [hbefore, List.append_assoc, List.cons_append]
    obtain ⟨uses₀, u₀, -, -, hfirst, hu₀, -⟩ := callAll_split _ htaken
    have hfree := open_of_taken hu₀
    rw [← Bool.not_eq_true, cancelled_iff_mem, hfirst] at hfree
    rw [← Bool.not_eq_true, cancelled_iff_mem, htaken]
    simp only [List.mem_append, List.mem_cons, reduceCtorEq, false_or, not_or] at hfree ⊢
    exact ⟨hfree, hrest⟩
  have hmid := taken_after_end hbefore ho
  have hfinal : delivered (mid ++ .added batch (.done (.ok ())) :: rest) = []
      ∧ delivered (.fetched answer :: after) = [] := by
    have hnone := h before n _ (by rw [hevents, List.append_assoc, List.cons_append])
    rwa [delivered_append, List.append_eq_nil_iff] at hnone
  have hbatches : (callAll use (new query capacity) uses₁).1.batches ≠ [] := by
    intro hnil
    rw [hnil, hfinal.1, taken_append] at hmid
    simp [taken, batch?] at hmid
  obtain ⟨m, x, hx⟩ := delivered_of_batches ho hbatches
  obtain rfl := (fetch_of_use hu).symm.trans hx
  simp [delivered, packets, packet?] at hfinal

/-- What a buffer holds after the end, it has taken after the end. -/
theorem endIsFinal_of_not_reopened
    (h : ¬ Reopened (callAll use (new query capacity) uses).2) :
    EndIsFinal (callAll use (new query capacity) uses).2 := by
  intro before n after hevents
  by_contra hne
  obtain ⟨mid', m, x, rest', rfl⟩ := delivered_ne_nil hne
  rw [← List.cons_append, ← List.append_assoc] at hevents
  obtain ⟨uses₁, u, uses₂, -, hbefore, hu, -⟩ := callAll_split _ hevents
  obtain ⟨ho, hbatches⟩ := batches_of_delivered (fetch_of_use hu)
  have htaken : taken mid' ≠ [] := by
    rw [taken_after_end hbefore ho]
    exact List.append_ne_nil_of_right_ne_nil _ hbatches
  obtain ⟨mid, batch, rest, rfl⟩ := taken_ne_nil htaken
  refine h ⟨before, n, mid, batch, rest, _, rest', hevents, fun hc => ?_⟩
  rw [← Bool.not_eq_true, cancelled_iff_mem, hbefore] at ho
  simp [hc] at ho

end Runs

/-- Whatever is done with a buffer, the end of the stream is its end exactly if nothing that the
buffer takes after it is there for a later fetch. What was taken up to the end had been fetched by
then, so the batches that are fetched after it were taken after it, and come in that order. -/
theorem endIsFinal_iff (query : UniqueId) (capacity : Nat) (uses : List BufferUse) :
    let events := (callAll use (new query capacity) uses).2
    (EndIsFinal events ↔ ¬ Reopened events)
      ∧ ∀ before n after, events = before ++ ended n :: after →
          delivered before = taken before ∧ delivered after <+: taken after :=
  ⟨⟨not_reopened_of_endIsFinal, endIsFinal_of_not_reopened⟩, fun _ _ _ h =>
    ⟨delivered_of_ended h, delivered_after_end h⟩⟩

/-- A buffer was closed and read to its end, takes another batch and hands it out. -/
theorem end_not_final :
    ¬ ∀ (query : UniqueId) (capacity : Nat) (uses : List BufferUse),
      EndIsFinal (callAll use (new query capacity) uses).2 := by
  intro h
  have hnone := h ⟨7, 1⟩ 1 [.close, .fetch, .add [120], .fetch] [.closed] 0
    [.added [120] (.done (.ok ())), .fetched (.done (.ok ⟨1, some [120]⟩))] rfl
  cases hnone

end ResultBuffer

end QueryHost
