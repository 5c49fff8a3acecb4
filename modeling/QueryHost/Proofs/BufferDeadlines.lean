import Mathlib.Tactic.Common
import QueryHost.Proofs.AssocRows
import QueryHost.Query.ResultBuffers

/-!
# Deadlines of result buffers

A deadline is kept for a query and not for a buffer, and stays when the buffer is cancelled. So a
pass of the expiry cancels a registered buffer exactly when its own deadline is past, or one that an
earlier buffer of the same query has left behind (`expire_registered`).

`BookedBuffers` keeps beside the buffers what was agreed on when each of them was created.
-/

namespace QueryHost

inductive BufferCall where
  /-- Creates a buffer that expires when a time is over. -/
  | create (query : UniqueId) (capacity timeout : Nat)
  | cancel (query : UniqueId)
  | fetch (query : UniqueId)
  /-- A pass of the expiry. -/
  | expire
  | add (buffer : BufferId) (batch : Bytes)
  | close (buffer : BufferId)
  | cancelBuffer (buffer : BufferId)
  | shutdown
  deriving DecidableEq, Repr

/-- The deadline of a buffer. -/
structure Booking where
  query : UniqueId
  deadline : Moment
  /-- Whether there was a pass of the expiry after the deadline. -/
  passed : Bool := false
  deriving DecidableEq, Repr

namespace Booking

/-- The booking after a pass of the expiry. -/
def pass (k : Booking) (now : Moment) : Booking :=
  { k with passed := k.passed || k.deadline < now }

theorem passed_pass (k : Booking) (now : Moment) :
    (k.pass now).passed = false ↔ k.passed = false ∧ ¬ k.deadline < now := by
  simp [pass]

theorem pass_of_le {k : Booking} {now : Moment} (h : ¬ k.deadline < now) : k.pass now = k := by
  simp [pass, h]

end Booking

structure BookedBuffers where
  buffers : ResultBuffers := {}
  /-- The bookings of all buffers, in the order of their creation. -/
  bookings : List Booking := []

namespace ResultBuffers

section Cancel

variable (m : ResultBuffers) (q q' : UniqueId) (id : BufferId)

theorem registered_cancel : (m.cancel q).1.registered.get? q'
    = if q' = q then none else m.registered.get? q' := by
  unfold cancel
  cases h : m.registered.get? q with
  | none =>
    by_cases hq : q' = q
    · rw [if_pos hq, hq, h]
    · rw [if_neg hq]
  | some id => exact Assoc.get?_erase _ _ _

theorem deadlines_cancel : (m.cancel q).1.deadlines = m.deadlines := by
  unfold cancel
  split <;> rfl

theorem length_all_cancel : (m.cancel q).1.all.length = m.all.length := by
  unfold cancel
  split
  · rfl
  · exact List.length_modify _ _ _

theorem buffer?_cancel : (m.cancel q).1.buffer? id
    = if m.registered.get? q = some id then (m.buffer? id).map .cancel else m.buffer? id := by
  unfold cancel
  split
  · rename_i h
    simp [h]
  · rename_i id' h
    rw [h]
    simp only [buffer?, cancelBuffer, List.getElem?_modify, Option.some.injEq]
    split <;> cases m.all[id]? <;> rfl

end Cancel

/-- Cancels the buffers of several queries. -/
def cancelEach (m : ResultBuffers) (ds : List (Moment × UniqueId)) : ResultBuffers :=
  ds.foldl (fun m d => (m.cancel d.2).1) m

theorem registered_cancelEach (q : UniqueId) : ∀ (ds : List (Moment × UniqueId))
    (m : ResultBuffers), (m.cancelEach ds).registered.get? q
      = if q ∈ ds.map (·.2) then none else m.registered.get? q
  | [], m => by simp [cancelEach]
  | d :: ds, m => by
    have ih := registered_cancelEach q ds (m.cancel d.2).1
    rw [registered_cancel] at ih
    refine ih.trans ?_
    rw [List.map_cons]
    by_cases h : q = d.2
    · simp [h]
    · simp only [List.mem_cons, h, false_or, if_false]

theorem deadlines_cancelEach : ∀ (ds : List (Moment × UniqueId)) (m : ResultBuffers),
    (m.cancelEach ds).deadlines = m.deadlines
  | [], _ => rfl
  | d :: ds, m => (deadlines_cancelEach ds _).trans (deadlines_cancel m d.2)

theorem length_all_cancelEach : ∀ (ds : List (Moment × UniqueId)) (m : ResultBuffers),
    (m.cancelEach ds).all.length = m.all.length
  | [], _ => rfl
  | d :: ds, m => (length_all_cancelEach ds _).trans (length_all_cancel m d.2)

/-- A buffer that is registered nowhere stays as it is. -/
theorem buffer?_cancelEach_of_free {id : BufferId} : ∀ (ds : List (Moment × UniqueId))
    (m : ResultBuffers), (∀ q, m.registered.get? q ≠ some id) →
      (m.cancelEach ds).buffer? id = m.buffer? id
  | [], _, _ => rfl
  | d :: ds, m, h => by
    have hfree : ∀ q, (m.cancel d.2).1.registered.get? q ≠ some id := by
      intro q
      rw [registered_cancel]
      split
      · simp
      · exact h q
    refine (buffer?_cancelEach_of_free ds _ hfree).trans ?_
    rw [buffer?_cancel, if_neg (h d.2)]

/-- `cancelEach` cancels the registered buffers of the queries, and leaves the others alone. -/
theorem buffer?_cancelEach {q : UniqueId} {id : BufferId} : ∀ (ds : List (Moment × UniqueId))
    (m : ResultBuffers), m.registered.get? q = some id →
      (∀ q', m.registered.get? q' = some id → q' = q) →
      (m.cancelEach ds).buffer? id
        = if q ∈ ds.map (·.2) then (m.buffer? id).map .cancel else m.buffer? id
  | [], _, _, _ => by simp [cancelEach]
  | d :: ds, m, hq, hinj => by
    have hreg := registered_cancel m d.2
    by_cases hd : q = d.2
    · have hfree : ∀ q', (m.cancel d.2).1.registered.get? q' ≠ some id := by
        intro q' h
        rw [hreg] at h
        split_ifs at h with hq'
        exact hq' ((hinj q' h).trans hd)
      refine (buffer?_cancelEach_of_free ds _ hfree).trans ?_
      rw [buffer?_cancel, ← hd, if_pos hq, if_pos (by simp [hd])]
    · have hother : m.registered.get? d.2 ≠ some id := fun h => hd (hinj _ h).symm
      have hsame : (m.cancel d.2).1.registered.get? q = some id := by
        rw [hreg, if_neg hd, hq]
      have ih := buffer?_cancelEach ds (m.cancel d.2).1 hsame fun q' h => by
        rw [hreg] at h
        split_ifs at h
        exact hinj q' h
      rw [buffer?_cancel, if_neg hother] at ih
      refine ih.trans ?_
      simp only [List.map_cons, List.mem_cons, hd, false_or]

theorem create_of_none {m : ResultBuffers} {q : UniqueId} (h : m.registered.get? q = none)
    (capacity : Nat) (deadline : Moment) :
    (m.create q capacity deadline).1
      = { m with
          all := m.all ++ [.new q capacity]
          registered := m.registered.put q m.all.length
          deadlines := m.deadlines ++ [(deadline, q)] } := by
  simp only [create, h]

theorem create_of_some {m : ResultBuffers} {q : UniqueId} {id : BufferId}
    (h : m.registered.get? q = some id) (capacity : Nat) (deadline : Moment) :
    (m.create q capacity deadline).1 = m := by
  simp only [create, h]

/-- A change of one buffer leaves alone how buffers are found and when they expire. -/
theorem onBuffer_frame {α : Type} (m : ResultBuffers) (id : BufferId) (absent : α)
    (f : ResultBuffer → ResultBuffer × α) :
    (m.onBuffer id absent f).1.all.length = m.all.length
      ∧ (m.onBuffer id absent f).1.registered = m.registered
      ∧ (m.onBuffer id absent f).1.deadlines = m.deadlines := by
  unfold onBuffer
  split
  · exact ⟨rfl, rfl, rfl⟩
  · exact ⟨List.length_set, rfl, rfl⟩

theorem fetch_frame (m : ResultBuffers) (q : UniqueId) :
    (m.fetch q).1.all.length = m.all.length ∧ (m.fetch q).1.registered = m.registered
      ∧ (m.fetch q).1.deadlines = m.deadlines := by
  unfold fetch
  split
  · exact ⟨rfl, rfl, rfl⟩
  · exact onBuffer_frame m _ _ _

/-- The queries with a deadline that is past. -/
def due (m : ResultBuffers) (now : Moment) : List UniqueId :=
  (m.deadlines.filter (·.1 < now)).map (·.2)

section Expire

variable {m : ResultBuffers} {q : UniqueId} {id : BufferId} {now : Moment}

theorem mem_due : q ∈ m.due now ↔ ∃ d, (d, q) ∈ m.deadlines ∧ d < now := by
  simp only [due, List.mem_map, List.mem_filter, decide_eq_true_eq]
  constructor
  · rintro ⟨⟨d, q'⟩, ⟨hd, hlt⟩, rfl⟩
    exact ⟨d, hd, hlt⟩
  · rintro ⟨d, hd, hlt⟩
    exact ⟨(d, q), ⟨hd, hlt⟩, rfl⟩

theorem registered_expire : (m.expire now).registered.get? q
    = if q ∈ m.due now then none else m.registered.get? q :=
  registered_cancelEach q _ _

theorem buffer?_expire (hq : m.registered.get? q = some id)
    (hinj : ∀ q', m.registered.get? q' = some id → q' = q) :
    (m.expire now).buffer? id
      = if q ∈ m.due now then (m.buffer? id).map .cancel else m.buffer? id :=
  buffer?_cancelEach _ { m with deadlines := _ } hq hinj

theorem mem_deadlines_expire {d : Moment} : (d, q) ∈ (m.expire now).deadlines
    ↔ (d, q) ∈ m.deadlines ∧ ¬ d < now := by
  have h : (m.expire now).deadlines = m.deadlines.filter fun d => !(d.1 < now) :=
    deadlines_cancelEach _ _
  rw [h]
  simp

theorem length_all_expire : (m.expire now).all.length = m.all.length :=
  length_all_cancelEach _ _

end Expire

end ResultBuffers

namespace BookedBuffers

def call (b : BookedBuffers) (now : Moment) : BufferCall → BookedBuffers
  | .create q capacity timeout =>
    { buffers := (b.buffers.create q capacity (now + timeout)).1
      bookings :=
        if b.buffers.registered.contains q then b.bookings
        else b.bookings ++ [{ query := q, deadline := now + timeout }] }
  | .cancel q => { b with buffers := (b.buffers.cancel q).1 }
  | .fetch q => { b with buffers := (b.buffers.fetch q).1 }
  | .expire =>
    { buffers := b.buffers.expire now
      bookings := b.bookings.map (·.pass now) }
  | .add id batch => { b with buffers := (b.buffers.add id batch).1 }
  | .close id => { b with buffers := b.buffers.close id }
  | .cancelBuffer id => { b with buffers := b.buffers.cancelBuffer id }
  | .shutdown => { b with buffers := b.buffers.shutdown }

/-- The buffers after a run of calls, each at its time. -/
def run (calls : List (Moment × BufferCall)) : BookedBuffers :=
  calls.foldl (fun b c => b.call c.1 c.2) {}

/-- A deadline of another buffer of the query is past, and no pass has come after it before. -/
def Leftover (b : BookedBuffers) (q : UniqueId) (id : BufferId) (now : Moment) : Prop :=
  ∃ i k, i ≠ id ∧ b.bookings[i]? = some k ∧ k.query = q ∧ k.passed = false ∧ k.deadline < now

/-- The deadlines are those of the bookings without a pass after them, and every registered buffer
has such a booking. -/
structure Sound (b : BookedBuffers) : Prop where
  length_eq : b.bookings.length = b.buffers.all.length
  registered : ∀ q id, b.buffers.registered.get? q = some id →
    ∃ k, b.bookings[id]? = some k ∧ k.query = q ∧ k.passed = false
  mem_deadlines : ∀ d q, (d, q) ∈ b.buffers.deadlines ↔
    ∃ k ∈ b.bookings, k.query = q ∧ k.deadline = d ∧ k.passed = false

section Sound

variable {b : BookedBuffers} {q : UniqueId} {id : BufferId} {now : Moment}

theorem Sound.query_eq (h : b.Sound) (hq : b.buffers.registered.get? q = some id) :
    ∀ q', b.buffers.registered.get? q' = some id → q' = q := by
  intro q' hq'
  obtain ⟨k, hk, hkq, -⟩ := h.registered q id hq
  obtain ⟨k', hk', hkq', -⟩ := h.registered q' id hq'
  rw [hk, Option.some.injEq] at hk'
  rw [← hkq, ← hkq', hk']

/-- What a call changes that neither registers a buffer nor touches a deadline. -/
theorem Sound.of_same (h : b.Sound) {buffers : ResultBuffers}
    (hall : buffers.all.length = b.buffers.all.length)
    (hreg : ∀ q id, buffers.registered.get? q = some id →
      b.buffers.registered.get? q = some id)
    (hdl : buffers.deadlines = b.buffers.deadlines) : Sound { b with buffers } where
  length_eq := h.length_eq.trans hall.symm
  registered q id hq := h.registered q id (hreg q id hq)
  mem_deadlines d q := by
    rw [hdl]
    exact h.mem_deadlines d q

/-- A new buffer has a booking of its own, with its deadline. -/
theorem Sound.create (h : b.Sound) (q : UniqueId) (capacity timeout : Nat) :
    Sound (b.call now (.create q capacity timeout)) := by
  cases hq : b.buffers.registered.get? q with
  | some id =>
    have hc : b.buffers.registered.contains q = true := by rw [Assoc.contains, hq]; rfl
    simp only [call, hc, if_true, ResultBuffers.create_of_some hq]
    exact h
  | none =>
    have hc : b.buffers.registered.contains q = false := by rw [Assoc.contains, hq]; rfl
    simp only [call, hc, Bool.false_eq_true, if_false, ResultBuffers.create_of_none hq]
    refine ⟨by simp [h.length_eq], fun q' id hid => ?_, fun d q' => ?_⟩
    · simp only [Assoc.get?_put] at hid
      split_ifs at hid with hqq
      · obtain rfl := Option.some.inj hid
        refine ⟨{ query := q, deadline := now + timeout }, ?_, hqq.symm, rfl⟩
        rw [← h.length_eq, List.getElem?_concat_length]
      · obtain ⟨k, hk, hrest⟩ := h.registered q' id hid
        refine ⟨k, ?_, hrest⟩
        rw [List.getElem?_append_left (List.getElem?_eq_some_iff.1 hk).1, hk]
    · have hold := h.mem_deadlines d q'
      simp only [List.mem_append, List.mem_singleton, Prod.mk.injEq, or_and_right, exists_or,
        exists_eq_left, and_true]
      rw [hold, and_comm (a := d = _), eq_comm (a := q'), eq_comm (a := d)]

/-- A sweep marks the bookings whose deadline is past. -/
theorem Sound.expire (h : b.Sound) : Sound (b.call now .expire) where
  length_eq := by
    simp only [call, List.length_map, ResultBuffers.length_all_expire]
    exact h.length_eq
  registered q id hid := by
    simp only [call, ResultBuffers.registered_expire] at hid
    split_ifs at hid with hdue
    obtain ⟨k, hk, hkq, hp⟩ := h.registered q id hid
    have hdl : (k.deadline, q) ∈ b.buffers.deadlines :=
      (h.mem_deadlines _ _).2 ⟨k, List.mem_of_getElem? hk, hkq, rfl, hp⟩
    have hlate : ¬ k.deadline < now := fun hlt =>
      hdue (ResultBuffers.mem_due.2 ⟨_, hdl, hlt⟩)
    refine ⟨k, ?_, hkq, hp⟩
    simp only [call, List.getElem?_map, hk, Option.map_some, Booking.pass_of_le hlate]
  mem_deadlines d q := by
    simp only [call, ResultBuffers.mem_deadlines_expire, h.mem_deadlines, List.mem_map]
    constructor
    · rintro ⟨⟨k, hk, hkq, rfl, hp⟩, hlate⟩
      exact ⟨k, ⟨k, hk, Booking.pass_of_le hlate⟩, hkq, rfl, hp⟩
    · rintro ⟨_, ⟨k, hk, rfl⟩, hkq, rfl, hp⟩
      obtain ⟨hp, hlate⟩ := (k.passed_pass now).1 hp
      exact ⟨⟨k, hk, hkq, rfl, hp⟩, hlate⟩

theorem Sound.call (h : b.Sound) (now : Moment) (c : BufferCall) : Sound (b.call now c) := by
  cases c with
  | create q capacity timeout => exact h.create q capacity timeout
  | cancel q =>
    refine h.of_same (b.buffers.length_all_cancel q) (fun q' id hid => ?_)
      (b.buffers.deadlines_cancel q)
    rw [ResultBuffers.registered_cancel] at hid
    split_ifs at hid
    exact hid
  | fetch q =>
    obtain ⟨hall, hreg, hdl⟩ := b.buffers.fetch_frame q
    exact h.of_same hall (fun q id hid => hreg ▸ hid) hdl
  | expire => exact h.expire
  | add id batch =>
    obtain ⟨hall, hreg, hdl⟩ := b.buffers.onBuffer_frame id .mustWait (·.add batch)
    exact h.of_same hall (fun q id hid => hreg ▸ hid) hdl
  | close id => exact h.of_same (List.length_modify _ _ _) (fun q id hid => hid) rfl
  | cancelBuffer id => exact h.of_same (List.length_modify _ _ _) (fun q id hid => hid) rfl
  | shutdown =>
    refine h.of_same List.length_mapIdx (fun q id hid => ?_) rfl
    simp [ResultBuffers.shutdown] at hid

theorem sound_empty : Sound {} :=
  ⟨rfl, fun q id hid => by simp at hid, fun d q => by simp⟩

theorem sound_run (calls : List (Moment × BufferCall)) : (run calls).Sound := by
  suffices h : ∀ b : BookedBuffers, b.Sound →
      (calls.foldl (fun b c => b.call c.1 c.2) b).Sound from h _ sound_empty
  induction calls with
  | nil => exact fun _ h => h
  | cons c calls ih => exact fun b h => ih _ (h.call c.1 c.2)

/-- A query is due if the deadline of its own buffer is past, or one that an older buffer of the
query has left behind (`Leftover`). -/
theorem Sound.due_iff (h : b.Sound) {own : Booking} (hown : b.bookings[id]? = some own)
    (hq : own.query = q) (hp : own.passed = false) :
    q ∈ b.buffers.due now ↔ own.deadline < now ∨ b.Leftover q id now := by
  rw [ResultBuffers.mem_due]
  constructor
  · rintro ⟨d, hd, hlt⟩
    obtain ⟨k, hk, hkq, rfl, hkp⟩ := (h.mem_deadlines d q).1 hd
    obtain ⟨i, hi⟩ := List.mem_iff_getElem?.1 hk
    by_cases hid : i = id
    · subst hid
      rw [hown, Option.some.injEq] at hi
      exact .inl (hi ▸ hlt)
    · exact .inr ⟨i, k, hid, hi, hkq, hkp, hlt⟩
  · rintro (hlt | ⟨i, k, -, hi, hkq, hkp, hlt⟩)
    · exact ⟨_, (h.mem_deadlines _ _).2 ⟨own, List.mem_of_getElem? hown, hq, rfl, hp⟩, hlt⟩
    · exact ⟨_, (h.mem_deadlines _ _).2 ⟨k, List.mem_of_getElem? hi, hkq, rfl, hkp⟩, hlt⟩

/-- A pass of the expiry after any run cancels a registered buffer and removes it exactly when its
own deadline is past, or one that another buffer of its query has left behind. So it keeps to the
buffer's own deadline unless one that was left behind is past before it. -/
theorem expire_registered (calls : List (Moment × BufferCall)) (now : Moment)
    (hid : (run calls).buffers.registered.get? q = some id) :
    let before := (run calls).buffers
    let after := before.expire now
    ∃ own, (run calls).bookings[id]? = some own ∧ own.query = q
      ∧ (own.deadline < now ∨ (run calls).Leftover q id now →
          after.registered.get? q = none ∧ after.buffer? id = (before.buffer? id).map .cancel)
      ∧ (¬ (own.deadline < now ∨ (run calls).Leftover q id now) →
          after.registered.get? q = some id ∧ after.buffer? id = before.buffer? id)
      ∧ ((after.registered.get? q = none ↔ own.deadline < now)
          ↔ ((run calls).Leftover q id now → own.deadline < now)) := by
  intro before after
  have hs := sound_run calls
  obtain ⟨own, hown, hq, hp⟩ := hs.registered q id hid
  have hreg : after.registered.get? q = if q ∈ before.due now then none else some id :=
    hid ▸ ResultBuffers.registered_expire
  have hbuf : after.buffer? id = if q ∈ before.due now then (before.buffer? id).map .cancel
      else before.buffer? id := ResultBuffers.buffer?_expire hid (hs.query_eq hid)
  have hdue : q ∈ before.due now ↔ own.deadline < now ∨ (run calls).Leftover q id now :=
    hs.due_iff hown hq hp
  refine ⟨own, hown, hq, fun h => ?_, fun h => ?_, ?_⟩
  · rw [hreg, hbuf, if_pos (hdue.2 h), if_pos (hdue.2 h)]
    exact ⟨rfl, rfl⟩
  · rw [hreg, hbuf, if_neg (mt hdue.1 h), if_neg (mt hdue.1 h)]
    exact ⟨rfl, rfl⟩
  · have hnone : after.registered.get? q = none ↔ q ∈ before.due now := by
      rw [hreg]
      split_ifs with h <;> simp [h]
    rw [hnone, hdue]
    tauto

/-- A buffer is cancelled at once, and its query gets another one that has more time. -/
def renewed : List (Moment × BufferCall) :=
  [(0, .create ⟨7, 1⟩ 1 0), (0, .cancel ⟨7, 1⟩), (1, .create ⟨7, 1⟩ 1 5)]

theorem expire_registered_renewed :
    (run renewed).buffers.registered.get? ⟨7, 1⟩ = some 1
      ∧ (run renewed).Leftover ⟨7, 1⟩ 1 3
      ∧ ((run renewed).buffers.expire 3).registered.get? ⟨7, 1⟩ = none
      ∧ ((run renewed).buffers.expire 3).buffer? 1
        = ((run renewed).buffers.buffer? 1).map .cancel := by
  have hid : (run renewed).buffers.registered.get? ⟨7, 1⟩ = some 1 := by decide
  have hleft : (run renewed).Leftover ⟨7, 1⟩ 1 3 :=
    ⟨0, { query := ⟨7, 1⟩, deadline := 0 }, by decide, by decide, rfl, rfl, by decide⟩
  obtain ⟨own, -, -, hcancel, -⟩ := expire_registered renewed 3 hid
  exact ⟨hid, hleft, hcancel (.inr hleft)⟩

/-- The expiry does not keep to the deadline of the buffer itself. -/
theorem expire_not_own_deadline :
    ¬ ∀ (calls : List (Moment × BufferCall)) (now : Moment) (q : UniqueId) (id : BufferId)
        (own : Booking), (calls.map (·.1) ++ [now]).Pairwise (· ≤ ·) →
      (run calls).buffers.registered.get? q = some id → (run calls).bookings[id]? = some own →
      (((run calls).buffers.expire now).registered.get? q = none ↔ own.deadline < now) := by
  intro h
  have h3 := h renewed 3 ⟨7, 1⟩ 1 { query := ⟨7, 1⟩, deadline := 6 } (by decide) (by decide)
    (by decide)
  exact absurd (h3.1 (by decide)) (by decide)

end Sound

end BookedBuffers

end QueryHost
