import Mathlib.Data.List.Infix
import Mathlib.Tactic.Common
import QueryHost.Proofs.Calls
import QueryHost.Query.ResultBuffers

/-!
# The packets of a result buffer

The batches that a buffer has taken are those that were fetched from it, followed by those that it
holds (`Kept.taken_eq`), until it is cancelled and holds none. So they are fetched in their order,
and the end of the stream is met only when all that was taken has been fetched; packets of both
kinds are numbered together (`packets_in_order`).

Each use of a buffer is made under its lock. Somebody who has to wait makes the same use again
later.
-/

namespace QueryHost

inductive BufferUse where
  | add (batch : Bytes)
  | close
  | cancel
  | fetch
  deriving DecidableEq, Repr

/-- A use of a buffer, with what it gave. -/
inductive BufferEvent where
  | added (batch : Bytes) (answer : Attempt (Except Failure Unit))
  | closed
  | cancelled
  | fetched (answer : Attempt (Except Failure Packet))

namespace BufferEvent

/-- The batch that the buffer has taken. -/
def batch? : BufferEvent → Option Bytes
  | added batch (.done (.ok ())) => some batch
  | _ => none

def packet? : BufferEvent → Option Packet
  | fetched (.done (.ok packet)) => some packet
  | _ => none

def taken (events : List BufferEvent) : List Bytes := events.filterMap batch?

def packets (events : List BufferEvent) : List Packet := events.filterMap packet?

/-- The batches that were fetched. -/
def delivered (events : List BufferEvent) : List Bytes := (packets events).filterMap (·.batch)

/-- Nothing was added or fetched but failed with `f`. -/
def FailsWith (f : Failure) (e : BufferEvent) : Prop :=
  (∀ batch answer, e = added batch answer → answer = .done (.error f))
    ∧ ∀ answer, e = fetched answer → answer = .done (.error f)

theorem FailsWith.batch?_eq_none {f : Failure} {e : BufferEvent} (h : e.FailsWith f) :
    e.batch? = none := by
  cases e with
  | added batch answer =>
    obtain rfl := h.1 batch answer rfl
    rfl
  | closed | cancelled | fetched => rfl

theorem FailsWith.packet?_eq_none {f : Failure} {e : BufferEvent} (h : e.FailsWith f) :
    e.packet? = none := by
  cases e with
  | fetched answer =>
    obtain rfl := h.2 answer rfl
    rfl
  | added | closed | cancelled => rfl

theorem taken_snoc (events : List BufferEvent) (e : BufferEvent) :
    taken (events ++ [e]) = taken events ++ e.batch?.toList := by
  cases h : e.batch? <;> simp [taken, h]

theorem packets_snoc (events : List BufferEvent) (e : BufferEvent) :
    packets (events ++ [e]) = packets events ++ e.packet?.toList := by
  cases h : e.packet? <;> simp [packets, h]

theorem delivered_snoc (events : List BufferEvent) (e : BufferEvent) :
    delivered (events ++ [e]) = delivered events ++ (e.packet?.bind (·.batch)).toList := by
  rw [delivered, packets_snoc, List.filterMap_append]
  cases h : e.packet? with
  | none => rfl
  | some packet => cases hb : packet.batch <;> simp [delivered, hb]

end BufferEvent

namespace ResultBuffer

open BufferEvent

def use (b : ResultBuffer) : BufferUse → ResultBuffer × BufferEvent
  | .add batch => ((b.add batch).1, .added batch (b.add batch).2)
  | .close => (b.close, .closed)
  | .cancel => (b.cancel, .cancelled)
  | .fetch => (b.fetch.1, .fetched b.fetch.2)

/-! ## What a use can do -/

theorem add_cases (b : ResultBuffer) (batch : Bytes) :
    (b.cancelled = true ∧ b.add batch = (b, .done (.error b.cancelledFailure)))
      ∨ (b.cancelled = false ∧ b.add batch = (b, .mustWait))
      ∨ (b.cancelled = false ∧ b.batches.length < b.capacity
        ∧ b.add batch = ({ b with batches := b.batches ++ [batch] }, .done (.ok ()))) := by
  unfold add
  split_ifs with hc hfull
  · exact .inl ⟨hc, rfl⟩
  · exact .inr (.inl ⟨by simpa using hc, rfl⟩)
  · exact .inr (.inr ⟨by simpa using hc, Nat.lt_of_not_le hfull, rfl⟩)

/-- A fetch fails, gives the first batch, gives the end of the stream, or has to wait. -/
theorem fetch_cases (b : ResultBuffer) :
    (b.cancelled = true ∧ b.fetch = (b, .done (.error b.cancelledFailure)))
      ∨ (∃ batch rest, b.cancelled = false ∧ b.batches = batch :: rest
        ∧ b.fetch = ({ b with batches := rest, nextPacket := b.nextPacket + 1 },
          .done (.ok ⟨b.nextPacket, some batch⟩)))
      ∨ (b.cancelled = false ∧ b.batches = [] ∧ b.closed = true
        ∧ b.fetch = ({ b with nextPacket := b.nextPacket + 1 },
          .done (.ok ⟨b.nextPacket, none⟩)))
      ∨ (b.cancelled = false ∧ b.fetch = (b, .mustWait)) := by
  cases hc : b.cancelled with
  | true => exact .inl ⟨rfl, by simp [fetch, hc]⟩
  | false =>
    cases hb : b.batches with
    | cons batch rest => exact .inr (.inl ⟨batch, rest, rfl, rfl, by simp [fetch, hc, hb]⟩)
    | nil =>
      cases hclosed : b.closed with
      | true => exact .inr (.inr (.inl ⟨rfl, rfl, rfl, by simp [fetch, hc, hb, hclosed]⟩))
      | false => exact .inr (.inr (.inr ⟨rfl, by simp [fetch, hc, hb, hclosed]⟩))

/-! ## Every use -/

/-- How a buffer stands with what has happened to it. -/
structure Kept (query : UniqueId) (capacity : Nat) (b : ResultBuffer) (events : List BufferEvent) :
    Prop where
  query_eq : b.query = query
  capacity_eq : b.capacity = max capacity 1
  batches_le : b.batches.length ≤ b.capacity
  taken_eq : b.cancelled = false → taken events = delivered events ++ b.batches
  delivered_taken : delivered events <+: taken events
  numbers_eq : (packets events).map (·.number) = List.range b.nextPacket
  closed_mem : b.closed = true → BufferEvent.closed ∈ events

section Kept

variable {query : UniqueId} {capacity : Nat} {b : ResultBuffer} {events : List BufferEvent}

theorem kept_new (query : UniqueId) (capacity : Nat) :
    Kept query capacity (new query capacity) [] where
  query_eq := rfl
  capacity_eq := rfl
  batches_le := Nat.zero_le _
  taken_eq _ := rfl
  delivered_taken := List.prefix_refl _
  numbers_eq := rfl
  closed_mem h := by simp [new] at h

/-- Nothing was taken and no packet was given. -/
theorem Kept.idle (h : Kept query capacity b events) {e : BufferEvent} (hbatch : e.batch? = none)
    (hpacket : e.packet? = none) : Kept query capacity b (events ++ [e]) := by
  have htaken : taken (events ++ [e]) = taken events := by simp [taken_snoc, hbatch]
  have hpackets : packets (events ++ [e]) = packets events := by simp [packets_snoc, hpacket]
  have hdelivered : delivered (events ++ [e]) = delivered events := by rw [delivered, hpackets]; rfl
  refine ⟨h.query_eq, h.capacity_eq, h.batches_le, ?_, ?_, ?_, fun hc =>
    List.mem_append_left _ (h.closed_mem hc)⟩
  · rw [htaken, hdelivered]
    exact h.taken_eq
  · rw [htaken, hdelivered]
    exact h.delivered_taken
  · rw [hpackets]
    exact h.numbers_eq

theorem Kept.add (h : Kept query capacity b events) (batch : Bytes) :
    Kept query capacity (b.add batch).1 (events ++ [.added batch (b.add batch).2]) := by
  rcases b.add_cases batch with ⟨-, ha⟩ | ⟨-, ha⟩ | ⟨ho, hroom, ha⟩
  · rw [ha]
    exact h.idle rfl rfl
  · rw [ha]
    exact h.idle rfl rfl
  · rw [ha]
    have htaken := h.taken_eq ho
    refine ⟨h.query_eq, h.capacity_eq, ?_, fun _ => ?_, ?_, ?_, fun hc =>
      List.mem_append_left _ (h.closed_mem hc)⟩
    · simpa using Nat.succ_le_of_lt hroom
    · simp [taken_snoc, delivered_snoc, batch?, packet?, htaken]
    · simp [taken_snoc, delivered_snoc, batch?, packet?, htaken]
    · simpa [packets_snoc, packet?] using h.numbers_eq

theorem Kept.fetch (h : Kept query capacity b events) :
    Kept query capacity b.fetch.1 (events ++ [.fetched b.fetch.2]) := by
  rcases b.fetch_cases with ⟨-, hf⟩ | ⟨batch, rest, ho, hb, hf⟩ | ⟨ho, hb, -, hf⟩ | ⟨-, hf⟩
  · rw [hf]
    exact h.idle rfl rfl
  · rw [hf]
    have htaken := h.taken_eq ho
    have hlen := h.batches_le
    rw [hb] at htaken hlen
    refine ⟨h.query_eq, h.capacity_eq, Nat.le_of_succ_le hlen, fun _ => ?_, ?_, ?_, fun hc =>
      List.mem_append_left _ (h.closed_mem hc)⟩
    · simp [taken_snoc, delivered_snoc, batch?, packet?, htaken]
    · simp [taken_snoc, delivered_snoc, batch?, packet?, htaken]
    · simp [packets_snoc, packet?, h.numbers_eq, List.range_succ]
  · rw [hf]
    have htaken := h.taken_eq ho
    refine ⟨h.query_eq, h.capacity_eq, h.batches_le, fun _ => ?_, ?_, ?_, fun hc =>
      List.mem_append_left _ (h.closed_mem hc)⟩
    · simp [taken_snoc, delivered_snoc, batch?, packet?, htaken]
    · simpa [taken_snoc, delivered_snoc, batch?, packet?] using h.delivered_taken
    · simp [packets_snoc, packet?, h.numbers_eq, List.range_succ]
  · rw [hf]
    exact h.idle rfl rfl

theorem Kept.use (h : Kept query capacity b events) (u : BufferUse) :
    Kept query capacity (b.use u).1 (events ++ [(b.use u).2]) := by
  cases u with
  | add batch => exact h.add batch
  | close =>
    have hidle := h.idle (e := .closed) rfl rfl
    exact ⟨hidle.query_eq, hidle.capacity_eq, hidle.batches_le, hidle.taken_eq,
      hidle.delivered_taken, hidle.numbers_eq, fun _ => by simp [ResultBuffer.use]⟩
  | cancel =>
    have hidle := h.idle (e := .cancelled) rfl rfl
    exact ⟨hidle.query_eq, hidle.capacity_eq, Nat.zero_le _, fun hc => by simp [ResultBuffer.use,
      cancel] at hc, hidle.delivered_taken, hidle.numbers_eq, hidle.closed_mem⟩
  | fetch => exact h.fetch

/-- A packet without a batch ends the stream: the buffer is closed and all is fetched. -/
theorem Kept.of_end (h : Kept query capacity b events) {u : BufferUse} {n : Nat}
    (hu : (b.use u).2 = .fetched (.done (.ok ⟨n, none⟩))) :
    BufferEvent.closed ∈ events ∧ delivered events = taken events := by
  cases u with
  | add batch => simp [ResultBuffer.use] at hu
  | close => simp [ResultBuffer.use] at hu
  | cancel => simp [ResultBuffer.use] at hu
  | fetch =>
    simp only [ResultBuffer.use, BufferEvent.fetched.injEq] at hu
    rcases b.fetch_cases with ⟨-, hf⟩ | ⟨batch, rest, -, -, hf⟩ | ⟨ho, hb, hc, -⟩ | ⟨-, hf⟩
    · simp [hf] at hu
    · simp [hf] at hu
    · exact ⟨h.closed_mem hc, by rw [h.taken_eq ho, hb, List.append_nil]⟩
    · simp [hf] at hu

end Kept

/-! ## Cancelled buffers -/

section Cancelled

variable {b : ResultBuffer}

theorem use_of_cancelled (hc : b.cancelled = true) (u : BufferUse) :
    (b.use u).1.cancelled = true ∧ (b.use u).1.query = b.query
      ∧ (b.use u).2.FailsWith b.cancelledFailure := by
  cases u <;> simp [use, add, fetch, close, cancel, hc, FailsWith]

theorem uses_of_cancelled (uses : List BufferUse) {b : ResultBuffer} (hc : b.cancelled = true) :
    ∀ e ∈ (callAll use b uses).2, e.FailsWith b.cancelledFailure := by
  have step (b' : ResultBuffer) (u : BufferUse) (h : b'.cancelled = true ∧ b'.query = b.query) :
      ((b'.use u).1.cancelled = true ∧ (b'.use u).1.query = b.query)
        ∧ (b'.use u).2.FailsWith b.cancelledFailure := by
    obtain ⟨hc', hq, hfails⟩ := use_of_cancelled h.1 u
    rw [cancelledFailure, h.2] at hfails
    exact ⟨⟨hc', hq.trans h.2⟩, hfails⟩
  exact (callAll_forall step uses ⟨hc, rfl⟩).2

theorem cancelled_of_event {u : BufferUse} (hu : (b.use u).2 = .cancelled) :
    (b.use u).1.cancelled = true ∧ (b.use u).1.query = b.query := by
  cases u with
  | cancel => exact ⟨rfl, rfl⟩
  | _ => simp [use] at hu

end Cancelled

/-! ## Every run -/

theorem kept_uses (query : UniqueId) (capacity : Nat) (uses : List BufferUse) :
    Kept query capacity (callAll use (new query capacity) uses).1
      (callAll use (new query capacity) uses).2 :=
  callAll_history (R := Kept query capacity) (fun _ _ u h => h.use u) uses _ [] (kept_new _ _)

/-- Whatever is done with a buffer, its batches are fetched in the order in which they were taken
and the others are held, no more than there is room for; the packets are numbered from zero without
gaps. The end of the stream comes only after the buffer was closed and all that was taken was
fetched, and after the buffer was cancelled nothing succeeds any more. -/
theorem packets_in_order (query : UniqueId) (capacity : Nat) (uses : List BufferUse)
    (b : ResultBuffer) (events : List BufferEvent)
    (hrun : callAll use (new query capacity) uses = (b, events)) :
    delivered events <+: taken events
      ∧ (b.cancelled = false → taken events = delivered events ++ b.batches)
      ∧ (packets events).map (·.number) = List.range (packets events).length
      ∧ b.batches.length ≤ max capacity 1
      ∧ (∀ before n after, events = before ++ .fetched (.done (.ok ⟨n, none⟩)) :: after →
          BufferEvent.closed ∈ before ∧ delivered before = taken before)
      ∧ (∀ before after, events = before ++ .cancelled :: after →
          (∀ e ∈ after, e.FailsWith (.internal ("query " ++ query.text ++ " cancelled")))
            ∧ taken after = [] ∧ packets after = []) := by
  have hkept := kept_uses query capacity uses
  rw [hrun] at hkept
  have hnext : b.nextPacket = (packets events).length := by
    simpa using (congrArg List.length hkept.numbers_eq).symm
  have hevents : (callAll use (new query capacity) uses).2 = events := congrArg Prod.snd hrun
  refine ⟨hkept.delivered_taken, hkept.taken_eq, hnext ▸ hkept.numbers_eq,
    hkept.capacity_eq ▸ hkept.batches_le, fun before n after h => ?_, fun before after h => ?_⟩
  · obtain ⟨uses₁, u, uses₂, -, rfl, hu, -⟩ := callAll_split before (hevents.trans h)
    exact (kept_uses query capacity uses₁).of_end hu
  · obtain ⟨uses₁, u, uses₂, -, -, hu, rfl⟩ := callAll_split before (hevents.trans h)
    have hquery := (kept_uses query capacity uses₁).query_eq
    obtain ⟨hc, hq⟩ := cancelled_of_event hu
    have hfails := uses_of_cancelled uses₂ hc
    rw [cancelledFailure, hq, hquery] at hfails
    exact ⟨hfails, List.filterMap_eq_nil_iff.2 fun e he => (hfails e he).batch?_eq_none,
      List.filterMap_eq_nil_iff.2 fun e he => (hfails e he).packet?_eq_none⟩

/-- A buffer for two batches, which was full for a while, was closed with one batch in it, was
fetched to its end and then cancelled. -/
def spent : List BufferUse :=
  [.add [1], .add [2], .add [3], .fetch, .close, .fetch, .fetch, .cancel, .add [4], .fetch]

theorem packets_in_order_spent :
    let run := callAll use (new ⟨7, 1⟩ 2) spent
    let f := Failure.internal ("query " ++ (⟨7, 1⟩ : UniqueId).text ++ " cancelled")
    let before := [.added [1] (.done (.ok ())), .added [2] (.done (.ok ())), .added [3] .mustWait,
      .fetched (.done (.ok ⟨0, some [1]⟩)), .closed, .fetched (.done (.ok ⟨1, some [2]⟩))]
    let after := [.added [4] (.done (.error f)), .fetched (.done (.error f))]
    run.2 = before ++ .fetched (.done (.ok ⟨2, none⟩)) :: .cancelled :: after
      ∧ delivered run.2 <+: taken run.2
      ∧ (run.1.cancelled = false → taken run.2 = delivered run.2 ++ run.1.batches)
      ∧ (packets run.2).map (·.number) = List.range (packets run.2).length
      ∧ run.1.batches.length ≤ 2
      ∧ (BufferEvent.closed ∈ before ∧ delivered before = taken before)
      ∧ ((∀ e ∈ after, e.FailsWith f) ∧ taken after = [] ∧ packets after = []) := by
  intro run f before after
  have hevents : run.2 = before ++ .fetched (.done (.ok ⟨2, none⟩)) :: .cancelled :: after := rfl
  obtain ⟨horder, hheld, hnumbers, hroom, hend, hcancel⟩ :=
    packets_in_order ⟨7, 1⟩ 2 spent run.1 run.2 rfl
  refine ⟨hevents, horder, hheld, hnumbers, hroom, hend before 2 _ hevents, ?_⟩
  exact hcancel (before ++ [.fetched (.done (.ok ⟨2, none⟩))]) after hevents

end ResultBuffer

end QueryHost
