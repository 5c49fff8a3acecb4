import QueryHost.Proofs.Calls
import QueryHost.Proofs.Registrations
import QueryHost.Query.ResultQueues

/-!
# The items of result queues

What a queue has accepted is what was obtained from it, followed by what it holds, until it is shut
down and accepts nothing any more; what it holds then is still there for whoever has the queue. A
queue is shut down by itself or with its registration, and the next queue of its fragment instance
is another one (`ResultQueues.items_in_order`).

Somebody who waits for room or for an item looks again when the wait is over, and it is then that
the item is put or taken. So a put or a get of a run is the end of a wait. To fetch is to find a
queue and to get an item from it; if others come between, that is a get of a queue which may have
been registered.
-/

namespace QueryHost

inductive QueueCall where
  | create (fragment : UniqueId)
  | put (id : QueueId) (item : Bytes)
  | get (id : QueueId)
  | fetch (fragment : UniqueId)
  | close (id : QueueId)
  | cancel (fragment : UniqueId)
  | shutdown
  deriving DecidableEq, Repr

/-- A call, with what it gave. -/
inductive QueueEvent where
  | created (fragment : UniqueId) (id : QueueId)
  | put (id : QueueId) (item : Bytes) (accepted : Bool)
  | got (id : QueueId) (answer : Option Bytes)
  /-- The queue is the one that was found. -/
  | fetched (fragment : UniqueId) (id : Option QueueId) (answer : Except Failure (Option Bytes))
  | closed (id : QueueId)
  | cancelled (fragment : UniqueId) (known : Bool)
  | shutDown

namespace QueueEvent

/-- A queue is registered for a fragment instance until this is cancelled or all are shut down. -/
def roll : Roll QueueEvent UniqueId where
  enters
    | created fragment id => some (fragment, id)
    | _ => none
  ends
    | cancelled fragment _, key => fragment = key
    | shutDown, _ => True
    | _, _ => False

/-- The item that the queue has accepted. -/
def accepted? (id : QueueId) : QueueEvent → Option Bytes
  | put id' item true => if id' = id then some item else none
  | _ => none

/-- The item that was obtained from the queue. -/
def obtained? (id : QueueId) : QueueEvent → Option Bytes
  | got id' answer => if id' = id then answer else none
  | fetched _ id' (.ok answer) => if id' = some id then answer else none
  | _ => none

def accepted (id : QueueId) (events : List QueueEvent) : List Bytes :=
  events.filterMap (accepted? id)

def obtained (id : QueueId) (events : List QueueEvent) : List Bytes :=
  events.filterMap (obtained? id)

/-- An event after others shuts the queue down: directly, or by ending its registration. -/
def ShutsDown (id : QueueId) (before : List QueueEvent) (e : QueueEvent) : Prop :=
  ∃ fragment, (roll.Entered before fragment id ∧ e = closed id)
    ∨ (roll.Stands before fragment id ∧ roll.ends e fragment)

def WasShutDown (id : QueueId) (events : List QueueEvent) : Prop :=
  ∃ before e after, events = before ++ e :: after ∧ ShutsDown id before e

theorem accepted_snoc (id : QueueId) (events : List QueueEvent) (e : QueueEvent) :
    accepted id (events ++ [e]) = accepted id events ++ (e.accepted? id).toList := by
  cases h : e.accepted? id <;> simp [accepted, h]

theorem obtained_snoc (id : QueueId) (events : List QueueEvent) (e : QueueEvent) :
    obtained id (events ++ [e]) = obtained id events ++ (e.obtained? id).toList := by
  cases h : e.obtained? id <;> simp [obtained, h]

theorem wasShutDown_snoc {id : QueueId} {events : List QueueEvent} {e : QueueEvent} :
    WasShutDown id (events ++ [e]) ↔ WasShutDown id events ∨ ShutsDown id events e :=
  exists_split_snoc

end QueueEvent

open QueueEvent

namespace ResultQueue

theorem put_cases (q : ResultQueue) (item : Bytes) :
    (¬ (q.closed = false ∧ q.items.length < q.capacity) ∧ q.put item = (q, false))
      ∨ (q.closed = false ∧ q.items.length < q.capacity
        ∧ q.put item = ({ q with items := q.items ++ [item] }, true)) := by
  unfold put
  split_ifs with h
  · refine .inl ⟨fun ⟨hopen, hroom⟩ => ?_, rfl⟩
    rw [hopen, Bool.false_or, decide_eq_true_eq] at h
    exact absurd hroom (Nat.not_lt.2 h)
  · rw [Bool.or_eq_true, not_or, decide_eq_true_eq, Bool.not_eq_true] at h
    exact .inr ⟨h.1, Nat.lt_of_not_le h.2, rfl⟩

theorem get_cases (q : ResultQueue) :
    (q.items = [] ∧ q.get = (q, none))
      ∨ ∃ item rest, q.items = item :: rest ∧ q.get = ({ q with items := rest }, some item) := by
  unfold get
  split
  · rename_i h
    exact .inl ⟨h, rfl⟩
  · rename_i item rest h
    exact .inr ⟨item, rest, h, rfl⟩

/-- What an event can have done to a queue: nothing, one item put or taken, or it is shut down. -/
inductive Change (id : QueueId) (e : QueueEvent) (shuts : Prop) (q : ResultQueue) :
    ResultQueue → Prop where
  | none (ha : e.accepted? id = none) (ho : e.obtained? id = none) (hs : ¬ shuts) :
    Change id e shuts q q
  | put (item : Bytes) (hopen : q.closed = false) (hroom : q.items.length < q.capacity)
    (ha : e.accepted? id = some item) (ho : e.obtained? id = none) (hs : ¬ shuts) :
    Change id e shuts q { q with items := q.items ++ [item] }
  | take (item : Bytes) (rest : List Bytes) (hitems : q.items = item :: rest)
    (ha : e.accepted? id = none) (ho : e.obtained? id = some item) (hs : ¬ shuts) :
    Change id e shuts q { q with items := rest }
  | shut (ha : e.accepted? id = none) (ho : e.obtained? id = none) (hs : shuts) :
    Change id e shuts q q.shutdown

end ResultQueue

namespace ResultQueues

def call (m : ResultQueues) : QueueCall → ResultQueues × QueueEvent
  | .create fragment => ((m.create fragment).1, .created fragment (m.create fragment).2)
  | .put id item => ((m.put id item).1, .put id item (m.put id item).2)
  | .get id => ((m.get id).1, .got id (m.get id).2)
  | .fetch fragment =>
    match m.fetch fragment with
    | .ok (m', answer) => (m', .fetched fragment (m.registered.get? fragment) (.ok answer))
    | .error failure => (m, .fetched fragment (m.registered.get? fragment) (.error failure))
  | .close id => (m.close id, .closed id)
  | .cancel fragment => ((m.cancel fragment).1, .cancelled fragment (m.cancel fragment).2)
  | .shutdown => (m.shutdown, .shutDown)

/-! ## One call -/

section Call

variable {m : ResultQueues} {fragment : UniqueId} {id id' : QueueId} {q : ResultQueue}

/-- An event shuts down a queue, by itself or with its registration. -/
def Shuts (m : ResultQueues) (id : QueueId) (e : QueueEvent) : Prop :=
  e = .closed id ∨ ∃ fragment, m.registered.get? fragment = some id ∧ roll.ends e fragment

theorem shuts_iff {e : QueueEvent} : m.Shuts id e ↔ match e with
    | .closed id' => id' = id
    | .cancelled fragment _ => m.registered.get? fragment = some id
    | .shutDown => id ∈ m.registered.values
    | _ => False := by
  cases e <;> simp [Shuts, roll, Assoc.mem_values_iff]

theorem create_of_some (h : m.registered.get? fragment = some id) :
    m.create fragment = (m, id) := by
  simp [create, h]

theorem create_of_none (h : m.registered.get? fragment = none) : m.create fragment
    = (⟨m.all ++ [.new ResultQueue.usualCapacity], m.registered.put fragment m.all.length⟩,
      m.all.length) := by
  simp [create, h]

theorem fetch_of_some (h : m.registered.get? fragment = some id) :
    m.fetch fragment = .ok (m.get id) := by
  simp [fetch, h]

theorem fetch_of_none (h : m.registered.get? fragment = none) :
    ∃ failure, m.fetch fragment = .error failure :=
  ⟨_, by simp only [fetch, h]; rfl⟩

section OnQueue

variable {α : Type} (absent : α) (f : ResultQueue → ResultQueue × α)

theorem onQueue_of_some (h : m.queue? id = some q) :
    m.onQueue id absent f = ({ m with all := m.all.set id (f q).1 }, (f q).2) := by
  have h : m.all[id]? = some q := h
  simp [onQueue, h]

theorem onQueue_of_none (h : m.queue? id = none) : m.onQueue id absent f = (m, absent) := by
  have h : m.all[id]? = none := h
  simp [onQueue, h]

theorem queue?_onQueue (h : m.queue? id = some q) :
    (m.onQueue id absent f).1.queue? id = some (f q).1 := by
  have hlt : id < m.all.length := (List.getElem?_eq_some_iff.1 h).1
  rw [onQueue_of_some absent f h]
  exact List.getElem?_set_self hlt

theorem queue?_onQueue_of_ne (h : id' ≠ id) :
    (m.onQueue id' absent f).1.queue? id = m.queue? id := by
  cases hq : m.queue? id' with
  | none => rw [onQueue_of_none absent f hq]
  | some q =>
    rw [onQueue_of_some absent f hq]
    exact List.getElem?_set_ne h

theorem registered_onQueue : (m.onQueue id absent f).1.registered = m.registered := by
  cases hq : m.queue? id with
  | none => rw [onQueue_of_none absent f hq]
  | some q => rw [onQueue_of_some absent f hq]

theorem length_onQueue : (m.onQueue id absent f).1.all.length = m.all.length := by
  cases hq : m.queue? id with
  | none => rw [onQueue_of_none absent f hq]
  | some q =>
    rw [onQueue_of_some absent f hq]
    exact List.length_set

end OnQueue

/-- What a call does to the registrations is what its event says. -/
theorem turn_call (m : ResultQueues) (c : QueueCall) :
    roll.Turn m.registered m.all.length (m.call c).2 (m.call c).1.registered
      (m.call c).1.all.length := by
  cases c with
  | create fragment =>
    cases hget : m.registered.get? fragment with
    | none =>
      simp only [call, create_of_none hget, List.length_append]
      exact .enter fragment hget rfl fun _ => not_false
    | some id =>
      simp only [call, create_of_some hget]
      exact .again fragment id hget rfl fun _ => not_false
  | put id item =>
    simp only [call, put, registered_onQueue, length_onQueue]
    exact .idle rfl fun _ => not_false
  | get id =>
    simp only [call, get, registered_onQueue, length_onQueue]
    exact .idle rfl fun _ => not_false
  | fetch fragment =>
    cases hget : m.registered.get? fragment with
    | none =>
      obtain ⟨failure, hfetch⟩ := fetch_of_none hget
      simp only [call, hfetch]
      exact .idle rfl fun _ => not_false
    | some id =>
      simp only [call, fetch_of_some hget, get, registered_onQueue, length_onQueue]
      exact .idle rfl fun _ => not_false
  | close id =>
    simp only [call, close, List.length_modify]
    exact .idle rfl fun _ => not_false
  | cancel fragment =>
    have hlength : (m.cancel fragment).1.all.length = m.all.length := by
      unfold cancel
      split
      · rfl
      · exact List.length_modify _ _ _
    have hregistered (k : UniqueId) : (m.cancel fragment).1.registered.get? k
        = if k = fragment then none else m.registered.get? k := by
      unfold cancel
      split
      · rename_i h
        split_ifs with hk
        · rw [hk, h]
        · rfl
      · exact Assoc.get?_erase _ _ _
    simp only [call, hlength]
    refine .leave _ rfl fun k id => ?_
    rw [hregistered]
    by_cases hk : k = fragment
    · simp [roll, hk]
    · simp [roll, hk, Ne.symm hk]
  | shutdown =>
    simp only [call, shutdown, List.length_mapIdx]
    exact .leave _ rfl fun k id => by simp [roll]

theorem queue?_close (m : ResultQueues) (id' id : QueueId) : (m.close id').queue? id
    = if id' = id then (m.queue? id).map .shutdown else m.queue? id := by
  unfold queue? close
  by_cases h : id' = id
  · rw [if_pos h, h]
    exact List.getElem?_modify_eq _ _ _
  · rw [if_neg h]
    exact List.getElem?_modify_ne _ _ h

theorem accepted?_put_of_ne {item : Bytes} {accepted : Bool} (h : id' ≠ id) :
    (QueueEvent.put id' item accepted).accepted? id = none := by
  cases accepted <;> simp [accepted?, h]

/-- To look for an item takes the first one of that queue, if there is any. -/
theorem change_get {e : QueueEvent} {shuts : Prop} (ha : e.accepted? id = none)
    (ho : e.obtained? id = if id' = id then (m.get id').2 else none) (hs : ¬ shuts)
    (hq : m.queue? id = some q) :
    ∃ q', (m.get id').1.queue? id = some q' ∧ q.Change id e shuts q' := by
  by_cases hid : id' = id
  · subst hid
    refine ⟨_, queue?_onQueue _ _ hq, ?_⟩
    rw [if_pos rfl, get, onQueue_of_some _ _ hq] at ho
    rcases q.get_cases with ⟨-, hget⟩ | ⟨item, rest, hitems, hget⟩ <;> rw [hget] at ho ⊢
    · exact .none ha ho hs
    · exact .take item rest hitems ha ho hs
  · rw [if_neg hid] at ho
    exact ⟨q, (queue?_onQueue_of_ne _ _ hid).trans hq, .none ha ho hs⟩

/-- What a call can have done to a queue that there was before. -/
theorem change_call (c : QueueCall) (hq : m.queue? id = some q) :
    ∃ q', (m.call c).1.queue? id = some q'
      ∧ q.Change id (m.call c).2 (m.Shuts id (m.call c).2) q' := by
  cases c with
  | create fragment =>
    have hlt : id < m.all.length := (List.getElem?_eq_some_iff.1 hq).1
    refine ⟨q, ?_, .none rfl rfl shuts_iff.1⟩
    cases hget : m.registered.get? fragment with
    | none =>
      simp only [call, create_of_none hget]
      exact (List.getElem?_append_left hlt).trans hq
    | some id' =>
      simp only [call, create_of_some hget]
      exact hq
  | put id' item =>
    by_cases hid : id' = id
    · subst hid
      refine ⟨_, queue?_onQueue _ _ hq, ?_⟩
      simp only [call, put, onQueue_of_some _ _ hq]
      rcases q.put_cases item with ⟨-, hput⟩ | ⟨hopen, hroom, hput⟩ <;> rw [hput]
      · exact .none rfl rfl shuts_iff.1
      · exact .put item hopen hroom (if_pos rfl) rfl shuts_iff.1
    · refine ⟨q, (queue?_onQueue_of_ne _ _ hid).trans hq, ?_⟩
      exact .none (accepted?_put_of_ne hid) rfl shuts_iff.1
  | get id' => exact change_get rfl rfl shuts_iff.1 hq
  | fetch fragment =>
    cases hget : m.registered.get? fragment with
    | none =>
      obtain ⟨failure, hfetch⟩ := fetch_of_none hget
      simp only [call, hfetch]
      exact ⟨q, hq, .none rfl rfl shuts_iff.1⟩
    | some id' =>
      simp only [call, fetch_of_some hget, hget]
      exact change_get rfl (by simp [obtained?]) shuts_iff.1 hq
  | close id' =>
    simp only [call, queue?_close, hq]
    by_cases hid : id' = id
    · exact ⟨q.shutdown, if_pos hid, .shut rfl rfl (shuts_iff.2 hid)⟩
    · exact ⟨q, if_neg hid, .none rfl rfl (mt shuts_iff.1 hid)⟩
  | cancel fragment =>
    simp only [call]
    cases hget : m.registered.get? fragment with
    | none =>
      have hcancel : m.cancel fragment = (m, false) := by simp [cancel, hget]
      rw [hcancel]
      refine ⟨q, hq, .none rfl rfl fun hshuts => ?_⟩
      cases hget.symm.trans (shuts_iff.1 hshuts)
    | some id' =>
      have hcancel : m.cancel fragment
          = ({ m.close id' with registered := m.registered.erase fragment }, true) := by
        simp [cancel, hget]
      have hclose := queue?_close m id' id
      rw [hq] at hclose
      rw [hcancel]
      by_cases hid : id' = id
      · subst hid
        exact ⟨q.shutdown, hclose.trans (if_pos rfl), .shut rfl rfl (shuts_iff.2 hget)⟩
      · refine ⟨q, hclose.trans (if_neg hid), .none rfl rfl fun hshuts => hid ?_⟩
        exact Option.some.inj (hget.symm.trans (shuts_iff.1 hshuts))
  | shutdown =>
    have hq : m.all[id]? = some q := hq
    have hshutdown : m.shutdown.queue? id
        = some (if id ∈ m.registered.values then q.shutdown else q) := by
      simp only [shutdown, queue?, List.getElem?_mapIdx, hq, Option.map_some]
    refine ⟨_, hshutdown, ?_⟩
    simp only [call]
    split_ifs with hmem
    · exact .shut rfl rfl (shuts_iff.2 hmem)
    · exact .none rfl rfl (mt shuts_iff.1 hmem)

/-- Nothing is put into a queue or taken from it before there is one. -/
theorem silent_call (c : QueueCall) (hq : m.queue? id = none) :
    (m.call c).2.accepted? id = none ∧ (m.call c).2.obtained? id = none := by
  cases c with
  | put id' item =>
    refine ⟨?_, rfl⟩
    by_cases hid : id' = id
    · subst hid
      simp only [call, put, onQueue_of_none _ _ hq, accepted?]
    · exact accepted?_put_of_ne hid
  | get id' =>
    refine ⟨rfl, ?_⟩
    by_cases hid : id' = id
    · subst hid
      simp only [call, get, onQueue_of_none _ _ hq, obtained?, ite_self]
    · exact if_neg hid
  | fetch fragment =>
    cases hget : m.registered.get? fragment with
    | none =>
      obtain ⟨failure, hfetch⟩ := fetch_of_none hget
      simp only [call, hfetch]
      exact ⟨rfl, rfl⟩
    | some id' =>
      simp only [call, fetch_of_some hget, hget]
      refine ⟨rfl, ?_⟩
      by_cases hid : id' = id
      · subst hid
        simp only [get, onQueue_of_none _ _ hq, obtained?, ite_self]
      · exact if_neg fun h => hid (Option.some.inj h)
  | create | close | cancel | shutdown => exact ⟨rfl, rfl⟩

/-- A queue that was not there before is empty and open. -/
theorem new_call (c : QueueCall) (hq : m.queue? id = none)
    (hnew : (m.call c).1.queue? id = some q) :
    q = .new ResultQueue.usualCapacity ∧ ∃ fragment, (m.call c).2 = .created fragment id := by
  have hle : m.all.length ≤ id := List.getElem?_eq_none_iff.1 hq
  have hlt : id < (m.call c).1.all.length := (List.getElem?_eq_some_iff.1 hnew).1
  have hsame (henters : roll.enters (m.call c).2 = none) : False := by
    rw [(turn_call m c).length_eq henters] at hlt
    exact absurd hle (Nat.not_le.2 hlt)
  cases c with
  | create fragment =>
    cases hget : m.registered.get? fragment with
    | none =>
      simp only [call, create_of_none hget, List.length_append, List.length_singleton] at hlt hnew ⊢
      obtain rfl : id = m.all.length := Nat.le_antisymm (Nat.lt_succ_iff.1 hlt) hle
      exact ⟨Option.some.inj (hnew.symm.trans List.getElem?_concat_length), fragment, rfl⟩
    | some id' =>
      simp only [call, create_of_some hget] at hlt
      exact absurd hle (Nat.not_le.2 hlt)
  | fetch fragment =>
    refine (hsame ?_).elim
    simp only [call]
    split <;> rfl
  | put | get | close | cancel | shutdown => exact (hsame rfl).elim

end Call

/-! ## What runs keep -/

/-- How a queue stands with what has happened. -/
structure Tells (id : QueueId) (q : ResultQueue) (events : List QueueEvent) : Prop where
  capacity_eq : q.capacity = ResultQueue.usualCapacity
  items_le : q.items.length ≤ ResultQueue.usualCapacity
  accepted_eq : accepted id events = obtained id events ++ q.items
  closed_iff : q.closed = true ↔ WasShutDown id events

structure Kept (m : ResultQueues) (events : List QueueEvent) : Prop where
  tracks : roll.Tracks m.registered m.all.length events
  told : ∀ id q, m.queue? id = some q → Tells id q events
  untold : ∀ id, m.queue? id = none → accepted id events = [] ∧ obtained id events = []

section Kept

variable {m : ResultQueues} {events : List QueueEvent} {fragment : UniqueId} {id : QueueId}
  {q q' : ResultQueue} {e : QueueEvent}

theorem kept_empty : Kept {} [] where
  tracks := Roll.tracks_empty roll
  told _ _ h := nomatch h
  untold _ _ := ⟨rfl, rfl⟩

theorem Tells.change (h : Tells id q events) (hchange : q.Change id e (ShutsDown id events e) q') :
    Tells id q' (events ++ [e]) := by
  obtain ⟨hcapacity, hle, haccepted, hclosed⟩ := h
  cases hchange with
  | none ha ho hs =>
    refine ⟨hcapacity, hle, ?_, ?_⟩
    · simpa [accepted_snoc, obtained_snoc, ha, ho] using haccepted
    · rw [wasShutDown_snoc, or_iff_left hs]
      exact hclosed
  | put item hopen hroom ha ho hs =>
    refine ⟨hcapacity, ?_, ?_, ?_⟩
    · rw [List.length_append]
      exact hcapacity ▸ hroom
    · simp [accepted_snoc, obtained_snoc, ha, ho, haccepted]
    · rw [wasShutDown_snoc, or_iff_left hs]
      exact hclosed
  | take item rest hitems ha ho hs =>
    rw [hitems] at hle haccepted
    refine ⟨hcapacity, Nat.le_of_succ_le hle, ?_, ?_⟩
    · simp [accepted_snoc, obtained_snoc, ha, ho, haccepted]
    · rw [wasShutDown_snoc, or_iff_left hs]
      exact hclosed
  | shut ha ho hs =>
    refine ⟨hcapacity, hle, ?_, ?_⟩
    · simpa [accepted_snoc, obtained_snoc, ha, ho, ResultQueue.shutdown] using haccepted
    · exact ⟨fun _ => wasShutDown_snoc.2 (.inr hs), fun _ => rfl⟩

theorem entered_iff : roll.Entered events fragment id ↔ .created fragment id ∈ events := by
  constructor
  · rintro ⟨e, he, henters⟩
    cases e with
    | created fragment' id' =>
      obtain ⟨rfl, rfl⟩ := Prod.mk.inj (Option.some.inj henters)
      exact he
    | _ => cases henters
  · exact fun he => ⟨_, he, rfl⟩

theorem Kept.queue?_iff (h : Kept m events) :
    (∃ q, m.queue? id = some q) ↔ ∃ fragment, .created fragment id ∈ events := by
  simp only [← entered_iff, ← h.tracks.lt_iff]
  exact ⟨fun ⟨_, hq⟩ => (List.getElem?_eq_some_iff.1 hq).1,
    fun hlt => ⟨_, List.getElem?_eq_getElem hlt⟩⟩

theorem Kept.shutsDown_iff (h : Kept m events) (hq : m.queue? id = some q) :
    ShutsDown id events e ↔ m.Shuts id e := by
  have hentered := (h.tracks.lt_iff id).1 (List.getElem?_eq_some_iff.1 hq).1
  simp only [ShutsDown, Shuts, h.tracks.get?_iff, exists_or, exists_and_right, hentered, true_and]

theorem Kept.not_wasShutDown (h : Kept m events) (hq : m.queue? id = none) :
    ¬ WasShutDown id events := by
  have hid : m.all.length ≤ id := List.getElem?_eq_none_iff.1 hq
  rintro ⟨before, e, after, hsplit, fragment, ⟨⟨d, hd, henters⟩, -⟩ | ⟨hstands, -⟩⟩
  · have hentered : roll.Entered events fragment id :=
      ⟨d, hsplit ▸ List.mem_append_left _ hd, henters⟩
    exact absurd hid (Nat.not_le.2 (h.tracks.lt hentered))
  · exact h.tracks.not_stood hid hsplit hstands

/-- One call keeps what is told of the queues. -/
theorem Kept.call (h : Kept m events) (c : QueueCall) :
    Kept (m.call c).1 (events ++ [(m.call c).2]) := by
  refine ⟨h.tracks.turn (turn_call m c), fun id q hnew => ?_, fun id hnone => ?_⟩
  · cases hq : m.queue? id with
    | some q₀ =>
      obtain ⟨q', hq', hchange⟩ := change_call c hq
      obtain rfl := Option.some.inj (hnew.symm.trans hq')
      rw [← h.shutsDown_iff hq] at hchange
      exact (h.told id q₀ hq).change hchange
    | none =>
      obtain ⟨haccepted, hobtained⟩ := h.untold id hq
      obtain ⟨hsilent, hsilent'⟩ := silent_call c hq
      obtain ⟨rfl, fragment, hcreated⟩ := new_call c hq hnew
      have hshut : ¬ ShutsDown id events (m.call c).2 := by
        rw [hcreated]
        rintro ⟨k, ⟨-, he⟩ | ⟨-, he⟩⟩
        · cases he
        · exact he
      refine ⟨rfl, Nat.zero_le _, ?_, ?_⟩
      · simp [accepted_snoc, obtained_snoc, hsilent, hsilent', haccepted, hobtained,
          ResultQueue.new]
      · rw [wasShutDown_snoc, or_iff_left hshut]
        exact iff_of_false Bool.false_ne_true (h.not_wasShutDown hq)
  · have hq : m.queue? id = none := by
      by_contra hsome
      obtain ⟨q, hq⟩ := Option.ne_none_iff_exists'.1 hsome
      obtain ⟨q', hq', -⟩ := change_call c hq
      cases hnone.symm.trans hq'
    obtain ⟨haccepted, hobtained⟩ := h.untold id hq
    obtain ⟨hsilent, hsilent'⟩ := silent_call c hq
    simp [accepted_snoc, obtained_snoc, hsilent, hsilent', haccepted, hobtained]

theorem Kept.run (h : Kept m events) (calls : List QueueCall) :
    Kept (callAll ResultQueues.call m calls).1 (events ++ (callAll ResultQueues.call m calls).2) :=
  callAll_history (R := Kept) (fun _ _ c h => h.call c) calls m events h

end Kept

/-! ## Queues that are shut down -/

section Closed

variable {m : ResultQueues} {id : QueueId} {q : ResultQueue}

/-- A queue that is shut down accepts nothing any more. -/
theorem accepted_of_closed : ∀ (calls : List QueueCall) {m : ResultQueues} {q : ResultQueue},
    m.queue? id = some q → q.closed = true → accepted id (callAll call m calls).2 = []
  | [], _, _, _, _ => rfl
  | c :: calls, m, q, hq, hclosed => by
    obtain ⟨q', hq', hchange⟩ := change_call c hq
    have hstep : (m.call c).2.accepted? id = none ∧ q'.closed = true := by
      cases hchange with
      | none ha _ _ => exact ⟨ha, hclosed⟩
      | put _ hopen _ _ _ _ => cases hopen.symm.trans hclosed
      | take _ _ _ ha _ _ => exact ⟨ha, hclosed⟩
      | shut ha _ _ => exact ⟨ha, rfl⟩
    have hrest := accepted_of_closed calls hq' hstep.2
    simp only [callAll, accepted, List.filterMap_cons, hstep.1]
    exact hrest

/-- Whoever has a queue gets all that it holds. -/
theorem gets_to_end : ∀ (items : List Bytes) {m : ResultQueues} {q : ResultQueue},
    m.queue? id = some q → q.items = items →
      (callAll call m (List.replicate items.length (.get id))).2
        = items.map fun item => .got id (some item)
  | [], _, _, _, _ => rfl
  | item :: rest, m, q, hq, hitems => by
    have hget : q.get = ({ q with items := rest }, some item) := by simp [ResultQueue.get, hitems]
    have hanswer : (m.call (.get id)).2 = .got id (some item) := by
      simp only [call, get, onQueue_of_some _ _ hq, hget]
    have hleft : (m.call (.get id)).1.queue? id = some { q with items := rest } := by
      refine (queue?_onQueue _ _ hq).trans ?_
      rw [hget]
    simp only [List.length_cons, List.replicate_succ, callAll, hanswer, List.map_cons]
    exact congrArg _ (gets_to_end rest hleft rfl)

theorem Kept.accepted_after {events : List QueueEvent} (h : Kept m events) (c : QueueCall)
    (hshuts : ShutsDown id events (m.call c).2) (later : List QueueCall) :
    accepted id (callAll ResultQueues.call (m.call c).1 later).2 = [] := by
  have hentered : ∃ fragment, roll.Entered events fragment id := by
    obtain ⟨fragment, ⟨hentered, -⟩ | ⟨hstands, -⟩⟩ := hshuts
    · exact ⟨fragment, hentered⟩
    · exact ⟨fragment, hstands.entered⟩
  obtain ⟨q', hq', -⟩ := change_call c (List.getElem?_eq_getElem ((h.tracks.lt_iff id).2 hentered))
  have hclosed := ((h.call c).told id q' hq').closed_iff.2 (wasShutDown_snoc.2 (.inr hshuts))
  exact accepted_of_closed later hq' hclosed

end Closed

/-! ## Every run -/

theorem Kept.put_iff {m : ResultQueues} {events : List QueueEvent} {id : QueueId} {q : ResultQueue}
    (h : Kept m events) (hq : m.queue? id = some q) (item : Bytes) :
    (m.put id item).2 = true ↔ ¬ WasShutDown id events ∧ q.items.length < q.capacity := by
  rw [← (h.told id q hq).closed_iff, Bool.not_eq_true, put, onQueue_of_some _ _ hq]
  rcases q.put_cases item with ⟨hnot, hput⟩ | ⟨hopen, hroom, hput⟩
  · simp only [hput, Bool.false_eq_true, hnot]
  · simp only [hput, hopen, hroom, and_self]

/-- A queue that is created where none is registered is a new one. -/
theorem Kept.create_new {m : ResultQueues} {events : List QueueEvent} {fragment : UniqueId}
    (h : Kept m events) (hfree : m.registered.get? fragment = none) :
    (∀ fragment', .created fragment' (m.create fragment).2 ∉ events)
      ∧ (m.create fragment).1.queue? (m.create fragment).2
        = some (.new ResultQueue.usualCapacity) := by
  rw [create_of_none hfree]
  refine ⟨fun fragment' hmem => ?_, List.getElem?_concat_length⟩
  exact absurd (h.tracks.lt (entered_iff.2 hmem)) (Nat.lt_irrefl _)

/-- After every run, what was obtained from a queue and then what it holds are the items that it has
accepted, in their order. It holds no more than its capacity, takes an item exactly if there is room
and it was not shut down, and gives all it holds to whoever goes on getting. After an event that
shuts it down it has accepted nothing. To create a queue or to fetch where one is registered is to
use that queue; else there is nothing to fetch, and the queue that is created is another than all
before, empty and open. So is the queue that is created after a cancellation. -/
theorem items_in_order (calls : List QueueCall) (m : ResultQueues) (events : List QueueEvent)
    (hrun : callAll call {} calls = (m, events)) :
    (∀ fragment id, .created fragment id ∈ events → ∃ q, m.queue? id = some q
        ∧ accepted id events = obtained id events ++ q.items
        ∧ q.items.length ≤ q.capacity ∧ q.capacity = ResultQueue.usualCapacity
        ∧ (∀ item, (m.put id item).2 = true
          ↔ ¬ WasShutDown id events ∧ q.items.length < q.capacity)
        ∧ (callAll call m (List.replicate q.items.length (.get id))).2
          = q.items.map fun item => .got id (some item))
      ∧ (∀ id before e after, events = before ++ e :: after → ShutsDown id before e →
        accepted id after = [])
      ∧ (∀ fragment id, roll.Stands events fragment id →
        m.create fragment = (m, id) ∧ m.fetch fragment = .ok (m.get id))
      ∧ (∀ fragment, (∀ id, ¬ roll.Stands events fragment id) →
        (∃ failure, m.fetch fragment = .error failure)
          ∧ (∀ fragment', .created fragment' (m.create fragment).2 ∉ events)
          ∧ (m.create fragment).1.queue? (m.create fragment).2
            = some (.new ResultQueue.usualCapacity))
      ∧ ∀ fragment, let next := (m.cancel fragment).1.create fragment
        (∀ fragment', .created fragment' next.2 ∉ events)
          ∧ next.1.queue? next.2 = some (.new ResultQueue.usualCapacity) := by
  have hkept := kept_empty.run calls
  rw [hrun, List.nil_append] at hkept
  refine ⟨fun fragment id hmem => ?_, fun id before e after h hshuts => ?_,
    fun fragment id hstands => ?_, fun fragment hnone => ?_, fun fragment => ?_⟩
  · obtain ⟨q, hq⟩ := hkept.queue?_iff.2 ⟨fragment, hmem⟩
    have htells := hkept.told id q hq
    exact ⟨q, hq, htells.accepted_eq, htells.capacity_eq ▸ htells.items_le, htells.capacity_eq,
      hkept.put_iff hq, gets_to_end q.items hq rfl⟩
  · have hevents : (callAll call {} calls).2 = events := congrArg Prod.snd hrun
    obtain ⟨calls₁, c, calls₂, -, rfl, rfl, rfl⟩ := callAll_split before (hevents.trans h)
    exact (kept_empty.run calls₁).accepted_after c hshuts calls₂
  · have hget := (hkept.tracks.get?_iff fragment id).2 hstands
    exact ⟨create_of_some hget, fetch_of_some hget⟩
  · have hget := hkept.tracks.get?_eq_none_iff.2 hnone
    exact ⟨fetch_of_none hget, hkept.create_new hget⟩
  · have hcancelled := hkept.call (.cancel fragment)
    have hfree : (m.cancel fragment).1.registered.get? fragment = none := by
      refine hcancelled.tracks.get?_eq_none_iff.2 fun id hstands => ?_
      rw [Roll.stands_snoc] at hstands
      rcases hstands with ⟨-, hends⟩ | henters
      · exact hends rfl
      · cases henters
    obtain ⟨hnew, hqueue⟩ := hcancelled.create_new hfree
    exact ⟨fun fragment' hmem => hnew fragment' (List.mem_append_left _ hmem), hqueue⟩

/-- A queue is cancelled with an item in it and created again; its first holder gets that item in
the end, and the item of the new queue was fetched from there. -/
def replaced : List QueueCall :=
  [.create ⟨5, 5⟩, .put 0 [1], .put 0 [2], .fetch ⟨5, 5⟩, .cancel ⟨5, 5⟩, .put 0 [3],
    .create ⟨5, 5⟩, .put 1 [4], .fetch ⟨5, 5⟩]

theorem items_in_order_replaced :
    let run := callAll call {} replaced
    let before : List QueueEvent := [.created ⟨5, 5⟩ 0, .put 0 [1] true, .put 0 [2] true,
      .fetched ⟨5, 5⟩ (some 0) (.ok (some [1]))]
    let after : List QueueEvent := [.put 0 [3] false, .created ⟨5, 5⟩ 1, .put 1 [4] true,
      .fetched ⟨5, 5⟩ (some 1) (.ok (some [4]))]
    run.2 = before ++ .cancelled ⟨5, 5⟩ true :: after
      ∧ accepted 0 run.2 = [[1], [2]] ∧ obtained 0 run.2 = [[1]]
      ∧ accepted 1 run.2 = [[4]] ∧ obtained 1 run.2 = [[4]]
      ∧ (∃ q, run.1.queue? 0 = some q ∧ accepted 0 run.2 = obtained 0 run.2 ++ q.items
        ∧ (callAll call run.1 (List.replicate q.items.length (.get 0))).2
          = q.items.map fun item => .got 0 (some item))
      ∧ accepted 0 after = [] ∧ run.1.create ⟨5, 5⟩ = (run.1, 1) := by
  intro run before after
  have hevents : run.2 = before ++ .cancelled ⟨5, 5⟩ true :: after := rfl
  obtain ⟨hqueues, hclosed, hstanding, -, -⟩ := items_in_order replaced run.1 run.2 rfl
  have hcreated : .created ⟨5, 5⟩ 0 ∈ run.2 := by simp [hevents, before]
  obtain ⟨q, hq, haccepted, -, -, -, hgets⟩ := hqueues _ _ hcreated
  have hold : roll.Stands before ⟨5, 5⟩ 0 :=
    ⟨[], .created ⟨5, 5⟩ 0, before.tail, rfl, rfl, by simp [roll, before]⟩
  have hnew : roll.Stands run.2 ⟨5, 5⟩ 1 :=
    ⟨before ++ [.cancelled ⟨5, 5⟩ true, .put 0 [3] false], .created ⟨5, 5⟩ 1, after.tail.tail, rfl,
      rfl, by simp [roll, after]⟩
  exact ⟨hevents, rfl, rfl, rfl, rfl, ⟨q, hq, haccepted, hgets⟩,
    hclosed 0 before _ after hevents ⟨_, .inr ⟨hold, rfl⟩⟩, (hstanding _ _ hnew).1⟩

end ResultQueues

end QueryHost
