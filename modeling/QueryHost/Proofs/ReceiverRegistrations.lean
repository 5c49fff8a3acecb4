import QueryHost.Proofs.Calls
import QueryHost.Proofs.Registrations
import QueryHost.Query.Receivers

/-!
# Registered receivers

A receiver is found by fragment and node, and ended by both, or with all receivers of its fragment
when that is cancelled. Every call finds what the calls before it have left registered, and the
receivers that are marked as cancelled are those that were registered when their fragment was
cancelled or all were shut down (`Receivers.receivers_follow_calls`). Nobody cancels a receiver by
itself here.
-/

namespace QueryHost

inductive ReceiverCall where
  | create (key : ReceiverKey) (senders : Nat)
  | find (key : ReceiverKey)
  | closeSender (id : ReceiverId)
  | deregister (key : ReceiverKey)
  | cancel (fragment : UniqueId)
  | shutdown
  deriving DecidableEq, Repr

/-- A call, with what it gave. -/
inductive ReceiverEvent where
  | created (key : ReceiverKey) (senders : Nat) (answer : Except Failure ReceiverId)
  | found (key : ReceiverKey) (answer : Option ReceiverId)
  | senderClosed (id : ReceiverId) (last : Bool)
  | deregistered (key : ReceiverKey) (known : Bool)
  | cancelled (fragment : UniqueId) (n : Nat)
  | shutDown

namespace ReceiverEvent

/-- Whether the receiver of a key is cancelled, if one is registered. -/
def Cancels (key : ReceiverKey) : ReceiverEvent → Prop
  | cancelled fragment _ => key.fragment = fragment
  | shutDown => True
  | _ => False

/-- A receiver is registered under its key until it is deregistered or cancelled. -/
def roll : Roll ReceiverEvent ReceiverKey where
  enters
    | created key _ (.ok id) => some (key, id)
    | _ => none
  ends e key := (∃ known, e = deregistered key known) ∨ e.Cancels key

end ReceiverEvent

namespace Receivers

open ReceiverEvent

def call (r : Receivers) : ReceiverCall → Receivers × ReceiverEvent
  | .create key senders =>
    match r.create key senders with
    | .ok (r', id) => (r', .created key senders (.ok id))
    | .error failure => (r, .created key senders (.error failure))
  | .find key => (r, .found key (r.find? key))
  | .closeSender id => ((r.closeSender id).1, .senderClosed id (r.closeSender id).2)
  | .deregister key => ((r.deregister key).1, .deregistered key (r.deregister key).2)
  | .cancel fragment => ((r.cancel fragment).1, .cancelled fragment (r.cancel fragment).2)
  | .shutdown => (r.shutdown, .shutDown)

/-! ## One call -/

section Call

variable {r : Receivers} {key : ReceiverKey} {fragment : UniqueId} {id : ReceiverId} {x : Receiver}

/-- The receivers that are registered under a fragment. -/
def ofFragment (r : Receivers) (fragment : UniqueId) : List ReceiverId :=
  (r.registered.filter fun key _ => key.fragment == fragment).values

theorem create_cases (r : Receivers) (key : ReceiverKey) (senders : Nat) :
    (r.registered.contains key = true ∧ ∃ failure, r.create key senders = .error failure)
      ∨ (r.registered.get? key = none ∧ r.create key senders
        = .ok (⟨r.all ++ [{ key := key, senders := senders }],
          r.registered.put key r.all.length⟩, r.all.length)) := by
  unfold create
  split_ifs with h
  · exact .inl ⟨h, _, rfl⟩
  · exact .inr ⟨by simpa [Assoc.contains] using h, rfl⟩

theorem receiver?_mark (r : Receivers) (ids : List ReceiverId) (id : ReceiverId) :
    (r.mark ids).receiver? id
      = (r.receiver? id).map fun x => if id ∈ ids then { x with cancelled := true } else x :=
  List.getElem?_mapIdx

theorem length_mark (r : Receivers) (ids : List ReceiverId) :
    (r.mark ids).all.length = r.all.length := List.length_mapIdx

theorem mem_ofFragment_iff (r : Receivers) (fragment : UniqueId) (id : ReceiverId) :
    id ∈ r.ofFragment fragment ↔ ∃ key, key.fragment = fragment ∧ r.find? key = some id := by
  unfold ofFragment find?
  rw [Assoc.mem_values_iff]
  refine exists_congr fun key => ?_
  rw [Assoc.get?_filter_key r.registered (fun k => k.fragment == fragment)]
  by_cases h : key.fragment = fragment <;> simp [h]

theorem cancel_count (r : Receivers) (fragment : UniqueId) :
    (r.cancel fragment).2 = (r.ofFragment fragment).length := by
  simp [cancel, ofFragment, Assoc.size, Assoc.values]

theorem find?_cancel (r : Receivers) (fragment : UniqueId) (key : ReceiverKey) :
    (r.cancel fragment).1.find? key = if key.fragment = fragment then none else r.find? key := by
  refine (Assoc.get?_filter_key r.registered (fun k => k.fragment != fragment) key).trans ?_
  by_cases h : key.fragment = fragment <;> simp [h, find?]

theorem receiver?_cancel (r : Receivers) (fragment : UniqueId) (id : ReceiverId) :
    (r.cancel fragment).1.receiver? id = (r.receiver? id).map fun x =>
      if id ∈ r.ofFragment fragment then { x with cancelled := true } else x :=
  r.receiver?_mark _ id

/-- What a call does to the registrations is what its event says. -/
theorem turn_call (r : Receivers) (c : ReceiverCall) :
    roll.Turn r.registered r.all.length (r.call c).2 (r.call c).1.registered
      (r.call c).1.all.length := by
  cases c with
  | create key senders =>
    rcases r.create_cases key senders with ⟨-, failure, hr⟩ | ⟨hfree, hr⟩
    · simp only [call, hr]
      exact .idle rfl fun _ => by simp [roll, Cancels]
    · simp only [call, hr, List.length_append]
      exact .enter key hfree rfl fun _ => by simp [roll, Cancels]
  | find key => exact .idle rfl fun _ => by simp [call, roll, Cancels]
  | closeSender id =>
    simp only [call, closeSender, List.length_modify]
    exact .idle rfl fun _ => by simp [roll, Cancels]
  | deregister key =>
    refine .leave _ rfl fun k id => ?_
    show (r.registered.erase key).get? k = some id ↔ _
    rw [Assoc.get?_erase]
    by_cases hk : k = key
    · simp [call, roll, hk]
    · simp [call, roll, Cancels, hk, Ne.symm hk]
  | cancel fragment =>
    simp only [call, cancel, length_mark]
    refine .leave _ rfl fun k id => ?_
    show (r.cancel fragment).1.find? k = some id ↔ _
    rw [find?_cancel]
    by_cases hk : k.fragment = fragment <;> simp [roll, Cancels, hk, find?]
  | shutdown =>
    simp only [call, shutdown, length_mark]
    exact .leave _ rfl fun k id => by simp [roll, Cancels]

/-- Every registered receiver has the key that it is found by. -/
abbrev Rooted (r : Receivers) : Prop := QueryHost.Rooted Receiver.key r.all r.registered

theorem Rooted.mem_ofFragment_iff (hr : r.Rooted) (hx : r.receiver? id = some x) :
    id ∈ r.ofFragment fragment ↔ x.key.fragment = fragment ∧ r.find? x.key = some id := by
  rw [Receivers.mem_ofFragment_iff]
  constructor
  · rintro ⟨key, hfragment, hkey⟩
    obtain ⟨rfl, hkey⟩ := (hr.get?_iff hx).1 hkey
    exact ⟨hfragment, hkey⟩
  · exact fun ⟨hfragment, hkey⟩ => ⟨x.key, hfragment, hkey⟩

/-- A call cancels a receiver exactly if it means it and the receiver is registered. -/
theorem receiver?_call (hr : r.Rooted) (c : ReceiverCall) (hx : r.receiver? id = some x) :
    ∃ x', (r.call c).1.receiver? id = some x' ∧ x'.key = x.key
      ∧ (x'.cancelled = true
        ↔ x.cancelled = true ∨ (r.find? x.key = some id ∧ (r.call c).2.Cancels x.key)) := by
  have hmark (ids : List ReceiverId) (meant : Prop)
      (hmem : id ∈ ids ↔ meant ∧ r.find? x.key = some id) : ∃ x',
        (r.mark ids).receiver? id = some x' ∧ x'.key = x.key
          ∧ (x'.cancelled = true ↔ x.cancelled = true ∨ (r.find? x.key = some id ∧ meant)) := by
    refine ⟨_, (r.receiver?_mark ids id).trans (by rw [hx]; rfl), ?_⟩
    rw [and_comm (b := meant), ← hmem]
    by_cases h : id ∈ ids <;> simp [h]
  cases c with
  | create key senders =>
    rcases r.create_cases key senders with ⟨-, failure, hc⟩ | ⟨-, hc⟩
    · exact ⟨x, by simp [call, hc, hx], rfl, by simp [call, hc, Cancels]⟩
    · have hlt : id < r.all.length := (List.getElem?_eq_some_iff.1 hx).1
      refine ⟨x, ?_, rfl, by simp [call, hc, Cancels]⟩
      simp only [call, hc, receiver?]
      exact (List.getElem?_append_left hlt).trans hx
  | find key => exact ⟨x, hx, rfl, by simp [call, Cancels]⟩
  | closeSender id' =>
    have hx : r.all[id]? = some x := hx
    simp only [call, closeSender, receiver?, List.getElem?_modify, hx]
    refine ⟨_, rfl, ?_⟩
    split_ifs <;> simp [Cancels]
  | deregister key => exact ⟨x, hx, rfl, by simp [call, Cancels]⟩
  | cancel fragment => exact hmark _ _ (hr.mem_ofFragment_iff hx)
  | shutdown =>
    refine hmark _ True ?_
    rw [true_and]
    exact hr.mem_values_iff hx

end Call

/-! ## What runs keep -/

/-- The receiver was cancelled while it was registered under its key. -/
def Struck (events : List ReceiverEvent) (key : ReceiverKey) (id : ReceiverId) : Prop :=
  ∃ before e after, events = before ++ e :: after ∧ roll.Stands before key id ∧ e.Cancels key

theorem entered_iff (events : List ReceiverEvent) (key : ReceiverKey) (id : ReceiverId) :
    roll.Entered events key id ↔ ∃ senders, .created key senders (.ok id) ∈ events := by
  constructor
  · rintro ⟨e, he, henters⟩
    cases e with
    | created key' senders answer =>
      cases answer with
      | ok id' =>
        obtain ⟨rfl, rfl⟩ := Prod.mk.inj (Option.some.inj henters)
        exact ⟨senders, he⟩
      | error failure => cases henters
    | _ => cases henters
  · rintro ⟨senders, he⟩
    exact ⟨_, he, rfl⟩

/-- How the receivers stand with what has happened. -/
structure Kept (r : Receivers) (events : List ReceiverEvent) : Prop where
  tracks : roll.Tracks r.registered r.all.length events
  told : ∀ key senders id, .created key senders (.ok id) ∈ events →
    ∃ x, r.receiver? id = some x ∧ x.key = key ∧ (x.cancelled = true ↔ Struck events key id)

section Kept

variable {r : Receivers} {events : List ReceiverEvent} {key : ReceiverKey} {senders : Nat}
  {id : ReceiverId}

theorem kept_empty : Kept {} [] where
  tracks := Roll.tracks_empty roll
  told _ _ _ h := nomatch h

theorem Kept.rooted (h : Kept r events) : r.Rooted := by
  intro key id hkey
  obtain ⟨senders, hmem⟩ := (entered_iff events key id).1 (h.tracks.entered hkey)
  obtain ⟨x, hx, hxkey, -⟩ := h.told key senders id hmem
  exact ⟨x, hx, hxkey⟩

theorem Kept.struck_snoc (h : Kept r events) (e : ReceiverEvent) : Struck (events ++ [e]) key id
    ↔ Struck events key id ∨ (r.find? key = some id ∧ e.Cancels key) := by
  unfold Struck find?
  rw [exists_split_snoc (P := fun before e => roll.Stands before key id ∧ e.Cancels key),
    h.tracks.get?_iff]

theorem call_created {c : ReceiverCall} (hc : (r.call c).2 = .created key senders (.ok id)) :
    id = r.all.length
      ∧ (r.call c).1.receiver? id = some { key := key, senders := senders } := by
  cases c with
  | create key' senders' =>
    rcases r.create_cases key' senders' with ⟨-, failure, hr⟩ | ⟨-, hr⟩
    · simp [call, hr] at hc
    · simp only [call, hr, ReceiverEvent.created.injEq, Except.ok.injEq] at hc
      obtain ⟨rfl, rfl, rfl⟩ := hc
      exact ⟨rfl, by simp [call, hr, receiver?]⟩
  | _ => simp [call] at hc

theorem Kept.call (h : Kept r events) (c : ReceiverCall) :
    Kept (r.call c).1 (events ++ [(r.call c).2]) := by
  refine ⟨h.tracks.turn (turn_call r c), fun key senders id hmem => ?_⟩
  rcases List.mem_append.1 hmem with hmem | hmem
  · obtain ⟨x, hx, rfl, hstruck⟩ := h.told key senders id hmem
    obtain ⟨x', hx', hkey, hcancelled⟩ := receiver?_call h.rooted c hx
    exact ⟨x', hx', hkey, by rw [hcancelled, hstruck, h.struck_snoc]⟩
  · have hc := (List.mem_singleton.1 hmem).symm
    obtain ⟨hid, hx⟩ := call_created hc
    refine ⟨_, hx, rfl, ?_⟩
    have hnot : ¬ Struck events key id := fun ⟨_, _, _, hsplit, hstands, _⟩ =>
      h.tracks.not_stood (Nat.le_of_eq hid.symm) hsplit hstands
    rw [h.struck_snoc, hc]
    simp [hnot, Cancels]

theorem Kept.create_error_iff (h : Kept r events) (key : ReceiverKey) (senders : Nat) :
    (∃ failure, r.create key senders = .error failure) ↔ ∃ id, roll.Stands events key id := by
  rw [← h.tracks.contains_iff]
  rcases r.create_cases key senders with ⟨hc, failure, hr⟩ | ⟨hfree, hr⟩
  · simp [hr, hc]
  · simp [hr, Assoc.contains, hfree]

theorem Kept.mem_ofFragment_iff (h : Kept r events) {fragment : UniqueId} :
    id ∈ r.ofFragment fragment ↔ ∃ node, roll.Stands events ⟨fragment, node⟩ id := by
  rw [Receivers.mem_ofFragment_iff]
  constructor
  · rintro ⟨key, rfl, hkey⟩
    exact ⟨key.node, (h.tracks.get?_iff key id).1 hkey⟩
  · rintro ⟨node, hstands⟩
    exact ⟨⟨fragment, node⟩, rfl, (h.tracks.get?_iff _ id).2 hstands⟩

theorem Kept.nodup_ofFragment (h : Kept r events) (fragment : UniqueId) :
    (r.ofFragment fragment).Nodup :=
  h.tracks.nodup_values.sublist (List.filter_sublist.map Prod.snd)

end Kept

/-! ## Every run -/

/-- After every run, a receiver is found under a key exactly if it was created last under it and has
not been deregistered, cancelled or shut down since. To create one fails exactly if one would be
found, and then nothing changes; else the receiver gets a number that no other has had. To cancel a
fragment counts, marks and forgets the receivers that are registered under it, with whatever node,
and no others. A receiver is marked exactly if it was registered when its fragment was cancelled or
all were shut down. -/
theorem receivers_follow_calls (calls : List ReceiverCall) (r : Receivers)
    (events : List ReceiverEvent) (hrun : callAll call {} calls = (r, events)) :
    (∀ key id, r.find? key = some id ↔ roll.Stands events key id)
      ∧ (∀ key senders,
        ((∃ failure, r.create key senders = .error failure) ↔ ∃ id, roll.Stands events key id)
        ∧ (∀ failure, r.create key senders = .error failure →
          (r.call (.create key senders)).1 = r)
        ∧ ∀ r' id, r.create key senders = .ok (r', id) →
          ∀ key' senders', .created key' senders' (.ok id) ∉ events)
      ∧ (∀ fragment, ∃ ids : List ReceiverId, ids.Nodup
        ∧ (∀ id, id ∈ ids ↔ ∃ node, roll.Stands events ⟨fragment, node⟩ id)
        ∧ (r.cancel fragment).2 = ids.length
        ∧ (∀ id, (r.cancel fragment).1.receiver? id = (r.receiver? id).map fun x =>
          if id ∈ ids then { x with cancelled := true } else x)
        ∧ ∀ key, (r.cancel fragment).1.find? key
          = if key.fragment = fragment then none else r.find? key)
      ∧ ∀ key senders id, .created key senders (.ok id) ∈ events →
        ∃ x, r.receiver? id = some x ∧ x.key = key
          ∧ (x.cancelled = true ↔ Struck events key id) := by
  have hkept : Kept (callAll call {} calls).1 (callAll call {} calls).2 :=
    callAll_history (R := Kept) (fun _ _ c h => h.call c) calls {} [] kept_empty
  rw [hrun] at hkept
  refine ⟨hkept.tracks.get?_iff, fun key senders => ⟨hkept.create_error_iff key senders,
    fun failure hr => by simp [call, hr], fun r' id hr key' senders' hmem => ?_⟩,
    fun fragment => ?_, hkept.told⟩
  · rcases r.create_cases key senders with ⟨-, failure, hr'⟩ | ⟨-, hr'⟩
    · cases hr.symm.trans hr'
    · obtain ⟨-, rfl⟩ := Prod.mk.inj (Except.ok.inj (hr.symm.trans hr'))
      have hentered := (entered_iff events key' _).2 ⟨senders', hmem⟩
      exact absurd (hkept.tracks.lt hentered) (Nat.lt_irrefl _)
  · exact ⟨r.ofFragment fragment, hkept.nodup_ofFragment fragment,
      fun id => hkept.mem_ofFragment_iff, r.cancel_count fragment, r.receiver?_cancel fragment,
      r.find?_cancel fragment⟩

/-- Two fragments with receivers at the same node; the one is cancelled, and a receiver is created
anew under the key that this has freed. -/
def rebuilt : List ReceiverCall :=
  [.create ⟨⟨7, 1⟩, 3⟩ 2, .create ⟨⟨7, 1⟩, 4⟩ 1, .create ⟨⟨7, 2⟩, 3⟩ 1, .cancel ⟨7, 1⟩,
    .create ⟨⟨7, 1⟩, 3⟩ 2]

theorem receivers_follow_calls_rebuilt :
    let run := callAll call {} rebuilt
    run.1.find? ⟨⟨7, 1⟩, 3⟩ = some 3 ∧ roll.Stands run.2 ⟨⟨7, 1⟩, 3⟩ 3
      ∧ (∃ failure, run.1.create ⟨⟨7, 1⟩, 3⟩ 2 = .error failure)
      ∧ Struck run.2 ⟨⟨7, 1⟩, 3⟩ 0 ∧ ¬ Struck run.2 ⟨⟨7, 1⟩, 3⟩ 3
      ∧ ∃ ids : List ReceiverId, ids.length = 1
        ∧ ∀ id, id ∈ ids ↔ ∃ node, roll.Stands run.2 ⟨⟨7, 1⟩, node⟩ id := by
  intro run
  obtain ⟨hfind, hcreate, hcancel, hmarked⟩ := receivers_follow_calls rebuilt run.1 run.2 rfl
  have hfound : run.1.find? ⟨⟨7, 1⟩, 3⟩ = some 3 := rfl
  have hstands := (hfind _ _).1 hfound
  have hfirst : run.2[0]? = some (.created ⟨⟨7, 1⟩, 3⟩ 2 (.ok 0)) := rfl
  have hagain : run.2[4]? = some (.created ⟨⟨7, 1⟩, 3⟩ 2 (.ok 3)) := rfl
  obtain ⟨x, hx, -, hstruck⟩ := hmarked _ _ _ (List.mem_of_getElem? hfirst)
  obtain ⟨y, hy, -, hstruck'⟩ := hmarked _ _ _ (List.mem_of_getElem? hagain)
  obtain rfl : x = ⟨⟨⟨7, 1⟩, 3⟩, 2, 0, true⟩ := Option.some.inj (hx.symm.trans rfl)
  obtain rfl : y = ⟨⟨⟨7, 1⟩, 3⟩, 2, 0, false⟩ := Option.some.inj (hy.symm.trans rfl)
  obtain ⟨ids, -, hids, hcount, -⟩ := hcancel ⟨7, 1⟩
  exact ⟨hfound, hstands, (hcreate _ _).1.2 ⟨3, hstands⟩, hstruck.1 rfl,
    fun h => absurd (hstruck'.2 h) Bool.false_ne_true, ids, hcount.symm, hids⟩

end Receivers

end QueryHost
