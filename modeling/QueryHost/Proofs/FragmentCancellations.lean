import QueryHost.Proofs.Calls
import QueryHost.Proofs.Registrations
import QueryHost.Query.Fragments

/-!
# Cancelled fragments

A call cancels the instances that it names, by their own id or by that of their query, as long as
they are registered, and no other; to shut down cancels all that are (`Fragments.fragment?_call`).
So what has become of an instance can be read off the history of its registration, and once it is
removed nothing happens to it any more (`Fragments.cancellations_reach_targets`).
-/

namespace QueryHost

inductive FragmentCall where
  | register (query instanceId : UniqueId)
  | cancel (instanceId : UniqueId) (reason : String)
  | cancelQuery (query : UniqueId) (reason : String)
  | remove (instanceId : UniqueId)
  | shutdown
  deriving DecidableEq, Repr

/-- A call, with what it gave. -/
inductive FragmentEvent where
  | registered (query instanceId : UniqueId) (answer : Except Failure FragmentId)
  | cancelled (instanceId : UniqueId) (reason : String) (known : Bool)
  | queryCancelled (query : UniqueId) (reason : String) (n : Nat)
  | removed (instanceId : UniqueId) (known : Bool)
  | shutDown

namespace FragmentEvent

/-- An instance is registered under its id until it is removed or all are shut down. -/
def roll : Roll FragmentEvent UniqueId where
  enters
    | registered _ instanceId (.ok id) => some (instanceId, id)
    | _ => none
  ends
    | removed instanceId _, key => instanceId = key
    | shutDown, _ => True
    | _, _ => False

/-- Why an instance of a query is cancelled, if it is meant. -/
def reasonFor (query instanceId : UniqueId) : FragmentEvent → Option String
  | cancelled instanceId' reason _ => if instanceId' = instanceId then some reason else none
  | queryCancelled query' reason _ => if query' = query then some reason else none
  | shutDown => some "backend shutting down"
  | _ => none

/-- An event after others cancels the instance for a reason, which is registered then. -/
def Strikes (query instanceId : UniqueId) (id : FragmentId) (before : List FragmentEvent)
    (e : FragmentEvent) (reason : String) : Prop :=
  roll.Stands before instanceId id ∧ e.reasonFor query instanceId = some reason

end FragmentEvent

namespace Fragments

open FragmentEvent

def call (f : Fragments) : FragmentCall → Fragments × FragmentEvent
  | .register query instanceId =>
    match f.register query instanceId with
    | .ok (f', id) => (f', .registered query instanceId (.ok id))
    | .error failure => (f, .registered query instanceId (.error failure))
  | .cancel instanceId reason =>
    ((f.cancel instanceId reason).1, .cancelled instanceId reason (f.cancel instanceId reason).2)
  | .cancelQuery query reason =>
    ((f.cancelQuery query reason).1, .queryCancelled query reason (f.cancelQuery query reason).2)
  | .remove instanceId => ((f.remove instanceId).1, .removed instanceId (f.remove instanceId).2)
  | .shutdown => (f.shutdown.1, .shutDown)

/-! ## One call -/

section Call

variable {f f' : Fragments} {q i : UniqueId} {id : FragmentId} {x : Fragment}

theorem register_cases (f : Fragments) (q i : UniqueId) :
    (f.registered.contains i = true ∧ ∃ failure, f.register q i = .error failure)
      ∨ (f.registered.get? i = none ∧ f.register q i
        = .ok (⟨f.all ++ [{ query := q, instanceId := i }], f.registered.put i f.all.length⟩,
          f.all.length)) := by
  unfold register
  split_ifs with h
  · exact .inl ⟨h, _, rfl⟩
  · exact .inr ⟨by simpa [Assoc.contains] using h, rfl⟩

theorem fragment?_mark (f : Fragments) (ids : List FragmentId) (reason : String)
    (h : f.fragment? id = some x) : (f.mark ids reason).fragment? id
      = some (if id ∈ ids then { x with cancelReason := some reason } else x) := by
  unfold fragment? mark at *
  rw [List.getElem?_mapIdx, h, Option.map_some]

theorem length_mark (f : Fragments) (ids : List FragmentId) (reason : String) :
    (f.mark ids reason).all.length = f.all.length := List.length_mapIdx

theorem mark_nil (f : Fragments) (reason : String) : f.mark [] reason = f := by
  have hall : (f.mark [] reason).all = f.all := List.ext_getElem? fun n => by
    simp [mark, List.getElem?_mapIdx]
  exact congrArg (fun all => { f with all }) hall

theorem cancel_eq (f : Fragments) (i : UniqueId) (reason : String) :
    (f.cancel i reason).1 = f.mark (f.registered.get? i).toList reason := by
  unfold cancel
  cases f.registered.get? i with
  | some id => rfl
  | none => exact (f.mark_nil reason).symm

/-- What a call does to the registrations is what its event says. -/
theorem turn_call (f : Fragments) (c : FragmentCall) :
    roll.Turn f.registered f.all.length (f.call c).2 (f.call c).1.registered
      (f.call c).1.all.length := by
  cases c with
  | register q i =>
    rcases f.register_cases q i with ⟨-, failure, hr⟩ | ⟨hfree, hr⟩
    · simp only [call, hr]
      exact .idle rfl fun _ => not_false
    · simp only [call, hr, List.length_append]
      exact .enter i hfree rfl fun _ => not_false
  | cancel i reason =>
    simp only [call, cancel_eq, length_mark]
    exact .idle rfl fun _ => not_false
  | cancelQuery q reason =>
    simp only [call, cancelQuery, length_mark]
    exact .idle rfl fun _ => not_false
  | remove i =>
    refine .leave _ rfl fun k id => ?_
    show (f.registered.erase i).get? k = some id ↔ _ ∧ ¬ i = k
    rw [Assoc.get?_erase]
    split_ifs with hk
    · simp [hk]
    · simp [Ne.symm hk]
  | shutdown =>
    simp only [call, shutdown, length_mark]
    exact .leave _ rfl fun k id => by simp [roll]

/-- Every registered instance has the id that it is registered under. -/
abbrev Rooted (f : Fragments) : Prop := QueryHost.Rooted Fragment.instanceId f.all f.registered

theorem mem_ofQuery_iff (hx : f.fragment? id = some x) :
    id ∈ f.ofQuery q ↔ id ∈ f.registered.values ∧ x.query = q := by
  simp [ofQuery, hx]

/-- The instances that a call marks are those that it means and that are registered. -/
theorem fragment?_mark_of_iff {ids : List FragmentId} {meant : Prop} [Decidable meant]
    (reason : String) (hx : f.fragment? id = some x)
    (hmem : id ∈ ids ↔ meant ∧ f.registered.get? x.instanceId = some id) :
    (f.mark ids reason).fragment? id = some { x with
      cancelReason := if f.registered.get? x.instanceId = some id then
        (if meant then some reason else none).or x.cancelReason else x.cancelReason } := by
  rw [fragment?_mark _ _ _ hx]
  by_cases hmeant : meant <;> by_cases hreg : f.registered.get? x.instanceId = some id <;>
    simp [hmem, hmeant, hreg]

/-- A call cancels an instance exactly if it means it and the instance is registered. -/
theorem fragment?_call (hf : f.Rooted) (c : FragmentCall) (hx : f.fragment? id = some x) :
    (f.call c).1.fragment? id = some { x with
      cancelReason := if f.registered.get? x.instanceId = some id then
        ((f.call c).2.reasonFor x.query x.instanceId).or x.cancelReason else x.cancelReason } := by
  cases c with
  | register q i =>
    rcases f.register_cases q i with ⟨-, failure, hr⟩ | ⟨-, hr⟩
    · simp [call, hr, hx, reasonFor]
    · have hlt : id < f.all.length := (List.getElem?_eq_some_iff.1 hx).1
      have happend : (f.all ++ [{ query := q, instanceId := i }])[id]? = some x :=
        (List.getElem?_append_left hlt).trans hx
      simp [call, hr, reasonFor, fragment?, happend]
  | cancel i reason =>
    simp only [call, cancel_eq]
    refine fragment?_mark_of_iff reason hx ?_
    rw [Option.mem_toList]
    exact hf.get?_iff hx
  | cancelQuery q reason =>
    refine fragment?_mark_of_iff reason hx ?_
    rw [mem_ofQuery_iff hx, hf.mem_values_iff hx, and_comm, eq_comm]
  | remove i => simp [call, remove, reasonFor, fragment?, show f.all[id]? = some x from hx]
  | shutdown =>
    have hmem : id ∈ f.registered.values ↔ True ∧ f.registered.get? x.instanceId = some id := by
      rw [hf.mem_values_iff hx, true_and]
    exact fragment?_mark_of_iff _ hx hmem

end Call

/-! ## What runs keep -/

/-- The number was given out for an instance of the query. -/
theorem entered_iff (events : List FragmentEvent) (i : UniqueId) (id : FragmentId) :
    roll.Entered events i id ↔ ∃ q, .registered q i (.ok id) ∈ events := by
  constructor
  · rintro ⟨e, he, henters⟩
    cases e with
    | registered q i' answer =>
      cases answer with
      | ok id' =>
        obtain ⟨rfl, rfl⟩ := Prod.mk.inj (Option.some.inj henters)
        exact ⟨q, he⟩
      | error failure => cases henters
    | _ => cases henters
  · rintro ⟨q, he⟩
    exact ⟨_, he, rfl⟩

/-- How the instances stand with what has happened. -/
structure Kept (f : Fragments) (events : List FragmentEvent) : Prop where
  tracks : roll.Tracks f.registered f.all.length events
  told : ∀ q i id, .registered q i (.ok id) ∈ events → ∃ x, f.fragment? id = some x
    ∧ x.query = q ∧ x.instanceId = i
    ∧ ∀ reason, x.cancelReason = some reason ↔ HeldLast (Strikes q i id) events reason

section Kept

variable {f : Fragments} {events : List FragmentEvent} {q i : UniqueId} {id : FragmentId}

theorem kept_empty : Kept {} [] where
  tracks := Roll.tracks_empty roll
  told _ _ _ h := nomatch h

theorem Kept.rooted (h : Kept f events) : f.Rooted := by
  intro i id hget
  obtain ⟨q, hmem⟩ := (entered_iff events i id).1 (h.tracks.entered hget)
  obtain ⟨x, hx, -, hi, -⟩ := h.told q i id hmem
  exact ⟨x, hx, hi⟩

/-- The last reason is that of the new event, if it strikes. -/
theorem Kept.struck_snoc (h : Kept f events) (e : FragmentEvent) {reason? : Option String}
    (hold : ∀ reason, reason? = some reason ↔ HeldLast (Strikes q i id) events reason)
    (reason : String) :
    (if f.registered.get? i = some id then (e.reasonFor q i).or reason? else reason?) = some reason
      ↔ HeldLast (Strikes q i id) (events ++ [e]) reason := by
  rw [heldLast_snoc, ← hold]
  unfold Strikes
  rw [← h.tracks.get?_iff]
  split_ifs with hreg
  · cases hreason : e.reasonFor q i <;> simp [hreg]
  · simp [hreg]

theorem call_registered {c : FragmentCall} (hc : (f.call c).2 = .registered q i (.ok id)) :
    id = f.all.length
      ∧ (f.call c).1.fragment? id = some { query := q, instanceId := i } := by
  cases c with
  | register q' i' =>
    rcases f.register_cases q' i' with ⟨-, failure, hr⟩ | ⟨-, hr⟩
    · simp [call, hr] at hc
    · simp only [call, hr, FragmentEvent.registered.injEq, Except.ok.injEq] at hc
      obtain ⟨rfl, rfl, rfl⟩ := hc
      exact ⟨rfl, by simp [call, hr, fragment?]⟩
  | _ => simp [call] at hc

theorem Kept.call (h : Kept f events) (c : FragmentCall) :
    Kept (f.call c).1 (events ++ [(f.call c).2]) := by
  refine ⟨h.tracks.turn (turn_call f c), fun q i id hmem => ?_⟩
  rcases List.mem_append.1 hmem with hmem | hmem
  · obtain ⟨x, hx, rfl, rfl, hreason⟩ := h.told q i id hmem
    exact ⟨_, fragment?_call h.rooted c hx, rfl, rfl, h.struck_snoc _ hreason⟩
  · have hc := (List.mem_singleton.1 hmem).symm
    obtain ⟨hid, hx⟩ := call_registered hc
    refine ⟨_, hx, rfl, rfl, fun reason => ?_⟩
    have hnot : ¬ HeldLast (Strikes q i id) events reason :=
      fun ⟨_, _, _, hsplit, ⟨hstands, _⟩, _⟩ =>
        h.tracks.not_stood (Nat.le_of_eq hid.symm) hsplit hstands
    rw [hc, heldLast_snoc]
    simp [hnot, Strikes, reasonFor]

theorem Kept.run (h : Kept f events) (calls : List FragmentCall) :
    Kept (callAll Fragments.call f calls).1 (events ++ (callAll Fragments.call f calls).2) :=
  callAll_history (R := Kept) (fun _ _ c h => h.call c) calls f events h

/-- An instance that is not registered any more is let alone. -/
theorem Kept.untouched {id : FragmentId} : ∀ (later : List FragmentCall) {f : Fragments}
    {events : List FragmentEvent}, Kept f events → id < f.all.length →
      (∀ k, f.registered.get? k ≠ some id) →
        (callAll Fragments.call f later).1.fragment? id = f.fragment? id
  | [], _, _, _, _, _ => rfl
  | c :: later, f, _, h, hlt, hfree => by
    obtain ⟨hlt', hfree'⟩ := (turn_call f c).free hlt hfree
    refine (Kept.untouched later (h.call c) hlt' hfree').trans ?_
    have hx : f.fragment? id = some f.all[id] := List.getElem?_eq_getElem hlt
    rw [fragment?_call h.rooted c hx, if_neg (hfree _), hx]

/-- To remove an instance ends what can happen to it. -/
theorem Kept.untouched_remove (h : Kept f events) (hmem : .registered q i (.ok id) ∈ events)
    (later : List FragmentCall) :
    (callAll Fragments.call f (.remove i :: later)).1.fragment? id = f.fragment? id := by
  have hentered := (entered_iff events i id).2 ⟨q, hmem⟩
  refine Kept.untouched later (h.call (.remove i)) (h.tracks.lt hentered) fun k hk => ?_
  have hk : (f.registered.erase i).get? k = some id := hk
  rw [Assoc.get?_erase] at hk
  split_ifs at hk with hki
  exact hki (h.tracks.key_eq k i id (h.tracks.entered hk) hentered)

theorem Kept.mem_ofQuery_iff (h : Kept f events) :
    id ∈ f.ofQuery q ↔ ∃ i, .registered q i (.ok id) ∈ events ∧ roll.Stands events i id := by
  constructor
  · intro hid
    obtain ⟨i, hget⟩ := (Assoc.mem_values_iff _ _).1 (List.mem_filter.1 hid).1
    obtain ⟨q', hmem⟩ := (entered_iff events i id).1 (h.tracks.entered hget)
    obtain ⟨x, hx, rfl, -⟩ := h.told q' i id hmem
    obtain ⟨-, rfl⟩ := (Fragments.mem_ofQuery_iff hx).1 hid
    exact ⟨i, hmem, (h.tracks.get?_iff i id).1 hget⟩
  · rintro ⟨i, hmem, hstands⟩
    obtain ⟨x, hx, hq, -⟩ := h.told q i id hmem
    have hget := (h.tracks.get?_iff i id).2 hstands
    exact (Fragments.mem_ofQuery_iff hx).2 ⟨(Assoc.mem_values_iff _ _).2 ⟨i, hget⟩, hq⟩

theorem Kept.register_error_iff (h : Kept f events) (q i : UniqueId) :
    (∃ failure, f.register q i = .error failure) ↔ ∃ id, roll.Stands events i id := by
  rw [← h.tracks.contains_iff]
  rcases f.register_cases q i with ⟨hc, failure, hr⟩ | ⟨hfree, hr⟩
  · simp [hr, hc]
  · simp [hr, Assoc.contains, hfree]

end Kept

/-! ## Every run -/

/-- After every run, each instance that was registered is cancelled exactly if a call has meant it
while it was registered, and for the reason that the last such call gave. Once it is removed, no
call does anything to it. To cancel a query counts its registered instances. To register fails
exactly if an instance is registered under the id, and then nothing changes; else the instance gets
a number that no other has had. -/
theorem cancellations_reach_targets (calls : List FragmentCall) (f : Fragments)
    (events : List FragmentEvent) (hrun : callAll call {} calls = (f, events)) :
    (∀ q i id, .registered q i (.ok id) ∈ events → ∃ x, f.fragment? id = some x
        ∧ x.query = q ∧ x.instanceId = i
        ∧ (x.isCancelled = true ↔ ∃ before e after, events = before ++ e :: after
          ∧ ∃ reason, Strikes q i id before e reason)
        ∧ (∀ reason, x.cancelReason = some reason ↔ HeldLast (Strikes q i id) events reason)
        ∧ ∀ later, (callAll call f (.remove i :: later)).1.fragment? id = some x)
      ∧ (∀ q reason, ∃ ids : List FragmentId, ids.Nodup
        ∧ (f.cancelQuery q reason).2 = ids.length
        ∧ ∀ id, id ∈ ids ↔ ∃ i, .registered q i (.ok id) ∈ events ∧ roll.Stands events i id)
      ∧ ∀ q i, ((∃ failure, f.register q i = .error failure) ↔ ∃ id, roll.Stands events i id)
        ∧ (∀ failure, f.register q i = .error failure → (f.call (.register q i)).1 = f)
        ∧ ∀ f' id, f.register q i = .ok (f', id) →
          ∀ q' i', .registered q' i' (.ok id) ∉ events := by
  have hkept := kept_empty.run calls
  rw [hrun, List.nil_append] at hkept
  refine ⟨fun q i id hmem => ?_, fun q reason => ?_, fun q i => ⟨hkept.register_error_iff q i,
    fun failure hr => by simp [call, hr], fun f' id hr q' i' hmem => ?_⟩⟩
  · obtain ⟨x, hx, hq, hi, hreason⟩ := hkept.told q i id hmem
    refine ⟨x, hx, hq, hi, ?_, hreason, fun later => (hkept.untouched_remove hmem later).trans hx⟩
    rw [Fragment.isCancelled, Option.isSome_iff_exists, ← exists_heldLast]
    exact exists_congr hreason
  · exact ⟨f.ofQuery q, hkept.tracks.nodup_values.filter _, rfl, fun id => hkept.mem_ofQuery_iff⟩
  · rcases f.register_cases q i with ⟨-, failure, hr'⟩ | ⟨-, hr'⟩
    · cases hr.symm.trans hr'
    · obtain ⟨-, rfl⟩ := Prod.mk.inj (Except.ok.inj (hr.symm.trans hr'))
      have hentered := (entered_iff events i' _).2 ⟨q', hmem⟩
      exact absurd (hkept.tracks.lt hentered) (Nat.lt_irrefl _)

/-- Three instances of two queries; one is cancelled by its id and again with its query, is removed,
and its id is registered anew. -/
def reused : List FragmentCall :=
  [.register ⟨1, 0⟩ ⟨1, 1⟩, .register ⟨1, 0⟩ ⟨1, 2⟩, .register ⟨2, 0⟩ ⟨2, 1⟩,
    .cancel ⟨1, 1⟩ "user cancel", .cancelQuery ⟨1, 0⟩ "timeout", .remove ⟨1, 1⟩,
    .register ⟨2, 0⟩ ⟨1, 1⟩, .cancel ⟨1, 1⟩ "too late"]

theorem cancellations_reach_targets_reused :
    let run := callAll call {} reused
    let old : Fragment := ⟨⟨1, 0⟩, ⟨1, 1⟩, some "timeout"⟩
    let new : Fragment := ⟨⟨2, 0⟩, ⟨1, 1⟩, some "too late"⟩
    run.1.fragment? 0 = some old ∧ run.1.fragment? 3 = some new
      ∧ HeldLast (Strikes ⟨1, 0⟩ ⟨1, 1⟩ 0) run.2 "timeout"
      ∧ HeldLast (Strikes ⟨2, 0⟩ ⟨1, 1⟩ 3) run.2 "too late"
      ∧ (∃ ids : List FragmentId, ids.Nodup ∧ (run.1.cancelQuery ⟨2, 0⟩ "timeout").2 = ids.length
        ∧ ∀ id, id ∈ ids ↔
            ∃ i, .registered ⟨2, 0⟩ i (.ok id) ∈ run.2 ∧ roll.Stands run.2 i id) := by
  intro run old new
  obtain ⟨htargets, hcount, -⟩ := cancellations_reach_targets reused run.1 run.2 rfl
  have hold : run.1.fragment? 0 = some old := rfl
  have hnew : run.1.fragment? 3 = some new := rfl
  have hfirst : run.2[0]? = some (.registered ⟨1, 0⟩ ⟨1, 1⟩ (.ok 0)) := rfl
  have hagain : run.2[6]? = some (.registered ⟨2, 0⟩ ⟨1, 1⟩ (.ok 3)) := rfl
  obtain ⟨x, hx, -, -, -, hreason, -⟩ := htargets _ _ _ (List.mem_of_getElem? hfirst)
  obtain ⟨y, hy, -, -, -, hreason', -⟩ := htargets _ _ _ (List.mem_of_getElem? hagain)
  obtain rfl := Option.some.inj (hold.symm.trans hx)
  obtain rfl := Option.some.inj (hnew.symm.trans hy)
  exact ⟨hold, hnew, (hreason _).1 rfl, (hreason' _).1 rfl, hcount _ _⟩

end Fragments

end QueryHost
