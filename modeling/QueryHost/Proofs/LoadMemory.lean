import QueryHost.Load.Channels
import QueryHost.Proofs.GatheringTrackers

/-!
# Memory of load channels

Whoever accounts for the memory of a load does so at its channel or below it. So the tracker of the
channels together counts what all channels count that were ever opened, those that are open no
longer too, and a channel is above a limit exactly if it is above its own, or all of them are above
the share of the process limit (`LoadMemory.channels_add_up`).
-/

namespace QueryHost

/-- The load channels, the trackers, and all channels that were ever opened, each with the limit
that it was opened with. -/
structure LoadMemory where
  channels : LoadChannels
  trackers : Trackers
  issued : List (LoadChannel × Int) := []

inductive LoadMemoryCall where
  | init (processLimit : Int)
  | openChannel (load : UniqueId) (limit : Int)
  | cancel (load : UniqueId)
  | close
  /-- A call at a tracker, by whoever holds one. -/
  | account (c : TrackerCall)
  deriving DecidableEq

namespace LoadMemory

def call (b : LoadMemory) : LoadMemoryCall → LoadMemory
  | .init processLimit =>
    match b.channels.init b.trackers processLimit with
    | .ok (channels, trackers, _) => { b with channels, trackers }
    | .error _ => b
  | .openChannel load limit =>
    match b.channels.openChannel b.trackers load limit with
    | .ok (channels, trackers, channel) =>
      { channels, trackers, issued :=
          if b.channels.opened.contains load then b.issued else b.issued ++ [(channel, limit)] }
    | .error _ => b
  | .cancel load => { b with channels := (b.channels.cancel load).1 }
  | .close => { b with channels := b.channels.close }
  | .account c => { b with trackers := b.trackers.call c }

/-- The channel that is given for a load, or why none is. -/
def answer (b : LoadMemory) (load : UniqueId) (limit : Int) : Except Failure LoadChannel :=
  (b.channels.openChannel b.trackers load limit).map (·.2.2)

/-- All load memory is accounted for through channels: calls name trackers that are there, and none
names the tracker of the channels together. -/
def Allows (b : LoadMemory) : LoadMemoryCall → Prop
  | .account c => c.Names b.trackers ∧ ∀ m ∈ b.channels.tracker, c.site? ≠ some m
  | _ => True

instance (b : LoadMemory) : DecidablePred b.Allows
  | .account _ => inferInstanceAs (Decidable (_ ∧ _))
  | .init _ | .openChannel _ _ | .cancel _ | .close => isTrue trivial

/-- Every call of a run is allowed where it is made. -/
def Through (b : LoadMemory) : List LoadMemoryCall → Prop
  | [] => True
  | c :: calls => b.Allows c ∧ (b.call c).Through calls

instance decidableThrough : (calls : List LoadMemoryCall) → (b : LoadMemory) →
    Decidable (b.Through calls)
  | [], _ => isTrue trivial
  | c :: calls, b =>
    have := decidableThrough calls (b.call c)
    inferInstanceAs (Decidable (_ ∧ _))

/-- A new manager of load channels, after a run of calls. -/
def run (percentage : Nat) (founding : List TrackerCall) (calls : List LoadMemoryCall) :
    LoadMemory :=
  calls.foldl call ⟨.new percentage, .after founding, []⟩

/-- What all channels count that were ever opened. -/
def inUse (b : LoadMemory) : Int :=
  ((b.issued.map (·.1.tracker)).map b.trackers.current).sum

variable {b : LoadMemory} {c : LoadMemoryCall} {calls : List LoadMemoryCall} {m : TrackerId}
  {load : UniqueId} {limit processLimit : Int} {percentage : Nat} {channel : LoadChannel}

/-! ## What a call does -/

theorem init_first (h : b.channels.tracker = none) (hpos : 0 < processLimit) :
    ∃ log root, b.channels.init b.trackers processLimit = .ok
      ({ b.channels with tracker := some (b.trackers.call root).nodes.length },
        (b.trackers.call root).call (.newChild .load "LoadChannelMgr"
          (b.channels.limitOf processLimit) b.trackers.nodes.length), log)
      ∧ root = .newRoot .load "Load" := by
  unfold LoadChannels.init
  rw [if_neg (Int.not_le.2 hpos), h]
  exact ⟨_, _, rfl, rfl⟩

theorem call_init_not_pos (h : processLimit ≤ 0) : b.call (.init processLimit) = b := by
  simp [call, LoadChannels.init, h]

theorem call_init_again (h : b.channels.tracker = some m) : b.call (.init processLimit) = b := by
  simp only [call, LoadChannels.init, h]
  split_ifs <;> rfl

theorem openChannel_early (h : b.channels.tracker = none) (load : UniqueId) (limit : Int) :
    b.channels.openChannel b.trackers load limit = .error .notInitialized := by
  simp [LoadChannels.openChannel, LoadChannels.getTracker, h, bind, Except.bind]

theorem openChannel_again (h : b.channels.tracker = some m)
    (hopen : b.channels.opened.get? load = some channel) (limit : Int) :
    b.channels.openChannel b.trackers load limit = .ok (b.channels, b.trackers, channel) := by
  simp [LoadChannels.openChannel, LoadChannels.getTracker, h, hopen, bind, Except.bind, pure,
    Except.pure]

theorem openChannel_new (h : b.channels.tracker = some m)
    (hopen : b.channels.opened.get? load = none) (limit : Int) :
    b.channels.openChannel b.trackers load limit = .ok
      ({ b.channels with opened := b.channels.opened.put load ⟨load, b.trackers.nodes.length⟩ },
        b.trackers.call (.newChild .load ("LoadChannel#" ++ load.text) limit m),
        ⟨load, b.trackers.nodes.length⟩) := by
  simp only [LoadChannels.openChannel, LoadChannels.getTracker, h, hopen, bind, Except.bind, pure,
    Except.pure]
  rfl

theorem call_open_again (h : b.channels.tracker = some m)
    (hopen : b.channels.opened.get? load = some channel) (limit : Int) :
    b.call (.openChannel load limit) = b := by
  simp [call, openChannel_again h hopen, Assoc.contains, hopen]

theorem call_open_new (h : b.channels.tracker = some m)
    (hopen : b.channels.opened.get? load = none) (limit : Int) :
    b.call (.openChannel load limit) =
      { channels := { b.channels with
          opened := b.channels.opened.put load ⟨load, b.trackers.nodes.length⟩ }
        trackers := b.trackers.call (.newChild .load ("LoadChannel#" ++ load.text) limit m)
        issued := b.issued ++ [(⟨load, b.trackers.nodes.length⟩, limit)] } := by
  simp [call, openChannel_new h hopen, Assoc.contains, hopen]

theorem open_answer (h : b.channels.tracker = some m) (load : UniqueId) (limit : Int) :
    ∃ channel, b.answer load limit = .ok channel
      ∧ (b.call (.openChannel load limit)).channels.opened.get? load = some channel := by
  cases hopen : b.channels.opened.get? load with
  | some channel =>
    rw [call_open_again h hopen, answer, openChannel_again h hopen]
    exact ⟨channel, rfl, hopen⟩
  | none =>
    rw [call_open_new h hopen, answer, openChannel_new h hopen]
    exact ⟨_, rfl, by simp⟩

/-! ## Before the limit is known -/

/-- No channel was opened, and none can be. -/
structure Early (percentage : Nat) (b : LoadMemory) : Prop where
  tracker : b.channels.tracker = none
  percentage : b.channels.percentage = min percentage 100
  opened : b.channels.opened.toList = []
  issued : b.issued = []
  words : b.trackers.Words
  closed : b.trackers.Closed

theorem early_new {founding : List TrackerCall} (h : Trackers.Valid founding) :
    Early percentage (run percentage founding []) :=
  ⟨rfl, rfl, rfl, rfl, Trackers.words_after _, h.closed⟩

theorem Early.call (h : b.Early percentage) (hc : b.Allows c)
    (hinit : ∀ processLimit, c = .init processLimit → processLimit ≤ 0) :
    (b.call c).Early percentage := by
  cases c with
  | init processLimit =>
    rw [call_init_not_pos (hinit _ rfl)]
    exact h
  | openChannel load limit =>
    simp only [LoadMemory.call, openChannel_early h.tracker]
    exact h
  | cancel load =>
    refine ⟨h.tracker, h.percentage, ?_, h.issued, h.words, h.closed⟩
    show b.channels.opened.toList.filter _ = []
    rw [h.opened, List.filter_nil]
  | close => exact ⟨h.tracker, h.percentage, rfl, h.issued, h.words, h.closed⟩
  | account c =>
    exact ⟨h.tracker, h.percentage, h.opened, h.issued, h.words.call c, h.closed.call hc.1⟩

/-! ## From then on -/

/-- The tracker `m` of the channels together has its limit and lies below an unlimited root, and the
channels that were ever opened lie below it, each with its own limit. -/
structure Counted (percentage : Nat) (processLimit : Int) (m root : TrackerId) (b : LoadMemory) :
    Prop where
  tracker : b.channels.tracker = some m
  gathers : b.trackers.Gathers m (b.issued.map (·.1.tracker))
  path : b.trackers.path m = [m, root]
  unlimited : b.trackers.limit? root = some (-1)
  limit : b.trackers.limit? m = some (processLimit * (min percentage 100 : Nat) / 100)
  issued : ∀ e ∈ b.issued, b.trackers.path e.1.tracker = [e.1.tracker, m, root]
    ∧ b.trackers.limit? e.1.tracker = some e.2

variable {root : TrackerId}

/-- From the first limit on, the channels are `Counted`. -/
theorem Early.counted (h : b.Early percentage) (hpos : 0 < processLimit) :
    ∃ m root, (b.call (.init processLimit)).Counted percentage processLimit m root := by
  obtain ⟨log, rootCall, hok, hroot⟩ := init_first h.tracker hpos
  have hnames : rootCall.Names b.trackers := hroot ▸ trivial
  have hnew : rootCall.parentOfNew = some none := hroot ▸ rfl
  have hlength : b.trackers.nodes.length < (b.trackers.call rootCall).nodes.length := by
    rw [Trackers.length_call, hnew]
    exact Nat.lt_succ_self _
  have hunlimited : (b.trackers.call rootCall).limit? b.trackers.nodes.length = some (-1) :=
    hroot ▸ Trackers.limit?_newRoot _ _ _
  have hpath : (b.trackers.call rootCall).path b.trackers.nodes.length
      = [b.trackers.nodes.length] :=
    Trackers.path_call_new hnew
  refine ⟨(b.trackers.call rootCall).nodes.length, b.trackers.nodes.length, ?_⟩
  simp only [LoadMemory.call, hok]
  refine ⟨rfl, ?_, ?_, ?_, ?_, ?_⟩
  · rw [h.issued]
    exact Trackers.gathers_newChild (h.words.call _) (h.closed.call hnames) _ _ _ hlength
  · rw [Trackers.path_newChild, hpath]
  · rw [Trackers.limit?_call hlength, hunlimited]
  · rw [Trackers.limit?_newChild, LoadChannels.limitOf, h.percentage]
  · simp [h.issued]

theorem Counted.root_lt (h : b.Counted percentage processLimit m root) :
    root < b.trackers.nodes.length :=
  h.gathers.closed m h.gathers.m_lt root (by simp [h.path])

theorem Counted.issued_lt (h : b.Counted percentage processLimit m root) {e : LoadChannel × Int}
    (he : e ∈ b.issued) : e.1.tracker < b.trackers.nodes.length :=
  h.gathers.below_lt _ (List.mem_map_of_mem he)

/-- A call at the trackers that leaves the paths and limits of the channels as they are. -/
theorem Counted.call (h : b.Counted percentage processLimit m root) (hc : b.Allows c) :
    (b.call c).Counted percentage processLimit m root := by
  obtain ⟨htracker, hgathers, hpath, hunlimited, hlimit, hissued⟩ := id h
  cases c with
  | init processLimit =>
    rw [call_init_again htracker]
    exact h
  | openChannel load limit =>
    cases hopen : b.channels.opened.get? load with
    | some channel =>
      rw [call_open_again htracker hopen]
      exact h
    | none =>
      rw [call_open_new htracker hopen]
      refine ⟨htracker, ?_, ?_, ?_, ?_, fun e he => ?_⟩
      · rw [List.map_append]
        exact hgathers.child _ _ _
      · rw [Trackers.path_call_of_lt hgathers.m_lt, hpath]
      · rw [Trackers.limit?_call h.root_lt, hunlimited]
      · rw [Trackers.limit?_call hgathers.m_lt, hlimit]
      · rcases List.mem_append.1 he with he | he
        · rw [Trackers.path_call_of_lt (h.issued_lt he), Trackers.limit?_call (h.issued_lt he)]
          exact hissued e he
        · obtain rfl := List.mem_singleton.1 he
          refine ⟨?_, Trackers.limit?_newChild _ _ _ _ _⟩
          rw [Trackers.path_newChild, hpath]
  | cancel load => exact ⟨htracker, hgathers, hpath, hunlimited, hlimit, hissued⟩
  | close => exact ⟨htracker, hgathers, hpath, hunlimited, hlimit, hissued⟩
  | account c =>
    refine ⟨htracker, hgathers.call hc.1 (hc.2 m htracker), ?_, ?_, ?_, fun e he => ?_⟩
    · exact (Trackers.path_call_of_lt hgathers.m_lt c).trans hpath
    · exact (Trackers.limit?_call h.root_lt c).trans hunlimited
    · exact (Trackers.limit?_call hgathers.m_lt c).trans hlimit
    · obtain ⟨hepath, helimit⟩ := hissued e he
      exact ⟨(Trackers.path_call_of_lt (h.issued_lt he) c).trans hepath,
        (Trackers.limit?_call (h.issued_lt he) c).trans helimit⟩

theorem Counted.anyLimitExceeded_iff (h : b.Counted percentage processLimit m root)
    (hpos : 0 < processLimit) {e : LoadChannel × Int} (he : e ∈ b.issued) :
    b.trackers.anyLimitExceeded e.1.tracker = true ↔ 0 ≤ e.2 ∧ e.2 < b.trackers.current e.1.tracker
      ∨ processLimit * (min percentage 100 : Nat) / 100 < b.trackers.current m := by
  obtain ⟨hpath, hlimit⟩ := h.issued e he
  have hshare : 0 ≤ processLimit * (min percentage 100 : Nat) / 100 :=
    Int.ediv_nonneg (Int.mul_nonneg (Int.le_of_lt hpos) (Int.natCast_nonneg _)) (by decide)
  rw [Trackers.anyLimitExceeded, hpath]
  simp only [List.any_cons, List.any_nil, Bool.or_false, Bool.or_eq_true,
    Trackers.isExceeded_iff hlimit, Trackers.isExceeded_iff h.limit,
    Trackers.isExceeded_iff h.unlimited]
  omega

/-! ## Runs -/

theorem early_foldl : ∀ {early : List LoadMemoryCall} {b : LoadMemory}, b.Early percentage →
    b.Through early → (∀ processLimit, .init processLimit ∈ early → processLimit ≤ 0) →
      (early.foldl call b).Early percentage
  | [], _, h, _, _ => h
  | c :: early, b, h, ⟨hc, hthrough⟩, hinit => by
    rw [List.foldl_cons]
    refine early_foldl (h.call hc fun processLimit hi => hinit processLimit ?_) hthrough
      fun processLimit hi => hinit processLimit (List.mem_cons_of_mem c hi)
    exact hi ▸ List.mem_cons_self

theorem counted_foldl : ∀ {later : List LoadMemoryCall} {b : LoadMemory},
    b.Counted percentage processLimit m root → b.Through later →
      (later.foldl call b).Counted percentage processLimit m root
  | [], _, h, _ => h
  | _ :: _, _, h, ⟨hc, hthrough⟩ => by
    rw [List.foldl_cons]
    exact counted_foldl (h.call hc) hthrough

theorem through_append : ∀ (early : List LoadMemoryCall) {later : List LoadMemoryCall}
    {b : LoadMemory},
    b.Through (early ++ later) ↔ b.Through early ∧ (early.foldl call b).Through later
  | [], later, b => by simp [Through]
  | c :: early, later, b => by
    simp only [List.cons_append, Through, through_append early, List.foldl_cons, and_assoc]

/-- A load that is open stays so until it is canceled or all are closed. -/
theorem open_foldl : ∀ {between : List LoadMemoryCall} {b : LoadMemory},
    b.channels.tracker = some m → b.channels.opened.get? load = some channel →
      .cancel load ∉ between → .close ∉ between →
        (between.foldl call b).channels.opened.get? load = some channel
  | [], _, _, h, _, _ => h
  | c :: between, b, htracker, h, hcancel, hclose => by
    simp only [List.mem_cons, not_or] at hcancel hclose
    suffices hcall : (b.call c).channels.tracker = some m
        ∧ (b.call c).channels.opened.get? load = some channel by
      rw [List.foldl_cons]
      exact open_foldl hcall.1 hcall.2 hcancel.2 hclose.2
    cases c with
    | init processLimit =>
      rw [call_init_again htracker]
      exact ⟨htracker, h⟩
    | openChannel load' limit =>
      cases hopen : b.channels.opened.get? load' with
      | some channel' =>
        rw [call_open_again htracker hopen]
        exact ⟨htracker, h⟩
      | none =>
        have hne : load ≠ load' := by
          rintro rfl
          exact nomatch h.symm.trans hopen
        rw [call_open_new htracker hopen]
        exact ⟨htracker, by simp [hne, h]⟩
    | cancel load' =>
      have hne : load ≠ load' := fun heq => hcancel.1 (heq ▸ rfl)
      exact ⟨htracker, by simp [LoadMemory.call, LoadChannels.cancel, hne, h]⟩
    | close => exact absurd rfl hclose.1
    | account c => exact ⟨htracker, h⟩

/-- Before the first limit nothing is opened. After it, the tracker of the channels together counts
what all channels count that were ever opened, as a signed word, and a channel is above a limit
exactly if it is above its own or that sum is above the share of the process limit. A load that is
open keeps its channel, and opening it changes nothing. -/
theorem channels_add_up {founding : List TrackerCall} (hvalid : Trackers.Valid founding)
    (hpos : 0 < processLimit) {early later : List LoadMemoryCall}
    (hearly : ∀ limit, .init limit ∈ early → limit ≤ 0)
    (hthrough : (run percentage founding []).Through (early ++ .init processLimit :: later))
    {before after : LoadMemory} (hbefore : before = run percentage founding early)
    (hafter : after = run percentage founding (early ++ .init processLimit :: later)) :
    before.issued = [] ∧ before.channels.size = 0
      ∧ (∀ load limit, before.answer load limit = .error .notInitialized
        ∧ before.call (.openChannel load limit) = before)
      ∧ (∃ m, after.channels.tracker = some m
        ∧ after.trackers.current m = wrapInt64 after.inUse
        ∧ (int64Min ≤ after.inUse → after.inUse ≤ int64Max →
          after.trackers.current m = after.inUse))
      ∧ (∀ channel limit, (channel, limit) ∈ after.issued →
        (after.trackers.anyLimitExceeded channel.tracker = true ↔
          0 ≤ limit ∧ limit < after.trackers.current channel.tracker
            ∨ processLimit * (min percentage 100 : Nat) / 100 < wrapInt64 after.inUse))
      ∧ ∀ first load limit between, later = first ++ .openChannel load limit :: between →
        .cancel load ∉ between → .close ∉ between → ∃ channel,
          (run percentage founding (early ++ .init processLimit :: first)).answer load limit
            = .ok channel
          ∧ ∀ limit', after.answer load limit' = .ok channel
            ∧ after.call (.openChannel load limit') = after := by
  obtain ⟨hthroughEarly, -, hthroughLater⟩ := (through_append _).1 hthrough
  have hfirst := early_foldl (early_new hvalid) hthroughEarly hearly
  obtain ⟨m, root, hstart⟩ := hfirst.counted hpos
  have hrun : ∀ calls, run percentage founding (early ++ .init processLimit :: calls)
      = calls.foldl call (before.call (.init processLimit)) := by
    intro calls
    rw [run, List.foldl_append, List.foldl_cons, hbefore]
    rfl
  have hstart : (before.call (.init processLimit)).Counted percentage processLimit m root :=
    hbefore ▸ hstart
  have hthroughLater : (before.call (.init processLimit)).Through later := hbefore ▸ hthroughLater
  have hfirst : before.Early percentage := hbefore ▸ hfirst
  rw [hrun] at hafter
  have hlater : after.Counted percentage processLimit m root :=
    hafter ▸ counted_foldl hstart hthroughLater
  have hsum : after.trackers.current m = wrapInt64 after.inUse := hlater.gathers.current_eq
  refine ⟨hfirst.issued, by simp [LoadChannels.size, Assoc.size, hfirst.opened], ?_,
    ⟨m, hlater.tracker, hsum, fun hlow hhigh => ?_⟩, fun channel limit he => ?_, ?_⟩
  · intro load limit
    rw [answer, call, openChannel_early hfirst.tracker]
    exact ⟨rfl, rfl⟩
  · rw [hsum, wrapInt64_eq_self hlow hhigh]
  · rw [← hsum]
    exact hlater.anyLimitExceeded_iff hpos he
  · rintro first load limit between rfl hcancel hclose
    rw [List.foldl_append, List.foldl_cons] at hafter
    have hopening := counted_foldl hstart ((through_append _).1 hthroughLater).1
    rw [hrun]
    generalize first.foldl call (before.call (.init processLimit)) = opening at *
    obtain ⟨channel, hanswer, hopened⟩ := open_answer hopening.tracker load limit
    have hopen : after.channels.opened.get? load = some channel :=
      hafter ▸ open_foldl (hopening.call (c := .openChannel load limit) trivial).tracker hopened
        hcancel hclose
    refine ⟨channel, hanswer, fun limit' => ⟨?_, call_open_again hlater.tracker hopen limit'⟩⟩
    rw [answer, openChannel_again hlater.tracker hopen]
    rfl

/-- A load fills its channel and is canceled, and its id is opened again: the two channels are above
the share of the limit together, and the old one also above its own limit. -/
def refilledEarly : List LoadMemoryCall := [.openChannel ⟨1, 1⟩ 100, .init (-5)]

def refilledLater : List LoadMemoryCall :=
  [.openChannel ⟨1, 1⟩ 100, .account (.consume 3 300), .cancel ⟨1, 1⟩, .openChannel ⟨1, 1⟩ (-1),
    .account (.consume 4 250), .account (.release 3 40), .openChannel ⟨1, 1⟩ 7]

def refilled : LoadMemory :=
  run 50 [.newRoot .global "process"] (refilledEarly ++ .init 1000 :: refilledLater)

theorem channels_add_up_refilled : Trackers.Valid [.newRoot .global "process"]
    ∧ (run 50 [.newRoot .global "process"] []).Through
      (refilledEarly ++ .init 1000 :: refilledLater)
    ∧ (run 50 [.newRoot .global "process"] refilledEarly).issued = []
    ∧ refilled.issued.map (·.1.tracker) = [3, 4] ∧ refilled.inUse = 510
    ∧ (∃ m, refilled.channels.tracker = some m ∧ refilled.trackers.current m = 510)
    ∧ refilled.trackers.anyLimitExceeded 4 = true
    ∧ ∃ channel, refilled.answer ⟨1, 1⟩ 12 = .ok channel
      ∧ refilled.call (.openChannel ⟨1, 1⟩ 12) = refilled := by
  have hvalid : Trackers.Valid [.newRoot .global "process"] :=
    Trackers.Valid.nil.snoc (c := .newRoot .global "process") (by decide)
  have hearly : ∀ limit, LoadMemoryCall.init limit ∈ refilledEarly → limit ≤ 0 := by
    intro limit h
    simp only [refilledEarly, List.mem_cons, reduceCtorEq, LoadMemoryCall.init.injEq,
      List.not_mem_nil, or_false, false_or] at h
    omega
  have hthrough : (run 50 [.newRoot .global "process"] []).Through
      (refilledEarly ++ .init 1000 :: refilledLater) := by decide
  have hinUse : refilled.inUse = 510 := by decide
  obtain ⟨hnone, -, -, ⟨m, hm, -, hsum⟩, hexceeded, hreopened⟩ := channels_add_up hvalid
    (by decide : (0 : Int) < 1000) hearly hthrough rfl (rfl : refilled = _)
  obtain ⟨channel, -, hagain⟩ := hreopened (refilledLater.take 3) ⟨1, 1⟩ (-1)
    [.account (.consume 4 250), .account (.release 3 40), .openChannel ⟨1, 1⟩ 7] rfl
    (by decide) (by decide)
  refine ⟨hvalid, hthrough, hnone, by decide, hinUse, ⟨m, hm, ?_⟩, ?_, channel, hagain 12⟩
  · rw [hsum (by rw [hinUse]; decide) (by rw [hinUse]; decide), hinUse]
  · refine (hexceeded ⟨⟨1, 1⟩, 4⟩ (-1) (by decide)).2 (.inr ?_)
    rw [hinUse]
    decide

end LoadMemory

end QueryHost
