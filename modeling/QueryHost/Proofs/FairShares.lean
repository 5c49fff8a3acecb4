import Mathlib.Algebra.Order.BigOperators.Group.List
import Mathlib.Algebra.Ring.Nat
import QueryHost.Proofs.Calls
import QueryHost.Proofs.ListParts
import QueryHost.Query.ThreadShares

/-!
# Fair shares

A pool is live from its registration until it is unregistered or its last handle is dropped. To
register and to unregister fixes the shares anew: all live pools then have the same one. To drop a
pool changes nobody's share. So at all times the live pools have one and the same share, and
together they have no more threads than there are, or one each (`ThreadShares.shares_are_fair`).
-/

namespace QueryHost

inductive ShareCall where
  | register
  | unregister (id : SharePoolId)
  /-- The last handle on a pool is dropped. -/
  | drop (id : SharePoolId)
  | count
  deriving DecidableEq, Repr

inductive ShareEvent where
  | registered (id : SharePoolId)
  | unregistered (id : SharePoolId)
  | dropped (id : SharePoolId)
  | counted (n : Nat)
  deriving DecidableEq, Repr

namespace ShareEvent

/-- Whether the shares are fixed anew. -/
def Shares : ShareEvent → Prop
  | registered _ | unregistered _ => True
  | dropped _ | counted _ => False

/-- What an event leaves of the live pools. -/
def leaves (ids : List SharePoolId) : ShareEvent → List SharePoolId
  | registered id => ids ++ [id]
  | unregistered id | dropped id => ids.filter (· != id)
  | counted _ => ids

/-- The pools that are registered and have not been unregistered or dropped since. -/
def live (events : List ShareEvent) : List SharePoolId := events.foldl leaves []

/-- When the shares were fixed last, so many pools were live. -/
def SharedAmong (events : List ShareEvent) (m : Nat) : Prop :=
  HeldLast (fun before e m => e.Shares ∧ (live (before ++ [e])).length = m) events m

variable {events : List ShareEvent} {e : ShareEvent} {m : Nat}

theorem live_snoc (events : List ShareEvent) (e : ShareEvent) :
    live (events ++ [e]) = e.leaves (live events) := by
  simp [live]

theorem sharedAmong_snoc (he : e.Shares) :
    SharedAmong (events ++ [e]) m ↔ (live (events ++ [e])).length = m := by
  simp [SharedAmong, heldLast_snoc, he]

theorem sharedAmong_snoc_of_not (he : ¬ e.Shares) :
    SharedAmong (events ++ [e]) m ↔ SharedAmong events m := by
  simp [SharedAmong, heldLast_snoc, he]

end ShareEvent

namespace ThreadShares

open ShareEvent

def call (t : ThreadShares) : ShareCall → ThreadShares × ShareEvent
  | .register => (t.register.1, .registered t.register.2)
  | .unregister id => (t.unregister id, .unregistered id)
  | .drop id => (t.dropPool id, .dropped id)
  | .count => (t.prune, .counted t.count)

/-! ## Pools in use and their shares -/

section Model

variable (t : ThreadShares) (id : SharePoolId)

theorem quota_prune : t.prune.quota id = t.quota id := rfl

theorem isInUse_dropPool (id' : SharePoolId) :
    (t.dropPool id).isInUse id' = (t.isInUse id' && id' != id) := by
  unfold isInUse dropPool
  by_cases h : id' = id
  · subst h
    rw [List.getElem?_modify_eq]
    cases t.all[id']? <;> simp
  · rw [List.getElem?_modify_ne _ _ (Ne.symm h)]
    simp [h]

theorem quota_dropPool (id' : SharePoolId) : (t.dropPool id).quota id' = t.quota id' := by
  unfold quota dropPool
  by_cases h : id' = id
  · subst h
    rw [List.getElem?_modify_eq]
    cases t.all[id']? <;> rfl
  · rw [List.getElem?_modify_ne _ _ (Ne.symm h)]

theorem lt_of_isInUse {id : SharePoolId} (h : t.isInUse id = true) : id < t.all.length := by
  by_contra hlt
  rw [isInUse, List.getElem?_eq_none (Nat.le_of_not_lt hlt)] at h
  cases h

theorem systemQuota_share : t.share.systemQuota = t.systemQuota := by
  unfold share
  simp only
  split <;> rfl

theorem registered_share : t.share.registered = t.prune.registered := by
  unfold share
  simp only
  split <;> rfl

/-- `share` gives every registered pool the same quota, and leaves the others theirs. -/
theorem getElem?_share : t.share.all[id]? = t.all[id]?.map fun p =>
    if id ∈ t.prune.registered then
      { p with quota := max (t.systemQuota / t.prune.registered.length) 1 }
    else p := by
  unfold share
  simp only
  by_cases hempty : t.prune.registered.isEmpty = true
  · have hnone : id ∉ t.prune.registered := by
      rw [List.isEmpty_iff.1 hempty]
      exact List.not_mem_nil
    rw [if_pos hempty]
    simp only [if_neg hnone, Option.map_id']
    rfl
  · rw [if_neg hempty]
    exact List.getElem?_mapIdx

theorem length_share : t.share.all.length = t.all.length := by
  unfold share
  simp only
  split_ifs
  · rfl
  · exact List.length_mapIdx

theorem isInUse_share : t.share.isInUse id = t.isInUse id := by
  unfold isInUse
  rw [getElem?_share]
  cases t.all[id]? with
  | none => rfl
  | some p => simp only [Option.map_some, Option.any_some]; split_ifs <;> rfl

theorem quota_share {id : SharePoolId} (h : id ∈ t.prune.registered) :
    t.share.quota id = max 1 (t.systemQuota / t.prune.registered.length) := by
  have hlt := t.lt_of_isInUse (List.mem_filter.1 h).2
  unfold quota
  rw [getElem?_share, List.getElem?_eq_getElem hlt, Option.map_some, if_pos h, max_comm]

theorem prune_share : t.share.prune.registered = t.prune.registered := by
  show t.share.registered.filter t.share.isInUse = _
  rw [registered_share, funext t.isInUse_share]
  exact List.filter_eq_self.2 fun id h => (List.mem_filter.1 h).2

end Model

/-! ## Every run -/

/-- How the pools stand with what has happened. -/
structure Kept (quota : Nat) (t : ThreadShares) (events : List ShareEvent) : Prop where
  systemQuota_eq : t.systemQuota = max quota 1
  registered_lt : ∀ id ∈ t.registered, id < t.all.length
  live_eq : t.prune.registered = live events
  quota_eq : ∀ m, SharedAmong events m → ∀ id ∈ live events,
    t.quota id = max 1 (max quota 1 / m)
  live_le : ∀ m, SharedAmong events m → (live events).length ≤ m
  shared : live events ≠ [] → ∃ m, SharedAmong events m

section Kept

variable {quota : Nat} {t : ThreadShares} {events : List ShareEvent} {e : ShareEvent}

theorem kept_new (quota : Nat) : Kept quota (new quota) [] where
  systemQuota_eq := rfl
  registered_lt _ h := nomatch h
  live_eq := rfl
  quota_eq _ _ _ h := nomatch h
  live_le _ _ := Nat.zero_le _
  shared h := absurd rfl h

/-- The shares are fixed anew among those who are live now. -/
theorem kept_share (hquota : t.systemQuota = max quota 1) (hlt : ∀ id ∈ t.registered,
    id < t.all.length) (hlive : t.prune.registered = live (events ++ [e])) (he : e.Shares) :
    Kept quota t.share (events ++ [e]) where
  systemQuota_eq := (systemQuota_share t).trans hquota
  registered_lt id h := by
    rw [registered_share] at h
    rw [length_share]
    exact hlt id (List.mem_of_mem_filter h)
  live_eq := (prune_share t).trans hlive
  quota_eq m hm id h := by
    rw [sharedAmong_snoc he] at hm
    rw [← hlive] at h hm
    rw [quota_share t h, hquota, hm]
  live_le m hm := ((sharedAmong_snoc he).1 hm).le
  shared _ := ⟨_, (sharedAmong_snoc he).2 rfl⟩

theorem Kept.register (h : Kept quota t events) :
    Kept quota t.register.1 (events ++ [.registered t.register.2]) := by
  refine kept_share h.systemQuota_eq (fun id hid => ?_) ?_ trivial
  · rw [List.length_append, List.length_singleton]
    rcases List.mem_append.1 hid with hid | hid
    · exact Nat.lt_succ_of_lt (h.registered_lt id hid)
    · exact List.mem_singleton.1 hid ▸ Nat.lt_succ_self _
  · let t' : ThreadShares :=
      { t with all := t.all ++ [{}], registered := t.registered ++ [t.all.length] }
    have hold : ∀ id ∈ t.registered, t'.isInUse id = t.isInUse id := fun id hid => by
      unfold isInUse
      rw [List.getElem?_append_left (h.registered_lt id hid)]
    have hnew : t'.isInUse t.all.length = true := by simp [isInUse, t']
    rw [live_snoc, ShareEvent.leaves, ← h.live_eq]
    show (t.registered ++ [t.all.length]).filter t'.isInUse
      = t.registered.filter t.isInUse ++ [t.all.length]
    rw [List.filter_append, List.filter_congr hold, List.filter_singleton, hnew]
    rfl

theorem Kept.unregister (h : Kept quota t events) (id : SharePoolId) :
    Kept quota (t.unregister id) (events ++ [.unregistered id]) := by
  refine kept_share h.systemQuota_eq
    (fun id' hid => h.registered_lt id' (List.mem_of_mem_filter hid)) ?_ trivial
  rw [live_snoc, ShareEvent.leaves, ← h.live_eq]
  show ((t.registered.filter (· != id)).filter t.isInUse) = (t.registered.filter t.isInUse).filter _
  rw [List.filter_comm]

/-- No share is fixed, and the live pools are among those that were live. -/
theorem Kept.of_not_shares (h : Kept quota t events) {t' : ThreadShares} (he : ¬ e.Shares)
    (hquota : t'.systemQuota = t.systemQuota) (hshares : ∀ id, t'.quota id = t.quota id)
    (hlt : ∀ id ∈ t'.registered, id < t'.all.length)
    (hlive : t'.prune.registered = live (events ++ [e]))
    (hsub : (live (events ++ [e])).Sublist (live events)) : Kept quota t' (events ++ [e]) where
  systemQuota_eq := hquota.trans h.systemQuota_eq
  registered_lt := hlt
  live_eq := hlive
  quota_eq m hm id hid :=
    (hshares id).trans (h.quota_eq m ((sharedAmong_snoc_of_not he).1 hm) id (hsub.subset hid))
  live_le m hm := hsub.length_le.trans (h.live_le m ((sharedAmong_snoc_of_not he).1 hm))
  shared hne := by
    obtain ⟨m, hm⟩ := h.shared fun hnil => hne (List.sublist_nil.1 (hnil ▸ hsub))
    exact ⟨m, (sharedAmong_snoc_of_not he).2 hm⟩

theorem Kept.drop (h : Kept quota t events) (id : SharePoolId) :
    Kept quota (t.dropPool id) (events ++ [.dropped id]) := by
  have hleaves : live (events ++ [.dropped id]) = (live events).filter (· != id) := live_snoc _ _
  refine h.of_not_shares not_false rfl (quota_dropPool t id) (fun id' hid => ?_) ?_ ?_
  · show id' < (t.all.modify id _).length
    rw [List.length_modify]
    exact h.registered_lt id' hid
  · rw [hleaves, ← h.live_eq]
    show t.registered.filter (t.dropPool id).isInUse = (t.registered.filter t.isInUse).filter _
    rw [List.filter_filter]
    exact List.filter_congr fun id' _ => by rw [isInUse_dropPool, Bool.and_comm]
  · rw [hleaves]
    exact List.filter_sublist

theorem Kept.count (h : Kept quota t events) :
    Kept quota t.prune (events ++ [.counted t.count]) := by
  have hleaves : live (events ++ [.counted t.count]) = live events := live_snoc _ _
  refine h.of_not_shares not_false rfl (quota_prune t)
    (fun id hid => h.registered_lt id (List.mem_of_mem_filter hid)) ?_ ?_
  · rw [hleaves, ← h.live_eq]
    exact List.filter_eq_self.2 fun id hid => (List.mem_filter.1 hid).2
  · rw [hleaves]

theorem Kept.call (h : Kept quota t events) (c : ShareCall) :
    Kept quota (t.call c).1 (events ++ [(t.call c).2]) := by
  cases c with
  | register => exact h.register
  | unregister id => exact h.unregister id
  | drop id => exact h.drop id
  | count => exact h.count

/-- So many equal shares are not too much, as long as they are not more than the shares that were
fixed. -/
theorem mul_share_le {n m S : Nat} (hn : n ≤ m) : n * max 1 (S / m) ≤ max S n := by
  rcases le_total (S / m) 1 with h | h
  · rw [max_eq_left h, Nat.mul_one]
    exact le_max_right S n
  · rw [max_eq_right h]
    calc n * (S / m) ≤ m * (S / m) := Nat.mul_le_mul_right _ hn
      _ ≤ S := Nat.mul_div_le S m
      _ ≤ max S n := le_max_left S n

theorem Kept.sum_quota_le (h : Kept quota t events) :
    ((live events).map t.quota).sum ≤ max (max quota 1) (live events).length := by
  by_cases hne : live events = []
  · simp [hne]
  · obtain ⟨m, hm⟩ := h.shared hne
    have hsum : ((live events).map t.quota).sum
        = (live events).length * max 1 (max quota 1 / m) := by
      rw [List.map_congr_left (h.quota_eq m hm), List.map_const', List.sum_replicate_nat]
    exact hsum ▸ mul_share_le (h.live_le m hm)

end Kept

/-- After every run, all live pools have the same share: that of one among the pools that were live
when the shares were fixed last, and at least one thread. So together they have no more than the
threads of the system, or one each. They are also those that are counted. -/
theorem shares_are_fair (quota : Nat) (calls : List ShareCall) (t : ThreadShares)
    (events : List ShareEvent) (hrun : callAll call (new quota) calls = (t, events)) :
    (∀ m, SharedAmong events m → ∀ id ∈ live events, t.quota id = max 1 (max quota 1 / m))
      ∧ (live events ≠ [] → ∃ m, SharedAmong events m)
      ∧ ((live events).map t.quota).sum ≤ max (max quota 1) (live events).length
      ∧ t.count = (live events).length := by
  have hkept : Kept quota (callAll call (new quota) calls).1 (callAll call (new quota) calls).2 :=
    callAll_history (R := Kept quota) (fun _ _ c h => h.call c) calls _ [] (kept_new quota)
  rw [hrun] at hkept
  exact ⟨hkept.quota_eq, hkept.shared, hkept.sum_quota_le, congrArg List.length hkept.live_eq⟩

/-- Of three pools that share eight threads, one is dropped without a word: the other two keep the
shares that they had beside it. -/
theorem shares_are_fair_dropped :
    let run := callAll call (new 8) [.register, .register, .register, .drop 1, .count]
    run.2 = [.registered 0, .registered 1, .registered 2] ++ [.dropped 1, .counted 2]
      ∧ SharedAmong run.2 3 ∧ live run.2 = [0, 2]
      ∧ (∀ id ∈ [0, 2], run.1.quota id = max 1 (max 8 1 / 3))
      ∧ ([0, 2].map run.1.quota).sum ≤ max (max 8 1) 2 ∧ run.1.count = 2 := by
  intro run
  have hthree : SharedAmong ([.registered 0, .registered 1] ++ [.registered 2]) 3 :=
    (sharedAmong_snoc (e := .registered 2) trivial).2 rfl
  have hshared : SharedAmong run.2 3 :=
    (sharedAmong_snoc_of_not (e := .counted 2) not_false).2
      ((sharedAmong_snoc_of_not (e := .dropped 1) not_false).2 hthree)
  obtain ⟨hquota, -, hsum, hcount⟩ := shares_are_fair 8 _ run.1 run.2 rfl
  exact ⟨rfl, hshared, rfl, hquota 3 hshared, hsum, hcount⟩

end ThreadShares

end QueryHost
