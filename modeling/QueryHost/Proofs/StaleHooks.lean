import QueryHost.Proofs.HookTurns
import QueryHost.Proofs.ListParts
import QueryHost.Proofs.TrackerUsers

/-!
# Hooks that were uninstalled

A hook that was uninstalled charges nothing by itself, and what other hooks charge goes elsewhere.
But it can still be asked to sync, and then it charges its tracker with what the counters have moved
by since it last read them, whoever counts with them by now. So the count of its tracker stays
exactly if at each such sync the counters read what they read then (`tracker_stays_iff`).
-/

namespace QueryHost

namespace Trackers

variable {ts : Trackers} {c : TrackerCall} {t u : TrackerId}

theorem inflow_of_isAt (h : c.IsAt u) (ts : Trackers) (t : TrackerId) :
    ts.inflow c t = if t ∈ ts.path u then c.net else 0 := by
  cases c <;> simp only [TrackerCall.IsAt] at h
  · subst h
    simp only [inflow, TrackerCall.consumes, TrackerCall.releases, share, TrackerCall.net,
      Int.sub_zero]
  · subst h
    simp only [inflow, TrackerCall.consumes, TrackerCall.releases, share, TrackerCall.net,
      Int.zero_sub]
    split_ifs <;> rfl

/-- Where not as many bytes come in as there are words, the count stays only if none do. -/
theorem current_call_eq_iff (hwords : ts.Words) (ht : t < ts.nodes.length)
    (low : -int64Max ≤ ts.inflow c t) (high : ts.inflow c t ≤ int64Max) :
    (ts.call c).current t = ts.current t ↔ ts.inflow c t = 0 := by
  constructor
  · intro hcur
    have hmod := current_call_modEq ts c t ht
    rw [hcur] at hmod
    obtain ⟨k, hk⟩ := hmod.dvd
    simp only [word64Count, int64Max] at hk low high
    omega
  · intro hin
    rcases current_call_of_lt ts c t ht with ⟨hcur, -⟩ | hcur
    · exact hcur
    · rw [hcur, hin, Int.add_zero, hwords t]

end Trackers

namespace HookRun

/-- Hooks change no path, and each count stays a word. -/
structure Tracked (ts : Trackers) (r : HookRun) : Prop where
  shape : r.accounts.trackers.shape = ts.shape
  words : r.accounts.trackers.Words

section Charges

variable {ts : Trackers} {r r' : HookRun} {c : HookCall} {id j : HookId} {hook : AllocationHook}
  {t : TrackerId}

theorem Tracked.charge (h : Tracked ts r) (hook : AllocationHook) :
    (r.accounts.trackers.call (r.hooks.charge hook)).shape = ts.shape
      ∧ (r.accounts.trackers.call (r.hooks.charge hook)).Words := by
  refine ⟨?_, h.words.call _⟩
  have hnew : (r.hooks.charge hook).parentOfNew = none := by
    unfold AllocationHooks.charge
    split_ifs <;> rfl
  rw [Trackers.shape_call, hnew, h.shape]
  exact List.append_nil _

theorem Tracked.turn (h : Tracked ts r) (ht : r.Turn c r') : Tracked ts r' := by
  cases ht with
  | idle => exact h
  | allocated n hc => exact ⟨h.shape, h.words⟩
  | freed n hc => exact ⟨h.shape, h.words⟩
  | installed c t hc => exact ⟨h.shape, h.words⟩
  | @synced id hook | @ended id hook => exact ⟨(h.charge hook).1, (h.charge hook).2⟩

theorem Tracked.inflow_charge (h : Tracked ts r) (hook : AllocationHook) (t : TrackerId) :
    r.accounts.trackers.inflow (r.hooks.charge hook) t
      = if t ∈ ts.path hook.tracker then (r.hooks.charge hook).net else 0 := by
  rw [Trackers.inflow_of_isAt (r.hooks.isAt_charge hook), Trackers.path_eq_shape, h.shape,
    Trackers.path_eq_shape]

theorem Tracked.lt (h : Tracked ts r) (ht : t < ts.nodes.length) :
    t < r.accounts.trackers.nodes.length := by
  rwa [← Trackers.length_shape, h.shape, Trackers.length_shape]

/-- A charge elsewhere leaves the count of a tracker. -/
theorem Tracked.current_charge (h : Tracked ts r) (ht : t < ts.nodes.length)
    (hpath : t ∉ ts.path hook.tracker) :
    (r.accounts.trackers.call (r.hooks.charge hook)).current t
      = r.accounts.trackers.current t := by
  have hin := h.inflow_charge hook t
  rw [if_neg hpath] at hin
  exact (Trackers.current_call_eq_iff h.words (h.lt ht) (hin ▸ by decide)
    (hin ▸ by decide)).2 hin

/-- A charge at a tracker or below it changes its count, unless the counters read what they read at
the last sync. -/
theorem Tracked.current_charge_iff (h : Tracked ts r) (ht : t < ts.nodes.length)
    (hpath : t ∈ ts.path hook.tracker) (low : -int64Max ≤ r.hooks.net - hook.synced)
    (high : r.hooks.net - hook.synced ≤ int64Max) :
    (r.accounts.trackers.call (r.hooks.charge hook)).current t = r.accounts.trackers.current t
      ↔ r.hooks.net = hook.synced := by
  have hin := h.inflow_charge hook t
  rw [if_pos hpath, AllocationHooks.net_charge low high] at hin
  rw [Trackers.current_call_eq_iff h.words (h.lt ht) (hin ▸ low) (hin ▸ high), hin]
  exact Int.sub_eq_zero

/-- A call other than a sync of it leaves a hook that is not active as it is, and no charge is its
own. -/
theorem Turn.elsewhere (ht : r.Turn c r') (hid : r.hooks.hooks[id]? = some hook)
    (hi : hook.active = false) (hc : c ≠ .sync id) :
    r'.hooks.hooks[id]? = some hook
      ∧ (r'.accounts.trackers = r.accounts.trackers
        ∨ ∃ j other, j ≠ id ∧ r.hooks.hooks[j]? = some other
          ∧ r'.accounts.trackers = r.accounts.trackers.call (r.hooks.charge other)) := by
  cases ht with
  | idle => exact ⟨hid, .inl rfl⟩
  | allocated n hcount => exact ⟨hid, .inl rfl⟩
  | freed n hcount => exact ⟨hid, .inl rfl⟩
  | installed cap t hcount =>
    exact ⟨(List.getElem?_append_left (List.getElem?_eq_some_iff.1 hid).1).trans hid, .inl rfl⟩
  | @synced j other hj =>
    have hne : j ≠ id := fun h => hc (h ▸ rfl)
    exact ⟨(List.getElem?_modify_ne _ _ hne).trans hid, .inr ⟨j, other, hne, hj, rfl⟩⟩
  | @ended j other hj ha =>
    have hne : j ≠ id := by
      rintro rfl
      obtain rfl := Option.some.inj (hj.symm.trans hid)
      exact Bool.false_ne_true (hi.symm.trans ha)
    exact ⟨(List.getElem?_modify_ne _ _ hne).trans hid, .inr ⟨j, other, hne, hj, rfl⟩⟩

/-- A sync of a hook that is not active, while the counters read what it has synced, leaves it. -/
theorem synced_hook_eq (hid : r.hooks.hooks[id]? = some hook) (hnet : r.hooks.net = hook.synced) :
    (r.synced id hook).hooks.hooks[id]? = some hook := by
  simp only [synced, List.getElem?_modify, hid, hnet, if_true, Option.map_eq_map, Option.map_some]

/-- A call leaves the count of the tracker of a hook that is not active, and the hook, unless the
hook is synced while the counters read something else than it has synced. -/
theorem Tracked.call_iff (h : Tracked ts r) (hid : r.hooks.hooks[id]? = some hook)
    (hi : hook.active = false) (ht : hook.tracker < ts.nodes.length)
    (hself : hook.tracker ∈ ts.path hook.tracker)
    (low : -int64Max ≤ r.hooks.net - hook.synced) (high : r.hooks.net - hook.synced ≤ int64Max)
    (hown : ∀ j u, r.hooks.owners[j]? = some u → j ≠ id → hook.tracker ∉ ts.path u)
    (c : HookCall) :
    ((r.call c).accounts.trackers.current hook.tracker
        = r.accounts.trackers.current hook.tracker
      ↔ (c = .sync id → r.hooks.net = hook.synced))
      ∧ ((c = .sync id → r.hooks.net = hook.synced) →
        (r.call c).hooks.hooks[id]? = some hook) := by
  by_cases hc : c = .sync id
  · subst hc
    rw [call_sync_of_some hid, forall_prop_of_true rfl]
    exact ⟨h.current_charge_iff ht hself low high, synced_hook_eq hid⟩
  · obtain ⟨hkept, htrackers⟩ := (turn_call r c).elsewhere hid hi hc
    refine ⟨iff_of_true ?_ fun hsync => absurd hsync hc, fun _ => hkept⟩
    rcases htrackers with heq | ⟨j, other, hne, hj, heq⟩
    · rw [heq]
    · have howner : r.hooks.owners[j]? = some other.tracker := by
        rw [AllocationHooks.owners, List.getElem?_map, hj]
        rfl
      rw [heq, h.current_charge ht (hown j _ howner hne)]

/-- What a hook has synced is what the counters read once, or nothing. -/
theorem synced_mem_turn {low high : Int} (ht : r.Turn c r') (hzero : low ≤ 0 ∧ 0 ≤ high)
    (hnet : low ≤ r.hooks.net ∧ r.hooks.net ≤ high)
    (hold : ∀ hook ∈ r.hooks.hooks, low ≤ hook.synced ∧ hook.synced ≤ high) :
    ∀ hook ∈ r'.hooks.hooks, low ≤ hook.synced ∧ hook.synced ≤ high := by
  intro x hx
  cases ht with
  | idle => exact hold x hx
  | allocated n hcount => exact hold x hx
  | freed n hcount => exact hold x hx
  | installed cap t hcount =>
    rcases List.mem_append.1 hx with hx | hx
    · exact hold x hx
    · exact List.mem_singleton.1 hx ▸ hzero
  | synced hid | ended hid =>
    obtain ⟨j, hj⟩ := List.mem_iff_getElem?.1 hx
    rcases getElem?_modify_some hid hj with ⟨-, rfl⟩ | ⟨-, hj⟩
    · exact hnet
    · exact hold x (List.mem_of_getElem? hj)

end Charges

section Runs

variable {ts : Trackers} {calls before later : List HookCall} {bound : Int} {id : HookId}
  {hook : AllocationHook}

theorem tracked_after (hwords : ts.Words) (calls : List HookCall) :
    Tracked ts (after ts calls) := by
  induction calls using List.reverseRecOn with
  | nil => exact ⟨rfl, hwords⟩
  | append_singleton calls c ih => exact after_snoc ts calls c ▸ ih.turn (turn_call _ c)

theorem net_mem_after (ts : Trackers) (hfits : HookCall.Fits bound calls)
    (hbound : bound ≤ int64Max) :
    -bound ≤ (after ts calls).hooks.net ∧ (after ts calls).hooks.net ≤ bound := by
  obtain ⟨base, h⟩ := balanced_after ts hfits hbound
  obtain ⟨low, high⟩ := h.counted_mem
  obtain ⟨hbase, hle⟩ := h.base_mem
  rw [h.net_eq (booked_after ts calls) hbound]
  omega

theorem synced_mem_after (ts : Trackers) (hfits : HookCall.Fits bound calls)
    (hbound : bound ≤ int64Max) :
    ∀ hook ∈ (after ts calls).hooks.hooks, -bound ≤ hook.synced ∧ hook.synced ≤ bound := by
  induction calls using List.reverseRecOn with
  | nil => simp [after, start]
  | append_singleton calls c ih =>
    obtain ⟨-, hpos⟩ := hfits [] (List.nil_prefix)
    have hfits := hfits.of_prefix (List.prefix_append calls [c])
    rw [after_snoc]
    exact synced_mem_turn (turn_call _ c) ⟨Int.neg_nonpos_of_nonneg hpos, hpos⟩
      (net_mem_after ts hfits hbound) (ih hfits)

theorem owners_after (ts : Trackers) (h : before <+: calls) :
    (after ts before).hooks.owners <+: (after ts calls).hooks.owners := by
  obtain ⟨more, rfl⟩ := h
  induction more using List.reverseRecOn with
  | nil => rw [List.append_nil]
  | append_singleton more c ih =>
    rw [← List.append_assoc, after_snoc]
    exact ih.trans (turn_call _ c).owners

theorem owner_after (h : before <+: calls) {j : HookId} {u : TrackerId}
    (hj : (after ts before).hooks.owners[j]? = some u) :
    (after ts calls).hooks.owners[j]? = some u := owner_of_prefix (owners_after ts h) hj

/-- A hook is not active after it was uninstalled, and if it was then it has synced what the
counters read. -/
theorem uninstalled_hook (ts : Trackers) (calls : List HookCall)
    (hid : (after ts (calls ++ [.uninstall id])).hooks.hooks[id]? = some hook) :
    hook.active = false ∧ ((after ts calls).hooks.isActive id →
      hook.synced = (after ts (calls ++ [.uninstall id])).hooks.net) := by
  rw [after_snoc] at *
  by_cases hactive : (after ts calls).hooks.isActive id
  · obtain ⟨old, hold, ha⟩ := hactive
    rw [call_uninstall_of_active hold ha] at *
    rcases getElem?_modify_some hold hid with ⟨-, rfl⟩ | ⟨hne, -⟩
    · exact ⟨rfl, fun _ => rfl⟩
    · exact absurd rfl hne
  · rw [call_uninstall_of_not_isActive hactive] at hid
    refine ⟨?_, fun h => absurd h hactive⟩
    rw [← Bool.not_eq_true]
    exact fun ha => hactive ⟨hook, hid, ha⟩

/-- The count of the tracker of a hook that is not active stays exactly if the counters read what
the hook has synced whenever it is synced. -/
theorem current_stays_iff {made : List TrackerCall} (hmade : Trackers.Valid made)
    (hi : hook.active = false) (ht : hook.tracker < (Trackers.after made).nodes.length) :
    ∀ {calls : List HookCall}, HookCall.Fits (int64Max / 2) (calls ++ later) →
    (after (.after made) calls).hooks.hooks[id]? = some hook →
    (∀ j u, (after (.after made) (calls ++ later)).hooks.owners[j]? = some u → j ≠ id →
      hook.tracker ∉ (Trackers.after made).path u) →
    ((∀ before, before <+: later →
        (after (.after made) (calls ++ before)).accounts.trackers.current hook.tracker
          = (after (.after made) calls).accounts.trackers.current hook.tracker)
      ↔ ∀ before rest, later = before ++ .sync id :: rest →
          (after (.after made) (calls ++ before)).hooks.net = hook.synced) := by
  induction later with
  | nil => simp
  | cons c later ih =>
    intro calls hfits hid hown
    have hle : int64Max / 2 ≤ int64Max := by decide
    have hpre : calls <+: calls ++ c :: later := List.prefix_append _ _
    obtain ⟨nlow, nhigh⟩ := net_mem_after (.after made) (hfits.of_prefix hpre) hle
    obtain ⟨slow, shigh⟩ := synced_mem_after (.after made) (hfits.of_prefix hpre) hle hook
      (List.mem_of_getElem? hid)
    have hself : hook.tracker ∈ (Trackers.after made).path hook.tracker :=
      (hmade.mem_path_iff ht).2 .refl
    obtain ⟨hstep, hkept⟩ := (tracked_after (Trackers.words_after made) calls).call_iff hid hi ht
      hself (by omega) (by omega) (fun j u hj => hown j u (owner_after hpre hj)) c
    rw [← after_snoc] at hstep hkept
    have hcons := List.append_cons calls c
    rw [hcons] at hfits hown
    rw [forall_prefix_cons, forall_split_cons, List.append_nil]
    constructor
    · rintro ⟨-, hsame⟩
      have hcur := hsame [] List.nil_prefix
      have hquiet := hstep.1 hcur
      refine ⟨hquiet, fun before rest hlater => ?_⟩
      rw [hcons]
      refine (ih hfits (hkept hquiet) hown).1 (fun before hbefore => ?_) before rest hlater
      exact hcons before ▸ (hsame before hbefore).trans hcur.symm
    · rintro ⟨hquiet, hrest⟩
      refine ⟨rfl, fun before hbefore => ?_⟩
      have hcur := hstep.2 hquiet
      rw [hcons, ← hcur]
      refine (ih hfits (hkept hquiet) hown).2 (fun before rest hlater => ?_) before hbefore
      exact hcons before ▸ hrest before rest hlater

end Runs

/-- What was in use at the tracker of a hook when the hook was uninstalled stays in use, if no other
hook charges the tracker, exactly if at each later sync of the hook the counters read what it has
synced: what they read at the uninstallation, if it was active then. -/
theorem tracker_stays_iff {made : List TrackerCall} (hmade : Trackers.Valid made)
    {calls later : List HookCall} {id : HookId} {hook : AllocationHook}
    (hfits : HookCall.Fits (int64Max / 2) (calls ++ .uninstall id :: later))
    (hid : (after (.after made) (calls ++ [.uninstall id])).hooks.hooks[id]? = some hook)
    (ht : hook.tracker < (Trackers.after made).nodes.length)
    (hown : ∀ j u, (after (.after made) (calls ++ .uninstall id :: later)).hooks.owners[j]?
      = some u → j ≠ id → hook.tracker ∉ (Trackers.after made).path u) :
    ((∀ before, before <+: later →
        (after (.after made) (calls ++ .uninstall id :: before)).accounts.trackers.current
            hook.tracker
          = (after (.after made) (calls ++ [.uninstall id])).accounts.trackers.current hook.tracker)
      ↔ ∀ before rest, later = before ++ .sync id :: rest →
          (after (.after made) (calls ++ .uninstall id :: before)).hooks.net = hook.synced)
      ∧ ((after (.after made) calls).hooks.isActive id →
          hook.synced = (after (.after made) (calls ++ [.uninstall id])).hooks.net) := by
  obtain ⟨hi, hsynced⟩ := uninstalled_hook _ _ hid
  have hcons := List.append_cons calls (.uninstall id)
  rw [hcons] at hfits hown
  have hiff := current_stays_iff hmade hi ht hfits hid hown
  simp only [← hcons] at hiff
  exact ⟨hiff, hsynced⟩

/-- Two trackers that have nothing to do with each other. -/
def twoRoots : List TrackerCall := [.newRoot .query "first", .newRoot .query "second"]

/-- The second hook has counted as much as the first one had when the first is synced again. -/
theorem tracker_stays_iff_even :
    let calls : List HookCall := [.install (.ofPlainBuild true) 0, .allocate 100]
    let later : List HookCall := [.install (.ofPlainBuild true) 1, .allocate 100, .sync 0]
    HookCall.Fits (int64Max / 2) (calls ++ .uninstall 0 :: later)
      ∧ (after (.after twoRoots) (calls ++ [.uninstall 0])).hooks.hooks[0]? = some ⟨0, 100, false⟩
      ∧ (after (.after twoRoots) (calls ++ .uninstall 0 :: later)).accounts.trackers.current 0
        = 100 := by
  intro calls later
  have hmade : Trackers.Valid twoRoots :=
    (Trackers.Valid.nil.snoc (c := .newRoot .query "first") trivial).snoc
      (c := .newRoot .query "second") trivial
  have hfits : HookCall.Fits (int64Max / 2) (calls ++ .uninstall 0 :: later) := by decide
  have hid : (after (.after twoRoots) (calls ++ [.uninstall 0])).hooks.hooks[0]?
      = some ⟨0, 100, false⟩ := by decide
  have hown : ∀ j u, (after (.after twoRoots) (calls ++ .uninstall 0 :: later)).hooks.owners[j]?
      = some u → j ≠ 0 → 0 ∉ (Trackers.after twoRoots).path u := by
    have howners : (after (.after twoRoots) (calls ++ .uninstall 0 :: later)).hooks.owners
        = [0, 1] := by decide
    rw [howners]
    rintro (_ | _ | j) u hj hne
    · exact absurd rfl hne
    · obtain rfl : 1 = u := by simpa using hj
      decide
    · simp at hj
  obtain ⟨hiff, -⟩ := tracker_stays_iff hmade hfits hid (by decide) hown
  have hquiet : ∀ before rest, later = before ++ .sync 0 :: rest →
      (after (.after twoRoots) (calls ++ .uninstall 0 :: before)).hooks.net = 100 := by
    simp only [later, forall_split_cons]
    exact ⟨nofun, nofun, fun _ => by decide, by simp⟩
  exact ⟨hfits, hid, (hiff.2 hquiet later List.prefix_rfl).trans (by decide)⟩

/-- A hook that was uninstalled is synced after another was installed, and takes back what its
tracker was charged with. -/
theorem uninstalled_hook_discharges :
    let calls : List HookCall := [.install (.ofPlainBuild true) 0, .allocate 100, .uninstall 0]
    let later : List HookCall := [.install (.ofPlainBuild true) 1, .sync 0]
    (after (.after twoRoots) calls).accounts.trackers.current 0 = 100
      ∧ (after (.after twoRoots) (calls ++ later)).accounts.trackers.current 0 = 0 := by
  decide

end HookRun

end QueryHost
