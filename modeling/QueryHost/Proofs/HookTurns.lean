import QueryHost.Memory.Accounts
import QueryHost.Proofs.HookActs
import QueryHost.Proofs.TrackerSums

/-!
# Hooks take turns

Hooks come and go, bytes are counted, and hooks charge their trackers; whatever a call does to all
this is one of six turns (`turn_call`). At most one hook is active, and it is one that counts
(`Exclusive`). The counters are signed words and may wrap around, but what they differ by does not
as long as the bytes in use are such a word: so the active hook has charged its tracker with what
was counted until its last sync (`Balanced`), and right after a sync with all (`hooks_take_turns`).
-/

namespace QueryHost

inductive HookCall where
  | install (capability : HookCapability) (tracker : TrackerId)
  | allocate (bytes : Nat)
  | free (bytes : Nat)
  /-- Its thread or anybody else has a hook charge its tracker. -/
  | sync (hook : HookId)
  /-- A hook is uninstalled, or dropped, which uninstalls it. -/
  | uninstall (hook : HookId)
  deriving DecidableEq, Repr

namespace HookCall

/-- The bytes that are in use after a call and were not before. -/
def bytes : HookCall → Int
  | allocate n => n
  | free n => -n
  | _ => 0

/-- The bytes that are in use after a run of calls. -/
def inUse (calls : List HookCall) : Int := (calls.map bytes).sum

/-- At no time are fewer bytes in use than none, or more than a bound. Blocks that are in use at one
time are apart in one space of addresses. -/
def Fits (bound : Int) (calls : List HookCall) : Prop :=
  ∀ before, before <+: calls → 0 ≤ inUse before ∧ inUse before ≤ bound

instance (bound : Int) (calls : List HookCall) : Decidable (Fits bound calls) :=
  decidable_of_iff (∀ before ∈ calls.inits, 0 ≤ inUse before ∧ inUse before ≤ bound) <| by
    simp only [List.mem_inits, Fits]

theorem inUse_snoc (calls : List HookCall) (c : HookCall) :
    inUse (calls ++ [c]) = inUse calls + c.bytes := by
  simp [inUse]

theorem Fits.of_prefix {bound : Int} {calls before : List HookCall} (h : Fits bound calls)
    (hpre : before <+: calls) : Fits bound before := fun earlier he => h earlier (he.trans hpre)

end HookCall

/-- The bytes that a call consumes, less those that it releases. -/
def TrackerCall.net : TrackerCall → Int
  | consume _ bytes => max bytes 0
  | release _ bytes => -max bytes 0
  | _ => 0

/-- A call consumes or releases at a tracker. -/
def TrackerCall.IsAt (t : TrackerId) : TrackerCall → Prop
  | consume u _ => u = t
  | release u _ => u = t
  | _ => False

namespace AllocationHooks

/-- The trackers of all hooks. No hook changes its tracker. -/
def owners (h : AllocationHooks) : List TrackerId := h.hooks.map (·.tracker)

/-- The call by which a hook charges its tracker. -/
def charge (h : AllocationHooks) (hook : AllocationHook) : TrackerCall :=
  if 0 < h.due hook then .consume hook.tracker (h.due hook)
  else .release hook.tracker (wrapInt64 (-h.due hook))

theorem isAt_charge (h : AllocationHooks) (hook : AllocationHook) :
    (h.charge hook).IsAt hook.tracker := by
  unfold charge
  split_ifs <;> rfl

theorem trackers_sync {h : AllocationHooks} {id : HookId} {hook : AllocationHook}
    (hid : h.hooks[id]? = some hook) (ts : Trackers) :
    (h.sync id ts).2 = ts.call (h.charge hook) := by
  rw [sync_of_some hid, charge]
  split_ifs <;> rfl

theorem net_charge {h : AllocationHooks} {hook : AllocationHook}
    (low : -int64Max ≤ h.net - hook.synced) (high : h.net - hook.synced ≤ int64Max) :
    (h.charge hook).net = h.net - hook.synced := by
  have hdue : h.due hook = h.net - hook.synced :=
    wrapInt64_eq_self (by simp only [int64Min, int64Max] at *; omega) high
  unfold charge
  split_ifs with hpos
  · simp only [TrackerCall.net]
    omega
  · have hneg : wrapInt64 (-h.due hook) = -h.due hook :=
      wrapInt64_eq_self (by simp only [int64Min]; omega) (by omega)
    simp only [TrackerCall.net, hneg]
    omega

end AllocationHooks

/-! ## Runs of calls -/

/-- The accounts, and what happened to them. -/
structure HookRun where
  accounts : Accounts
  /-- Bytes that were counted as allocated, and as freed, since the last installation. -/
  allocated : Nat := 0
  freed : Nat := 0
  /-- What each hook has charged its tracker with. -/
  charges : List (HookId × TrackerCall) := []

namespace HookRun

abbrev hooks (r : HookRun) : AllocationHooks := r.accounts.hooks

/-- Bytes that were counted as allocated, less those counted as freed, since the last installation.
-/
def counted (r : HookRun) : Int := r.allocated - r.freed

/-- The net amount that a hook has charged its tracker with. -/
def charged (r : HookRun) (id : HookId) : Int :=
  ((r.charges.filter (·.1 = id)).map (·.2.net)).sum

/-- What a sync of a hook charges. -/
def bill (r : HookRun) (id : HookId) : List (HookId × TrackerCall) :=
  (r.hooks.hooks[id]?).toList.map fun hook => (id, r.hooks.charge hook)

def call (r : HookRun) : HookCall → HookRun
  | .install c t =>
    match r.accounts.install .none c t with
    | (accounts, none, _) => { r with accounts }
    | (accounts, some _, _) => { r with accounts, allocated := 0, freed := 0 }
  | .allocate n => { r with
      accounts := r.accounts.onAllocate n
      allocated := if r.hooks.counting then r.allocated + n else r.allocated }
  | .free n => { r with
      accounts := r.accounts.onFree n
      freed := if r.hooks.counting then r.freed + n else r.freed }
  | .sync id => { r with
      accounts := r.accounts.sync id, charges := r.charges ++ r.bill id }
  | .uninstall id => { r with
      accounts := r.accounts.uninstall id
      charges := r.charges ++ if (r.hooks.hooks[id]?).any (·.active) then r.bill id else [] }

/-- No hook was ever installed. -/
def start (ts : Trackers) : HookRun := { accounts.trackers := ts }

def after (ts : Trackers) (calls : List HookCall) : HookRun := calls.foldl call (start ts)

theorem after_snoc (ts : Trackers) (calls : List HookCall) (c : HookCall) :
    after ts (calls ++ [c]) = (after ts calls).call c := List.foldl_concat _ _ _ _

/-! ## What a call can do -/

/-- The hook has charged its tracker. -/
def synced (r : HookRun) (id : HookId) (hook : AllocationHook) : HookRun := { r with
  accounts := { r.accounts with
    hooks := { r.hooks with
      hooks := r.hooks.hooks.modify id fun x => { x with synced := r.hooks.net } }
    trackers := r.accounts.trackers.call (r.hooks.charge hook) }
  charges := r.charges ++ [(id, r.hooks.charge hook)] }

/-- The hook has charged its tracker and is not active any more. -/
def ended (r : HookRun) (id : HookId) (hook : AllocationHook) : HookRun := { r with
  accounts := { r.accounts with
    hooks := { r.hooks with
      counting := false
      hooks := r.hooks.hooks.modify id fun x => { x with synced := r.hooks.net, active := false } }
    trackers := r.accounts.trackers.call (r.hooks.charge hook) }
  charges := r.charges ++ [(id, r.hooks.charge hook)] }

/-- What can become of a run by a call. -/
inductive Turn (r : HookRun) : HookCall → HookRun → Prop
  | idle {call : HookCall} : (call.bytes = 0 ∨ r.hooks.counting = false) → Turn r call r
  | installed (c : HookCapability) (t : TrackerId) : r.hooks.counting = false →
    Turn r (.install c t) { r with
      accounts := { r.accounts with hooks := ⟨true, 0, 0, r.hooks.hooks ++ [{ tracker := t }]⟩ }
      allocated := 0, freed := 0 }
  | allocated (n : Nat) : r.hooks.counting = true → Turn r (.allocate n) { r with
      accounts := { r.accounts with
        hooks := { r.hooks with allocated := wrapInt64 (r.hooks.allocated + n) } }
      allocated := r.allocated + n }
  | freed (n : Nat) : r.hooks.counting = true → Turn r (.free n) { r with
      accounts := { r.accounts with
        hooks := { r.hooks with freed := wrapInt64 (r.hooks.freed + n) } }
      freed := r.freed + n }
  | synced {id : HookId} {hook : AllocationHook} :
      r.hooks.hooks[id]? = some hook → Turn r (.sync id) (r.synced id hook)
  | ended {id : HookId} {hook : AllocationHook} :
      r.hooks.hooks[id]? = some hook → hook.active = true →
      Turn r (.uninstall id) (r.ended id hook)

section Turns

variable {r : HookRun} {id : HookId} {hook : AllocationHook}

theorem call_sync_of_some (hid : r.hooks.hooks[id]? = some hook) :
    r.call (.sync id) = r.synced id hook := by
  have hsync := AllocationHooks.sync_of_some hid r.accounts.trackers
  have hts := AllocationHooks.trackers_sync hid r.accounts.trackers
  rw [hsync] at hts
  simp only [call, bill, hid, Accounts.sync, hsync, hts, synced]
  rfl

theorem call_uninstall_of_active (hid : r.hooks.hooks[id]? = some hook)
    (ha : hook.active = true) : r.call (.uninstall id) = r.ended id hook := by
  have hun := AllocationHooks.uninstall_of_active hid ha r.accounts.trackers
  have hts := AllocationHooks.trackers_sync hid r.accounts.trackers
  rw [hts] at hun
  simp only [call, bill, hid, Accounts.uninstall, hun, ended, Option.any_some, ha, if_true]
  rfl

theorem call_uninstall_of_not_isActive (hn : ¬ r.hooks.isActive id) :
    r.call (.uninstall id) = r := by
  have hany : (r.hooks.hooks[id]?).any (·.active) = false := by
    cases hid : r.hooks.hooks[id]? with
    | none => rfl
    | some hook => simpa using fun ha => hn ⟨hook, hid, ha⟩
  simp only [call, Accounts.uninstall, hany,
    AllocationHooks.uninstall_of_not_isActive hn r.accounts.trackers]
  simp

/-- Whatever a call does is a turn. -/
theorem turn_call (r : HookRun) (c : HookCall) : r.Turn c (r.call c) := by
  cases c with
  | install c t =>
    simp only [call, Accounts.install]
    rcases r.hooks.installed_or_refused c t with ⟨-, hc, heq⟩ | ⟨-, lines, heq⟩
    · rw [heq]
      exact .installed c t hc
    · rw [heq]
      exact .idle (.inl rfl)
  | allocate n =>
    by_cases hc : r.hooks.counting = true
    · simp only [call, Accounts.onAllocate, AllocationHooks.onAllocate, if_pos hc]
      exact .allocated n hc
    · simp only [call, Accounts.onAllocate, AllocationHooks.onAllocate, if_neg hc]
      exact .idle (.inr (Bool.eq_false_of_not_eq_true hc))
  | free n =>
    by_cases hc : r.hooks.counting = true
    · simp only [call, Accounts.onFree, AllocationHooks.onFree, if_pos hc]
      exact .freed n hc
    · simp only [call, Accounts.onFree, AllocationHooks.onFree, if_neg hc]
      exact .idle (.inr (Bool.eq_false_of_not_eq_true hc))
  | sync id =>
    cases hid : r.hooks.hooks[id]? with
    | none =>
      have hidle : r.call (.sync id) = r := by
        simp [call, bill, hid, Accounts.sync, AllocationHooks.sync_of_none hid]
      rw [hidle]
      exact .idle (.inl rfl)
    | some hook =>
      rw [call_sync_of_some hid]
      exact .synced hid
  | uninstall id =>
    by_cases hactive : r.hooks.isActive id
    · obtain ⟨hook, hid, ha⟩ := hactive
      rw [call_uninstall_of_active hid ha]
      exact .ended hid ha
    · rw [call_uninstall_of_not_isActive hactive]
      exact .idle (.inl rfl)

end Turns

/-! ## What is true after every run -/

/-- No hook is active but the last one, and the counters count just while it is. -/
structure Exclusive (h : AllocationHooks) : Prop where
  counting_iff : h.counting = true ↔ ∃ id, h.isActive id
  last : ∀ id, h.isActive id → id + 1 = h.hooks.length

/-- The counters are those of the run, as signed words, and the trackers are charged as recorded. -/
structure Booked (ts : Trackers) (r : HookRun) : Prop where
  allocated_eq : r.hooks.allocated = wrapInt64 r.allocated
  freed_eq : r.hooks.freed = wrapInt64 r.freed
  owned : ∀ x ∈ r.charges, ∃ t, r.hooks.owners[x.1]? = some t ∧ x.2.IsAt t
  trackers_eq : r.accounts.trackers = r.charges.foldl (fun ts x => ts.call x.2) ts

/-- What is counted is what has come to the bytes in use since the counting began, and the active
hook has charged its tracker with what was counted until its last sync. -/
structure Balanced (bound base inUse : Int) (r : HookRun) : Prop where
  base_mem : 0 ≤ base ∧ base ≤ bound
  counted_eq : r.hooks.counting = true → r.counted = inUse - base
  counted_mem : -base ≤ r.counted ∧ r.counted ≤ bound - base
  synced_eq : ∀ id hook, r.hooks.hooks[id]? = some hook → hook.active = true →
    hook.synced = r.charged id ∧ -base ≤ hook.synced ∧ hook.synced ≤ bound - base

section Steps

variable {ts : Trackers} {r r' : HookRun} {c : HookCall} {id : HookId} {hook : AllocationHook}

theorem Exclusive.not_isActive_iff {h : AllocationHooks} (hx : Exclusive h) :
    (¬ ∃ id, h.isActive id) ↔ h.counting = false := by
  rw [← hx.counting_iff, Bool.not_eq_true]

theorem isActive_synced (r : HookRun) (id : HookId) (hook : AllocationHook) (j : HookId) :
    (r.synced id hook).hooks.isActive j ↔ r.hooks.isActive j := by
  simp only [AllocationHooks.isActive, synced, List.getElem?_modify]
  cases r.hooks.hooks[j]? with
  | none => simp
  | some x => by_cases hij : id = j <;> simp [hij]

theorem isActive_ended (r : HookRun) (id : HookId) (hook : AllocationHook) (j : HookId) :
    (r.ended id hook).hooks.isActive j ↔ r.hooks.isActive j ∧ id ≠ j := by
  simp only [AllocationHooks.isActive, ended, List.getElem?_modify]
  cases r.hooks.hooks[j]? with
  | none => simp
  | some x => by_cases hij : id = j <;> simp [hij]

theorem isActive_installed (h : AllocationHooks) (t : TrackerId) (j : HookId) :
    (⟨true, 0, 0, h.hooks ++ [{ tracker := t }]⟩ : AllocationHooks).isActive j
      ↔ h.isActive j ∨ j = h.hooks.length := by
  simp only [AllocationHooks.isActive, List.getElem?_append]
  rcases Nat.lt_trichotomy j h.hooks.length with hj | rfl | hj
  · simp [hj, Nat.ne_of_lt hj]
  · simp
  · rw [if_neg (Nat.not_lt_of_gt hj), List.getElem?_eq_none (Nat.le_of_lt hj),
      List.getElem?_eq_none (Nat.le_sub_of_add_le' hj)]
    simp [Nat.ne_of_gt hj]

/-- One hook at most is active, whatever is done. -/
theorem Exclusive.turn (h : Exclusive r.hooks) (ht : r.Turn c r') : Exclusive r'.hooks := by
  cases ht with
  | idle => exact h
  | allocated n hc => exact ⟨h.counting_iff, h.last⟩
  | freed n hc => exact ⟨h.counting_iff, h.last⟩
  | installed c t hc =>
    refine ⟨⟨fun _ => ⟨_, (isActive_installed _ t _).2 (.inr rfl)⟩, fun _ => rfl⟩, fun j hj => ?_⟩
    obtain rfl := ((isActive_installed _ t j).1 hj).resolve_left fun hj =>
      h.not_isActive_iff.2 hc ⟨j, hj⟩
    simp
  | @synced id hook hid =>
    refine ⟨h.counting_iff.trans (exists_congr fun j => (isActive_synced r id hook j).symm), ?_⟩
    intro j hj
    exact (h.last j ((isActive_synced r id hook j).1 hj)).trans (List.length_modify _ _ _).symm
  | @ended id hook hid ha =>
    have hnone : ∀ j, ¬ (r.ended id hook).hooks.isActive j := fun j hj => by
      obtain ⟨hj, hne⟩ := (isActive_ended r id hook j).1 hj
      exact hne (Nat.succ.inj ((h.last id ⟨hook, hid, ha⟩).trans (h.last j hj).symm))
    exact ⟨⟨fun hc => Bool.noConfusion hc, fun ⟨j, hj⟩ => absurd hj (hnone j)⟩,
      fun j hj => absurd hj (hnone j)⟩

theorem owners_modify (hooks : List AllocationHook) (id : HookId)
    {f : AllocationHook → AllocationHook} (hf : ∀ x, (f x).tracker = x.tracker) :
    (hooks.modify id f).map (·.tracker) = hooks.map (·.tracker) := by
  refine List.ext_getElem? fun j => ?_
  simp only [List.getElem?_map, List.getElem?_modify]
  cases hooks[j]? with
  | none => rfl
  | some x => by_cases hij : id = j <;> simp [hij, hf]

theorem Turn.owners (ht : r.Turn c r') : r.hooks.owners <+: r'.hooks.owners := by
  cases ht with
  | idle => exact List.prefix_rfl
  | allocated n hc => exact List.prefix_rfl
  | freed n hc => exact List.prefix_rfl
  | installed c t hc =>
    rw [AllocationHooks.owners, AllocationHooks.owners, List.map_append]
    exact List.prefix_append _ _
  | @synced id hook hid =>
    have hkept : (r.synced id hook).hooks.owners = r.hooks.owners := owners_modify _ _ fun _ => rfl
    exact hkept ▸ List.prefix_rfl
  | @ended id hook hid ha =>
    have hkept : (r.ended id hook).hooks.owners = r.hooks.owners := owners_modify _ _ fun _ => rfl
    exact hkept ▸ List.prefix_rfl

theorem owner_of_prefix {owners owners' : List TrackerId} (h : owners <+: owners') {t : TrackerId}
    (hid : owners[id]? = some t) : owners'[id]? = some t := by
  obtain ⟨hlt, rfl⟩ := List.getElem?_eq_some_iff.1 hid
  exact List.prefix_iff_getElem?.1 h id hlt

theorem counter_zero : (0 : Int) = wrapInt64 (0 : Nat) := by
  decide

/-- A counter of the hooks goes on as a signed word of what the run counts. -/
theorem counter_add {counter : Int} {sum : Nat} (h : counter = wrapInt64 sum) (n : Nat) :
    wrapInt64 (counter + n) = wrapInt64 (sum + n : Nat) := by
  rw [h, Int.natCast_add]
  exact Int.bmod_add_bmod

theorem Booked.turn (h : Booked ts r) (ht : r.Turn c r') : Booked ts r' := by
  have howned : ∀ x ∈ r.charges, ∃ t, r'.hooks.owners[x.1]? = some t ∧ x.2.IsAt t := by
    intro x hx
    obtain ⟨t, hx, hat⟩ := h.owned x hx
    exact ⟨t, owner_of_prefix ht.owners hx, hat⟩
  have hcharge : ∀ {id hook}, r.hooks.hooks[id]? = some hook →
      (∀ x ∈ r.charges ++ [(id, r.hooks.charge hook)],
          ∃ t, r'.hooks.owners[x.1]? = some t ∧ x.2.IsAt t)
        ∧ r.accounts.trackers.call (r.hooks.charge hook)
          = (r.charges ++ [(id, r.hooks.charge hook)]).foldl (fun ts x => ts.call x.2) ts := by
    intro id hook hid
    refine ⟨fun x hx => ?_, by rw [List.foldl_concat, h.trackers_eq]⟩
    rcases List.mem_append.1 hx with hx | hx
    · exact howned x hx
    · obtain rfl := List.mem_singleton.1 hx
      have howner : r.hooks.owners[id]? = some hook.tracker := by
        simp [AllocationHooks.owners, hid]
      exact ⟨_, owner_of_prefix ht.owners howner, AllocationHooks.isAt_charge _ _⟩
  cases ht with
  | idle => exact h
  | allocated n hc => exact ⟨counter_add h.allocated_eq n, h.freed_eq, howned, h.trackers_eq⟩
  | freed n hc => exact ⟨h.allocated_eq, counter_add h.freed_eq n, howned, h.trackers_eq⟩
  | installed c t hc => exact ⟨counter_zero, counter_zero, howned, h.trackers_eq⟩
  | synced hid =>
    obtain ⟨howned, htrackers⟩ := hcharge hid
    exact ⟨h.allocated_eq, h.freed_eq, howned, htrackers⟩
  | ended hid ha =>
    obtain ⟨howned, htrackers⟩ := hcharge hid
    exact ⟨h.allocated_eq, h.freed_eq, howned, htrackers⟩

theorem Booked.net_eq (h : Booked ts r) : r.hooks.net = wrapInt64 r.counted := by
  rw [AllocationHooks.net, h.allocated_eq, h.freed_eq]
  exact Int.sub_bmod_bmod.trans Int.bmod_sub_bmod

theorem Balanced.net_eq {bound base inUse : Int} (h : Balanced bound base inUse r)
    (hb : Booked ts r) (hbound : bound ≤ int64Max) : r.hooks.net = r.counted := by
  obtain ⟨low, high⟩ := h.counted_mem
  obtain ⟨hbase, hle⟩ := h.base_mem
  rw [hb.net_eq]
  exact wrapInt64_eq_self (by simp only [int64Min, int64Max] at *; omega) (by omega)

theorem charged_of_snoc {x : HookId × TrackerCall} (h : r'.charges = r.charges ++ [x])
    (id : HookId) : r'.charged id = r.charged id + if x.1 = id then x.2.net else 0 := by
  rw [charged, h, List.filter_append, List.map_append, List.sum_append, charged]
  by_cases hx : x.1 = id <;> simp [hx]

/-- A hook that has just charged its tracker has charged it with all that was counted. -/
theorem Balanced.charged_eq {bound base inUse : Int} (h : Balanced bound base inUse r)
    (hb : Booked ts r) (hbound : bound ≤ int64Max) (hid : r.hooks.hooks[id]? = some hook)
    (ha : hook.active = true) (hcharges : r'.charges = r.charges ++ [(id, r.hooks.charge hook)]) :
    r'.charged id = r.counted := by
  obtain ⟨hcharged, slow, shigh⟩ := h.synced_eq id hook hid ha
  obtain ⟨clow, chigh⟩ := h.counted_mem
  have hnet := h.net_eq hb hbound
  have hcharge : (r.hooks.charge hook).net = r.counted - hook.synced := by
    rw [AllocationHooks.net_charge (by omega) (by omega), hnet]
  rw [charged_of_snoc hcharges, if_pos rfl, hcharge, ← hcharged]
  omega

theorem getElem?_modify_some {hooks : List AllocationHook} {f : AllocationHook → AllocationHook}
    {j : HookId} {x : AllocationHook} (hid : hooks[id]? = some hook)
    (hx : (hooks.modify id f)[j]? = some x) :
    (id = j ∧ x = f hook) ∨ (id ≠ j ∧ hooks[j]? = some x) := by
  rw [List.getElem?_modify] at hx
  by_cases hij : id = j
  · subst hij
    simp only [if_true, hid, Option.map_eq_map, Option.map_some, Option.some.injEq] at hx
    exact .inl ⟨rfl, hx.symm⟩
  · simp only [hij, if_false, Option.map_eq_map, Option.map_id_fun', id_eq] at hx
    exact .inr ⟨hij, hx⟩

/-- A hook that is yet to come has charged nothing. -/
theorem Booked.charged_eq_zero (h : Booked ts r) (hid : r.hooks.hooks.length ≤ id) :
    r.charged id = 0 := by
  have hnone : r.charges.filter (·.1 = id) = [] := by
    refine List.filter_eq_nil_iff.2 fun x hx hxid => ?_
    obtain ⟨t, hx, -⟩ := h.owned x hx
    have hlt := (List.getElem?_eq_some_iff.1 hx).1
    rw [of_decide_eq_true hxid, AllocationHooks.owners, List.length_map] at hlt
    exact Nat.not_lt_of_le hid hlt
  rw [charged, hnone]
  rfl

/-- One turn keeps the balance. An installation begins the counting anew: no other hook is active
then, and the new one has charged nothing. -/
theorem Balanced.turn {bound base inUse : Int} (h : Balanced bound base inUse r)
    (hx : Exclusive r.hooks) (hb : Booked ts r) (hbound : bound ≤ int64Max)
    (huse : 0 ≤ inUse ∧ inUse ≤ bound) (huse' : 0 ≤ inUse + c.bytes ∧ inUse + c.bytes ≤ bound)
    (ht : r.Turn c r') : ∃ base', Balanced bound base' (inUse + c.bytes) r' := by
  cases ht with
  | idle hidle =>
    refine ⟨base, h.base_mem, fun hc => ?_, h.counted_mem, h.synced_eq⟩
    rcases hidle with hidle | hidle
    · rw [h.counted_eq hc, hidle, Int.add_zero]
    · exact absurd (hc.symm.trans hidle) Bool.noConfusion
  | allocated n hc =>
    simp only [HookCall.bytes] at huse' ⊢
    have hsum : ((r.allocated + n : Nat) : Int) - r.freed = inUse + n - base := by
      have hcounted := h.counted_eq hc
      simp only [counted] at hcounted
      omega
    refine ⟨base, h.base_mem, fun _ => hsum, ?_, h.synced_eq⟩
    simp only [counted, hsum]
    omega
  | freed n hc =>
    simp only [HookCall.bytes] at huse' ⊢
    have hsum : (r.allocated : Int) - (r.freed + n : Nat) = inUse + -n - base := by
      have hcounted := h.counted_eq hc
      simp only [counted] at hcounted
      omega
    refine ⟨base, h.base_mem, fun _ => hsum, ?_, h.synced_eq⟩
    simp only [counted, hsum]
    omega
  | installed c t hc =>
    have hmem : -inUse ≤ 0 ∧ 0 ≤ bound - inUse := by omega
    refine ⟨inUse, huse, fun _ => by simp [counted, HookCall.bytes], hmem, fun j x hj hactive => ?_⟩
    have hold := (isActive_installed r.hooks t j).1 ⟨x, hj, hactive⟩
    obtain rfl := hold.resolve_left fun hj => hx.not_isActive_iff.2 hc ⟨j, hj⟩
    obtain rfl : { tracker := t } = x := by simpa using hj
    exact ⟨(hb.charged_eq_zero (Nat.le_refl _)).symm, hmem⟩
  | @synced id hook hid =>
    refine ⟨base, h.base_mem, fun hc => ?_, h.counted_mem, fun j x hj hactive => ?_⟩
    · simp only [HookCall.bytes, Int.add_zero]
      exact h.counted_eq hc
    rcases getElem?_modify_some hid hj with ⟨rfl, rfl⟩ | ⟨hne, hj⟩
    · rw [h.charged_eq hb hbound hid hactive rfl, h.net_eq hb hbound]
      exact ⟨rfl, h.counted_mem⟩
    · rw [charged_of_snoc rfl, if_neg hne, Int.add_zero]
      exact h.synced_eq j x hj hactive
  | @ended id hook hid ha =>
    refine ⟨base, h.base_mem, fun hc => Bool.noConfusion hc, h.counted_mem, ?_⟩
    intro j x hj hactive
    rcases getElem?_modify_some hid hj with ⟨rfl, rfl⟩ | ⟨hne, hj⟩
    · exact Bool.noConfusion hactive
    · rw [charged_of_snoc rfl, if_neg hne, Int.add_zero]
      exact h.synced_eq j x hj hactive

end Steps

section Runs

variable {ts : Trackers} {calls : List HookCall} {bound : Int}

theorem exclusive_after (ts : Trackers) (calls : List HookCall) :
    Exclusive (after ts calls).hooks := by
  induction calls using List.reverseRecOn with
  | nil => constructor <;> simp [after, start, AllocationHooks.isActive]
  | append_singleton calls c ih => exact after_snoc ts calls c ▸ ih.turn (turn_call _ c)

theorem booked_after (ts : Trackers) (calls : List HookCall) : Booked ts (after ts calls) := by
  induction calls using List.reverseRecOn with
  | nil => exact ⟨counter_zero, counter_zero, by simp [after, start], rfl⟩
  | append_singleton calls c ih => exact after_snoc ts calls c ▸ ih.turn (turn_call _ c)

/-- So the counters are balanced after all calls, as long as what is in use fits a signed word. -/
theorem balanced_after (ts : Trackers) (hfits : HookCall.Fits bound calls)
    (hbound : bound ≤ int64Max) :
    ∃ base, Balanced bound base (HookCall.inUse calls) (after ts calls) := by
  induction calls using List.reverseRecOn with
  | nil =>
    obtain ⟨-, hpos⟩ := hfits [] (List.prefix_refl _)
    have hmem : (-0 : Int) ≤ 0 ∧ 0 ≤ bound - 0 := ⟨Int.le_refl _, by rwa [Int.sub_zero]⟩
    exact ⟨0, ⟨Int.le_refl _, hpos⟩, fun _ => rfl, hmem, by simp [after, start]⟩
  | append_singleton calls c ih =>
    have hpre : calls <+: calls ++ [c] := List.prefix_append _ _
    obtain ⟨base, h⟩ := ih (hfits.of_prefix hpre)
    have huse := hfits _ (List.prefix_refl _)
    rw [HookCall.inUse_snoc] at huse
    rw [after_snoc, HookCall.inUse_snoc]
    exact h.turn (exclusive_after ts calls) (booked_after ts calls) hbound (hfits calls hpre) huse
      (turn_call _ c)

/-- One hook is active at a time, and the counters count just while one is; a hook can be installed
when its gates are open and none is active; to uninstall one that is not active changes nothing; and
a hook that was active when it charged its tracker has charged it with all that was counted. -/
theorem hooks_take_turns (ts : Trackers) (calls : List HookCall) :
    let r := after ts calls
    (r.hooks.counting = true ↔ ∃ id, r.hooks.isActive id)
      ∧ (∀ i j, r.hooks.isActive i → r.hooks.isActive j → i = j)
      ∧ (∀ c t, (r.accounts.install .none c t).2.1.isSome = true
          ↔ (c.userEnabled = true ∧ c.sanitizerBuild = false ∧ c.alternateAllocator = false)
            ∧ ¬ ∃ id, r.hooks.isActive id)
      ∧ (∀ c t id, (r.accounts.install .none c t).2.1 = some id →
          ∀ j, (r.call (.install c t)).hooks.isActive j ↔ j = id)
      ∧ ((¬ ∃ id, r.hooks.isActive id) →
          ∀ n, r.accounts.onAllocate n = r.accounts ∧ r.accounts.onFree n = r.accounts)
      ∧ (∀ id, ¬ r.hooks.isActive id → r.accounts.uninstall id = r.accounts)
      ∧ (r.hooks.allocated = wrapInt64 r.allocated ∧ r.hooks.freed = wrapInt64 r.freed)
      ∧ (∀ x ∈ r.charges, ∃ t, r.hooks.owners[x.1]? = some t ∧ x.2.IsAt t)
      ∧ r.accounts.trackers = r.charges.foldl (fun ts x => ts.call x.2) ts
      ∧ (HookCall.Fits int64Max calls → ∀ id, r.hooks.isActive id →
          ∀ c, c = .sync id ∨ c = .uninstall id → (r.call c).charged id = (r.call c).counted) := by
  intro r
  have hx : Exclusive r.hooks := exclusive_after ts calls
  have hb : Booked ts r := booked_after ts calls
  refine ⟨hx.counting_iff, ?_, ?_, ?_, ?_, ?_, ⟨hb.allocated_eq, hb.freed_eq⟩, hb.owned,
    hb.trackers_eq, ?_⟩
  · intro i j hi hj
    exact Nat.succ.inj ((hx.last i hi).trans (hx.last j hj).symm)
  · intro c t
    have hgates : c.allows = true ↔ c.userEnabled = true ∧ c.sanitizerBuild = false
        ∧ c.alternateAllocator = false := by
      simp [HookCapability.allows, and_assoc]
    rw [hx.not_isActive_iff, ← hgates]
    rcases r.hooks.installed_or_refused c t with ⟨ha, hc, heq⟩ | ⟨hn, lines, heq⟩
    · simp [Accounts.install, heq, ha, hc]
    · simp [Accounts.install, heq, hn]
  · intro c t id hid j
    rcases r.hooks.installed_or_refused c t with ⟨ha, hc, heq⟩ | ⟨hn, lines, heq⟩
    · have hnone : ¬ ∃ id, r.hooks.isActive id := hx.not_isActive_iff.2 hc
      obtain rfl : r.hooks.hooks.length = id := by simpa [Accounts.install, heq] using hid
      have hcall : (r.call (.install c t)).hooks
          = ⟨true, 0, 0, r.hooks.hooks ++ [{ tracker := t }]⟩ := by
        simp [call, Accounts.install, heq]
      rw [hcall, isActive_installed]
      exact or_iff_right fun hj => hnone ⟨j, hj⟩
    · simp [Accounts.install, heq] at hid
  · intro hnone n
    have hc : ¬ r.hooks.counting = true := fun hc => hnone (hx.counting_iff.1 hc)
    simp only [Accounts.onAllocate, AllocationHooks.onAllocate, Accounts.onFree,
      AllocationHooks.onFree, if_neg hc, and_self]
  · intro id hn
    exact congrArg accounts (call_uninstall_of_not_isActive hn)
  · rintro hfits id ⟨hook, hid, ha⟩ c (rfl | rfl)
    · obtain ⟨base, h⟩ := balanced_after ts hfits (Int.le_refl _)
      rw [call_sync_of_some hid]
      exact h.charged_eq hb (Int.le_refl _) hid ha rfl
    · obtain ⟨base, h⟩ := balanced_after ts hfits (Int.le_refl _)
      rw [call_uninstall_of_active hid ha]
      exact h.charged_eq hb (Int.le_refl _) hid ha rfl

/-- A second hook counts after the first, and blocks from before its installation are freed. -/
def relay : List HookCall :=
  [.install (.ofPlainBuild true) 0, .allocate 100, .uninstall 0, .install (.ofPlainBuild true) 1,
    .allocate 50, .free 80]

theorem hooks_take_turns_relay :
    let ts := Trackers.after [.newRoot .query "first", .newRoot .query "second"]
    HookCall.Fits int64Max relay ∧ (after ts relay).hooks.isActive 1
      ∧ ((after ts relay).call (.sync 1)).charged 1 = -30
      ∧ ((after ts relay).call (.sync 1)).accounts.trackers.current 0 = 100 := by
  intro ts
  have hfits : HookCall.Fits int64Max relay := by decide
  have hactive : (after ts relay).hooks.isActive 1 := ⟨{ tracker := 1 }, rfl, rfl⟩
  obtain ⟨-, -, -, -, -, -, -, -, -, h⟩ := hooks_take_turns ts relay
  exact ⟨hfits, hactive, (h hfits 1 hactive (.sync 1) (.inl rfl)).trans (by decide), by decide⟩

end Runs

end HookRun

end QueryHost
