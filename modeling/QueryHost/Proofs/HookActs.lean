import Mathlib.Tactic.Common
import QueryHost.Memory.AllocationHook

/-!
# What is done to the hooks of the allocator

An installation adds an active hook or changes nothing (`installed_or_refused`), a sync changes what
one hook has synced (`sync_of_some`), and to uninstall an active hook is to sync it and end it
(`uninstall_of_active`). So each of them is known by what it does to the activity of every hook.
-/

namespace QueryHost

namespace AllocationHooks

variable {h : AllocationHooks} {id j : HookId} {hook : AllocationHook}

def isActive (h : AllocationHooks) (id : HookId) : Prop :=
  ∃ hook, h.hooks[id]? = some hook ∧ hook.active = true

/-- What has changed since the last sync of a hook. -/
def due (h : AllocationHooks) (hook : AllocationHook) : Int := wrapInt64 (h.net - hook.synced)

theorem sync_of_some (hid : h.hooks[id]? = some hook) (ts : Trackers) :
    h.sync id ts = ({ h with hooks := h.hooks.modify id fun x => { x with synced := h.net } },
      if 0 < h.due hook then ts.consume hook.tracker (h.due hook)
      else ts.release hook.tracker (wrapInt64 (-h.due hook))) := by
  simp only [sync, hid, due]
  rfl

theorem sync_of_none (hid : h.hooks[id]? = none) (ts : Trackers) : h.sync id ts = (h, ts) := by
  simp only [sync, hid]

theorem uninstall_of_active (hid : h.hooks[id]? = some hook) (ha : hook.active = true)
    (ts : Trackers) :
    h.uninstall id ts = ({ h with
        counting := false
        hooks := h.hooks.modify id fun x => { x with synced := h.net, active := false } },
      (h.sync id ts).2) := by
  simp only [uninstall, hid, ha, if_true, sync_of_some hid, List.modify_modify_eq]
  rfl

theorem uninstall_of_not_isActive (hn : ¬ h.isActive id) (ts : Trackers) :
    h.uninstall id ts = (h, ts) := by
  unfold uninstall
  cases hid : h.hooks[id]? with
  | none => rfl
  | some hook =>
    cases ha : hook.active with
    | false => simp [ha]
    | true => exact absurd ⟨hook, hid, ha⟩ hn

theorem uninstall_cases (h : AllocationHooks) (id : HookId) (ts : Trackers) :
    (¬ h.isActive id ∧ h.uninstall id ts = (h, ts)) ∨ (h.uninstall id ts).1.counting = false := by
  by_cases hactive : h.isActive id
  · obtain ⟨hook, hid, ha⟩ := hactive
    exact .inr (by rw [uninstall_of_active hid ha])
  · exact .inl ⟨hactive, uninstall_of_not_isActive hactive ts⟩

/-- To uninstall a hook ends it, and no other. -/
theorem isActive_uninstall (h : AllocationHooks) (id : HookId) (ts : Trackers) (j : HookId) :
    (h.uninstall id ts).1.isActive j ↔ h.isActive j ∧ j ≠ id := by
  by_cases hactive : h.isActive id
  · obtain ⟨hook, hid, ha⟩ := hactive
    rw [uninstall_of_active hid ha]
    simp only [isActive, List.getElem?_modify]
    rcases eq_or_ne j id with rfl | hne
    · simp [hid]
    · cases h.hooks[j]? with
      | none => simp
      | some x => simp [hne, hne.symm]
  · rw [uninstall_of_not_isActive hactive]
    exact ⟨fun hj => ⟨hj, fun heq => hactive (heq ▸ hj)⟩, And.left⟩

/-- A hook is installed exactly if its gates are open and nobody counts. -/
theorem installed_or_refused (h : AllocationHooks) (c : HookCapability) (t : TrackerId) :
    (c.allows = true ∧ h.counting = false
        ∧ h.install .none c t
          = (⟨true, 0, 0, h.hooks ++ [{ tracker := t }]⟩, some h.hooks.length, []))
      ∨ (¬ (c.allows = true ∧ h.counting = false)
        ∧ ∃ lines, h.install .none c t = (h, none, lines)) := by
  unfold install
  cases ha : c.allows <;> cases hc : h.counting <;> simp [ThreadRefusals.none]

end AllocationHooks

end QueryHost
