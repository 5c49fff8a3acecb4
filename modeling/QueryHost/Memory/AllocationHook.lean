import QueryHost.Log
import QueryHost.Memory.Tracker
import QueryHost.OsError

/-!
# Allocation hooks

While a hook is active, the bytes that the allocator hands out and takes back are counted. A hook
charges its tracker with the net amount: each sync charges what has changed since the one before.
The counters belong to no hook; installing one sets them to zero. They are signed words.
-/

namespace QueryHost

/-- The gates that an installation has to pass. -/
structure HookCapability where
  sanitizerBuild : Bool
  alternateAllocator : Bool
  userEnabled : Bool
  deriving DecidableEq, Repr

/-- What a plain build is capable of. -/
def HookCapability.ofPlainBuild (userEnabled : Bool) : HookCapability :=
  ⟨false, false, userEnabled⟩

def HookCapability.allows (c : HookCapability) : Bool :=
  c.userEnabled && !c.sanitizerBuild && !c.alternateAllocator

def HookCapability.text (c : HookCapability) : String :=
  "AllocHookCapability \x7b sanitizer_build: " ++ toString c.sanitizerBuild
    ++ ", alternate_allocator: " ++ toString c.alternateAllocator
    ++ ", user_enabled: " ++ toString c.userEnabled ++ " \x7d"

structure AllocationHook where
  tracker : TrackerId
  /-- The net bytes that the tracker has been charged with. -/
  synced : Int := 0
  active : Bool := true
  deriving DecidableEq, Repr

abbrev HookId := Nat

/-- The counters, whether they count, and every hook that was ever installed. -/
structure AllocationHooks where
  counting : Bool := false
  allocated : Int := 0
  freed : Int := 0
  hooks : List AllocationHook := []
  deriving DecidableEq, Repr

namespace AllocationHooks

def net (h : AllocationHooks) : Int := wrapInt64 (h.allocated - h.freed)

def onAllocate (h : AllocationHooks) (bytes : Nat) : AllocationHooks :=
  if h.counting then { h with allocated := wrapInt64 (h.allocated + bytes) } else h

def onFree (h : AllocationHooks) (bytes : Nat) : AllocationHooks :=
  if h.counting then { h with freed := wrapInt64 (h.freed + bytes) } else h

/-- The thread of a hook, which syncs it from time to time. -/
def threadName : String := "alloc_hook_sync"

/-- Installs a hook, or says why it stays away. By the time its thread is refused, the counters have
been set to zero. -/
def install (h : AllocationHooks) (refuses : ThreadRefusals) (c : HookCapability)
    (tracker : TrackerId) : AllocationHooks × Option HookId × Log :=
  if !c.allows then (h, none, [⟨.debug, "allocation hook not installed: " ++ c.text⟩])
  else if h.counting then
    (h, none, [.warn "allocation hook already installed by another environment"])
  else match refuses threadName with
    | some e => ({ h with allocated := 0, freed := 0 }, none,
        [.warn ("allocation hook not installed: spawn sync thread failed: " ++ e.text)])
    | none => (⟨true, 0, 0, h.hooks ++ [{ tracker := tracker }]⟩, some h.hooks.length, [])

/-- Charges the hook's tracker with what has changed since its last sync. -/
def sync (h : AllocationHooks) (id : HookId) (ts : Trackers) : AllocationHooks × Trackers :=
  match h.hooks[id]? with
  | none => (h, ts)
  | some hook =>
    let delta := wrapInt64 (h.net - hook.synced)
    let ts := if 0 < delta then ts.consume hook.tracker delta
      else ts.release hook.tracker (wrapInt64 (-delta))
    ({ h with hooks := h.hooks.modify id fun x => { x with synced := h.net } }, ts)

/-- Stops counting, after a last sync. A hook that is not active any more changes nothing. -/
def uninstall (h : AllocationHooks) (id : HookId) (ts : Trackers) : AllocationHooks × Trackers :=
  match h.hooks[id]? with
  | none => (h, ts)
  | some hook =>
    if hook.active then
      let (h, ts) := h.sync id ts
      ({ h with
          counting := false
          hooks := h.hooks.modify id fun x => { x with active := false } }, ts)
    else (h, ts)

end AllocationHooks

end QueryHost
