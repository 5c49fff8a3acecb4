import QueryHost.Proofs.ConstructionTwins
import QueryHost.Proofs.HostLife

/-!
# An init that fails

After an `init` that fails, at whichever step, an environment is as it was before anything was done
with it, but for what its metrics remember of names and counters and for what is left of the parts
that others may still hold (`Environment.LikeFresh`). Nothing of that matters
to the next `init`: on disks that are the same it ends as that of a fresh environment does
(`Environment.LikeFresh.sameOutcome`).
-/

namespace QueryHost

theorem Metrics.Known.deregisterAll {σ : Type} {m : Metrics σ} (h : m.Known) :
    m.deregisterAll.Known := ⟨h.library, h.helps⟩

/-! ## Outcomes of a call -/

/-- Two calls end alike: with the same answer, on the same disk, and with environments that differ
at most in numbers and in what their metrics remember. -/
structure Host.SameOutcome (p q : Host × Except Failure Unit) : Prop where
  answer : p.2 = q.2
  disk : p.1.scene.disk = q.1.scene.disk
  phase : p.1.env.phase = q.1.env.phase
  names : p.1.env.names = q.1.env.names
  stores : p.1.env.stores = q.1.env.stores
  index : p.1.env.storeIndex = q.1.env.storeIndex
  metrics : p.1.env.metrics.names = q.1.env.metrics.names
  resources : p.1.env.resources.map Resources.unnumbered
    = q.1.env.resources.map Resources.unnumbered

theorem Phase.Moves.eq_uninitialized {p : Phase} (h : Moves p .uninitialized) :
    p = .uninitialized := by
  cases h
  rfl

namespace Environment

variable {config : Config} {memory : MemInfo} {capability : HookCapability}
  {e e' : Environment} {s s' : Scene} {stores : List String} {r : Except Failure Unit} {f : Failure}

/-! ## Environments like fresh ones -/

/-- An environment that differs from a fresh one at most in what its metrics remember and in what is
left of parts that were released. -/
def LikeFresh (config : Config) (memory : MemInfo) (capability : HookCapability)
    (e : Environment) : Prop :=
  ∃ (metrics : Metrics Gauge) (remains : Option Resources),
    e = { fresh config memory capability with metrics, remains }
      ∧ metrics.registered = {} ∧ metrics.Known

/-- What can be seen of an environment that is not built. -/
structure Unbuilt (e : Environment) : Prop where
  phase : e.phase = .uninitialized
  names : e.names = []
  stores : e.stores = []
  index : e.storeIndex = {}
  metrics : e.metrics.names = []
  resources : e.getResources = .error .notInitialized

theorem LikeFresh.unbuilt (h : LikeFresh config memory capability e) : e.Unbuilt := by
  obtain ⟨metrics, remains, rfl, hnone, -⟩ := h
  exact ⟨rfl, rfl, rfl, rfl, by rw [Metrics.names, hnone]; exact List.mergeSort_nil, rfl⟩

theorem likeFresh_fresh (config : Config) (memory : MemInfo) (capability : HookCapability) :
    LikeFresh config memory capability (fresh config memory capability) :=
  ⟨{}, none, rfl, rfl, rfl, fun _ _ h => nomatch h⟩

theorem LikeFresh.begins (h : LikeFresh config memory capability e) (hb : Begins e stores s e' s' r)
    (hp : e'.phase = .uninitialized) : LikeFresh config memory capability e' := by
  cases hb with
  | again => exact h
  | late => exact h
  | rejected => exact h
  | failed _ hgrows =>
    obtain ⟨metrics, remains, rfl, -, hknown⟩ := h
    exact ⟨_, _, rfl, rfl, (hgrows.known hknown).deregisterAll⟩
  | built => exact nomatch hp

theorem phase_of_error (hb : Begins e stores s e' s' (.error f)) (hp : e.phase = .uninitialized) :
    e'.phase = .uninitialized := by
  cases hb with
  | late => exact hp
  | rejected => exact hp
  | failed => exact hp

/-- As long as a host is not built, its environment is like a fresh one. -/
theorem likeFresh_call {h : Host}
    (hfresh : h.env.phase = .uninitialized → LikeFresh config memory capability h.env)
    (c : HostCall) (hp : (h.call c).1.env.phase = .uninitialized) :
    LikeFresh config memory capability (h.call c).1.env := by
  have hbefore : h.env.phase = .uninitialized := (hp ▸ h.moves_call c).eq_uninitialized
  cases c with
  | init m stores => exact (hfresh hbefore).begins (begins_init h.env m stores h.scene) hp
  | destroy held =>
    rcases h.env.destroy_cases held h.scene with ⟨-, heq⟩ | ⟨-, hp', -⟩
    · have hsame : (h.call (.destroy held)).1.env = h.env := congrArg Prod.fst heq
      exact hsame ▸ hfresh hbefore
    · exact nomatch hbefore.symm.trans hp'

theorem likeFresh_callAll : ∀ (calls : List HostCall) {h : Host},
    (h.env.phase = .uninitialized → LikeFresh config memory capability h.env) →
      (callAll Host.call h calls).1.env.phase = .uninitialized →
        LikeFresh config memory capability (callAll Host.call h calls).1.env
  | [], _, hfresh, hp => hfresh hp
  | c :: calls, _, hfresh, hp => likeFresh_callAll calls (likeFresh_call hfresh c) hp

/-! ## What a failure leaves -/

theorem counting_begins (hb : Begins e stores s e' s' (.error f))
    (hc : s.accounts.hooks.counting = false) : s'.accounts.hooks.counting = false := by
  cases hb with
  | late => exact hc
  | rejected => exact hc
  | failed _ hgrows =>
    refine Accounts.countsBy_nil.1 (countsBy_releaseAll [] _ ?_)
    exact (hgrows.counts (Accounts.countsBy_nil.2 hc)).mono fun _ => List.mem_reverse.2

theorem bound_begins (hb : Begins e stores s e' s' (.error f)) (hn : s.accounts.bound = none) :
    s'.accounts.bound = none := by
  cases hb with
  | late => exact hn
  | rejected => exact hn
  | failed _ hgrows =>
    refine Accounts.boundBy_nil.1 (boundBy_releaseAll [] _ ?_)
    exact (hgrows.bound (Accounts.boundBy_nil.2 hn)).mono fun _ => List.mem_reverse.2

theorem disk_abandon (e : Environment) (site : Site) (f : Failure) :
    (e.abandon site f).2.disk = site.scene.disk :=
  disk_releaseAll [] _ _ _

/-- Neither what the metrics remember nor what is left of released parts matters to an `init`. -/
theorem LikeFresh.sameOutcome (h : LikeFresh config memory capability e)
    (h' : LikeFresh config memory capability e') (hdisk : s.disk = s'.disk)
    (hcounting : s.accounts.hooks.counting = s'.accounts.hooks.counting) (m : Machine)
    (stores : List String) :
    Host.SameOutcome (Host.call ⟨e, s⟩ (.init m stores)) (Host.call ⟨e', s'⟩ (.init m stores)) := by
  obtain ⟨metrics, remains, rfl, hnone, hknown⟩ := h
  obtain ⟨metrics', remains', rfl, hnone', hknown'⟩ := h'
  have hmetrics : metrics.Alike metrics' := ⟨by rw [hnone, hnone'], hknown, hknown'⟩
  let b : Blueprint := ⟨config, memory, capability, m, stores⟩
  have hrun := b.tandem_build { scene := s, parts := b.parts, metrics }
    { scene := s', parts := b.parts, metrics := metrics' } ⟨hdisk, hcounting, rfl, hmetrics, rfl⟩
  simp only [Host.call, init, fresh]
  cases checkAllocationSizes config.memory.minBufferSize config.memory.minChunkReserved with
  | error f =>
    exact ⟨rfl, hdisk, rfl, rfl, rfl, rfl, by rw [Metrics.names, Metrics.names, hnone, hnone'],
      rfl⟩
  | ok u =>
    simp only []
    generalize StateT.run _ (Site.mk s b.parts {} metrics) = p,
      StateT.run _ (Site.mk s' b.parts {} metrics') = q at hrun ⊢
    rcases p with ⟨r, site⟩
    rcases q with ⟨r', site'⟩
    obtain ⟨hagree, halike⟩ := hrun
    cases hagree with
    | error f =>
      have hsame := (disk_abandon (fresh config memory capability) site f).trans
        (halike.disk.trans (disk_abandon (fresh config memory capability) site' f).symm)
      exact ⟨rfl, hsame, rfl, rfl, rfl, rfl, rfl, rfl⟩
    | ok =>
      refine ⟨rfl, halike.disk, rfl, halike.names, rfl, rfl, ?_, congrArg some halike.parts⟩
      rw [Metrics.names, Metrics.names, halike.metrics.keys]

end Environment

/-! ## After a failure -/

namespace Host

open Environment

/-- What an `init` that fails leaves of a host, `before` and `after` it. -/
structure Restored (config : Config) (memory : MemInfo) (capability : HookCapability)
    (before after : Host) : Prop where
  env : LikeFresh config memory capability after.env
  unbuilt : after.env.Unbuilt
  hook : before.scene.accounts.hooks.counting = false → after.scene.accounts.hooks.counting = false
  binding : before.scene.accounts.bound = none → after.scene.accounts.bound = none
  /-- The next `init` ends as that of a fresh environment does. -/
  again : ∀ (m : Machine) (stores : List String) (s t : Scene), s.disk = t.disk →
    s.accounts.hooks.counting = t.accounts.hooks.counting →
      SameOutcome (call ⟨after.env, s⟩ (.init m stores))
        (call ⟨.fresh config memory capability, t⟩ (.init m stores))

variable {config : Config} {memory : MemInfo} {capability : HookCapability}

/-- However far an `init` gets before it fails, nothing is left of it but what it has done to the
disk. -/
theorem restored_of_error {calls : List HostCall} {s : Scene} {h : Host} {m : Machine}
    {stores : List String} {f : Failure}
    (hcalls : (QueryHost.callAll call ⟨.fresh config memory capability, s⟩ calls).1 = h)
    (hp : h.env.phase = .uninitialized) (herror : (h.call (.init m stores)).2 = .error f) :
    Restored config memory capability h (h.call (.init m stores)).1 := by
  have hfresh : LikeFresh config memory capability h.env := by
    subst hcalls
    exact likeFresh_callAll calls (fun _ => likeFresh_fresh config memory capability) hp
  have hb : Begins h.env stores h.scene (h.call (.init m stores)).1.env
      (h.call (.init m stores)).1.scene (.error f) :=
    herror ▸ begins_init h.env m stores h.scene
  have henv := hfresh.begins hb (phase_of_error hb hp)
  exact ⟨henv, henv.unbuilt, counting_begins hb, bound_begins hb,
    fun m stores _ _ hdisk hcounting =>
      henv.sameOutcome (likeFresh_fresh config memory capability) hdisk hcounting m stores⟩

/-- A machine whose program is not found to be an image, on a disk with nothing on it. -/
def bareMachine : Machine where
  memoryReport := .error (.system .notFound)
  descriptors := .ok 1024
  hostname := none
  process := 1
  cores := 2
  executable := ⟨"/"⟩

/-- Without stores there are no directories for temporary files. By then the hook counts and the
thread is bound. -/
theorem restored_without_stores :
    (call ⟨.fresh {} ⟨1000, 2000⟩ ⟨false, false, true⟩, {}⟩ (.init bareMachine [])).2
        = .error (.subsystem "tmp_file_mgr" "no usable tmp directories")
      ∧ Restored {} ⟨1000, 2000⟩ ⟨false, false, true⟩
        ⟨.fresh {} ⟨1000, 2000⟩ ⟨false, false, true⟩, {}⟩
        (call ⟨.fresh {} ⟨1000, 2000⟩ ⟨false, false, true⟩, {}⟩ (.init bareMachine [])).1 :=
  have hcalls : (QueryHost.callAll call ⟨.fresh {} ⟨1000, 2000⟩ ⟨false, false, true⟩, {}⟩ []).1
      = ⟨.fresh {} ⟨1000, 2000⟩ ⟨false, false, true⟩, {}⟩ := rfl
  have herror : (call ⟨.fresh {} ⟨1000, 2000⟩ ⟨false, false, true⟩, {}⟩ (.init bareMachine [])).2
      = .error (.subsystem "tmp_file_mgr" "no usable tmp directories") := by decide +kernel
  ⟨herror, restored_of_error hcalls rfl herror⟩

end Host

end QueryHost
