import Mathlib.Tactic.Common
import QueryHost.Host.Shutdown
import QueryHost.Proofs.ChunkAccounts
import QueryHost.Proofs.HookActs

/-!
# Shutdowns

A subsystem that was shut down has nothing at work and holds nothing any more (`Subsystem.IsDown`):
its registry is empty, its threads have ended, its hook or binding is gone. Its shutdown brings that
about (`Subsystem.isDown_shutDown`), and the shutdowns of the others leave it so
(`Subsystem.IsDown.kept`).
-/

namespace QueryHost

/-! ## Parts that are down -/

/-- The pool takes nothing more, and no worker is left. -/
structure ThreadPool.IsStopped {τ : Type} (p : ThreadPool τ) : Prop where
  closed : p.closed = true
  threads : p.threads = 0
  workers : p.workers = {}

/-- The buffer is gone, and the token takes nothing more and has forgotten its works. -/
structure DownloadCache.IsClosed {α : Type} (d : DownloadCache α) : Prop where
  buffer : d.buffer = none
  token : ∀ k, d.crew.tokens[d.token]? = some k → k.closed = true ∧ k.pending = []

/-- The queue takes nothing more, and neither the poller nor an executor is at work. -/
structure Scheduler.IsStopped {τ : Type} (s : Scheduler τ) : Prop where
  closed : s.queue.closed = true
  polling : s.polling = false
  staff : s.staff = 0

def Scanner.IsStopped {α : Type} (s : Scanner α) : Prop :=
  ∀ pools, s.pools = some pools → ∀ kind, (pools.get kind).pool.IsStopped

/-- No job is queued or being executed. -/
def FixedPool.IsIdle {τ : Type} (p : FixedPool τ) : Prop := p.active = [] ∧ p.queue = []

namespace Subsystem

/-- What its shutdown has to bring about, for a subsystem that has something to stop. -/
def IsDown (r : Resources) (a : Accounts) : Subsystem → Prop
  | .scanContexts => r.scanContexts.registered = {}
  | .receivers => r.receivers.registered = {}
  | .resultBuffers => r.resultBuffers.registered = {} ∧ r.resultBuffers.expires = false
  | .resultQueues => r.resultQueues.registered = {}
  | .backendClients => r.backendClients.idle = {}
  | .frontendClients => r.frontendClients.idle = {}
  | .brokerClients => r.brokerClients.idle = {}
  | .sendBatchPool => r.sendBatch.pool.IsStopped
  | .downloadPool => r.downloads.crew.pool.IsStopped
  | .downloadCache => r.downloads.IsClosed
  | .pipeline => r.pipeline.IsStopped
  | .scanner => r.scanner.IsStopped
  | .fragments => r.fragments.registered = {}
  | .resultCache => r.resultCache.results = {}
  | .loadChannels => r.loadChannels.opened = {}
  | .loadPipes => r.streamLoads.registeredPipes = {}
  | .streamLoads => r.streamLoads.registered = {}
  | .internalStubs => r.internalStubs.stubs = {}
  | .functionStubs => r.functionStubs.stubs = {}
  | .streamExecutor => r.streamLoads.executor.IsIdle
  | .routineExecutor => r.routineLoads.executor.IsIdle
  | .orphanTracker t => a.bound ≠ some t
  | .allocationHook h => ¬ a.hooks.isActive h
  | .chunkAllocator => r.memory.chunks.parked = []
  | .threadShares | .cgroups | .masterInfo | .loadPaths | .tmpFiles | .symbols | .brokers
  | .smallFiles | .storagePolicies | .spill | .pageCache | .segmentLoader | .heartbeatFlags => True

end Subsystem

/-! ## What a shutdown brings about -/

theorem ThreadPool.isStopped_stop {τ : Type} (p : ThreadPool τ) : p.stop.IsStopped :=
  ⟨rfl, rfl, rfl⟩

namespace DownloadCache

variable {α : Type} {d : DownloadCache α}

theorem isClosed_close (d : DownloadCache α) : d.close.IsClosed := by
  refine ⟨rfl, fun k hk => ?_⟩
  simp only [close, Crew.closeToken, Crew.onToken, List.getElem?_modify_eq,
    Option.map_eq_map, Option.map_eq_some_iff] at hk
  obtain ⟨k', -, rfl⟩ := hk
  exact ⟨rfl, rfl⟩

/-- The pool's own shutdown does not open the token again. -/
theorem IsClosed.stop (h : d.IsClosed) : { d with crew := d.crew.stop }.IsClosed := by
  refine ⟨h.buffer, fun k hk => ?_⟩
  simp only [Crew.stop, List.getElem?_mapIdx, Option.map_eq_some_iff] at hk
  obtain ⟨k', hk', rfl⟩ := hk
  obtain ⟨hclosed, hpending⟩ := h.token k' hk'
  split
  · exact ⟨hclosed, rfl⟩
  · exact ⟨hclosed, hpending⟩

end DownloadCache

theorem Scanner.isStopped_stop {α : Type} (s : Scanner α) : s.stop.IsStopped := by
  rintro pools hpools kind
  cases hs : s.pools with
  | none => simp [stop, onPool, hs] at hpools
  | some p =>
    simp only [stop, onPool, hs, Option.map_some, Option.some.injEq] at hpools
    subst hpools
    cases kind with
    | «local» => exact p.onDisk.pool.isStopped_stop
    | remote => exact p.remote.pool.isStopped_stop

namespace StreamLoads

variable {ρ γ : Type} {s s' s'' : StreamLoads ρ}

/-- Only pipes and loads have changed. -/
def Recorded (s s' : StreamLoads ρ) : Prop := ∃ pipes loads, s' = { s with pipes, loads }

theorem Recorded.refl (s : StreamLoads ρ) : s.Recorded s := ⟨_, _, rfl⟩

theorem Recorded.trans (h : s.Recorded s') (h' : s'.Recorded s'') : s.Recorded s'' := by
  obtain ⟨_, _, rfl⟩ := h
  obtain ⟨_, _, rfl⟩ := h'
  exact ⟨_, _, rfl⟩

theorem Recorded.registeredPipes (h : s.Recorded s') : s'.registeredPipes = s.registeredPipes := by
  obtain ⟨_, _, rfl⟩ := h
  rfl

theorem Recorded.registered (h : s.Recorded s') : s'.registered = s.registered := by
  obtain ⟨_, _, rfl⟩ := h
  rfl

theorem Recorded.executor (h : s.Recorded s') : s'.executor = s.executor := by
  obtain ⟨_, _, rfl⟩ := h
  rfl

theorem Recorded.foldl {f : StreamLoads ρ → γ → StreamLoads ρ}
    (hf : ∀ (s : StreamLoads ρ) (x : γ), s.Recorded (f s x)) :
    ∀ (l : List γ) (s : StreamLoads ρ), s.Recorded (l.foldl f s)
  | [], s => .refl s
  | x :: l, s => (hf s x).trans (Recorded.foldl hf l (f s x))

theorem recorded_cancelSink (s : StreamLoads ρ) (l : LoadId) (reason : String) :
    s.Recorded (s.cancelSink l reason) := by
  unfold cancelSink
  split
  · exact ⟨_, _, rfl⟩
  · exact .refl s

theorem recorded_conclude (s : StreamLoads ρ) (l : LoadId) (e : PlanEnd) :
    s.Recorded (s.conclude l e).1 := by
  cases e with
  | panicked => exact .refl s
  | succeeded => exact ⟨_, _, rfl⟩
  | failed f => exact (s.recorded_cancelSink l _).trans ⟨_, _, rfl⟩

theorem recorded_closePipes (s : StreamLoads ρ) :
    Recorded { s with registeredPipes := {} } s.closePipes :=
  Recorded.foldl (fun _ _ => ⟨_, _, rfl⟩) _ _

theorem recorded_close (s : StreamLoads ρ) : Recorded { s with registered := {} } s.close :=
  Recorded.foldl
    (fun (s : StreamLoads ρ) l => (s.recorded_cancelSink l closing).trans ⟨_, _, rfl⟩) _ _

theorem recorded_join (fate : ρ → PlanEnd) (s : StreamLoads ρ) :
    Recorded { s with executor := { threads := s.executor.threads } } (s.join fate).1 :=
  List.foldlRecOn
    (motive := fun (p : StreamLoads ρ × Log) =>
      Recorded { s with executor := { threads := s.executor.threads } } p.1)
    _ _ (Recorded.refl _) fun p hp job _ =>
      Recorded.trans hp (p.1.recorded_conclude job.1 (fate job.2))

theorem isIdle_join (fate : ρ → PlanEnd) (s : StreamLoads ρ) : (s.join fate).1.executor.IsIdle := by
  rw [(s.recorded_join fate).executor]
  exact ⟨rfl, rfl⟩

end StreamLoads

namespace RoutineLoads

variable {ρ : Type}

theorem executor_conclude (r : RoutineLoads ρ) (id : UniqueId) (e : PlanEnd) :
    (r.conclude id e).1.executor = r.executor := by
  cases e <;> rfl

theorem isIdle_join (fate : ρ → PlanEnd) (r : RoutineLoads ρ) :
    (r.join fate).1.executor.IsIdle := by
  have hjoin : (r.join fate).1.executor = { threads := r.executor.threads } :=
    List.foldlRecOn
      (motive := fun (p : RoutineLoads ρ × Log) => p.1.executor = { threads := r.executor.threads })
      _ _ rfl fun p hp job _ => (p.1.executor_conclude job.1 (fate job.2)).trans hp
  rw [hjoin]
  exact ⟨rfl, rfl⟩

end RoutineLoads

theorem Accounts.unbind_ne (a : Accounts) (t : TrackerId) : (a.unbind t).bound ≠ some t := by
  simp only [unbind, Binding.unbind]
  split
  · exact nofun
  · assumption

namespace Subsystem

variable {s : Subsystem} {r : Resources} {a : Accounts}

/-- After its shutdown, a subsystem `IsDown`. -/
theorem isDown_shutDown (s : Subsystem) (r : Resources) (a : Accounts) :
    s.IsDown (s.shutDown r a).1 (s.shutDown r a).2.1 := by
  cases s with
  | resultBuffers => exact ⟨rfl, rfl⟩
  | sendBatchPool => exact ThreadPool.isStopped_stop _
  | downloadPool => exact ThreadPool.isStopped_stop _
  | downloadCache => exact r.downloads.isClosed_close
  | pipeline => exact ⟨rfl, rfl, rfl⟩
  | scanner => exact r.scanner.isStopped_stop
  | loadPipes => exact r.streamLoads.recorded_closePipes.registeredPipes
  | streamLoads => exact r.streamLoads.recorded_close.registered
  | streamExecutor => exact r.streamLoads.isIdle_join fun _ => .succeeded
  | routineExecutor => exact r.routineLoads.isIdle_join fun _ => .succeeded
  | orphanTracker t => exact a.unbind_ne t
  | allocationHook h => exact fun hj => ((a.hooks.isActive_uninstall h a.trackers h).1 hj).2 rfl
  | chunkAllocator => exact r.memory.chunks.parked_releaseReserved a.trackers
  | scanContexts | receivers | resultQueues | backendClients | frontendClients | brokerClients
  | fragments | resultCache | loadChannels | internalStubs | functionStubs => exact rfl
  | _ => exact trivial

/-! ## What the shutdowns of others leave -/

/-- The registries of pipes and of loads and the executor share one part. -/
theorem registeredPipes_shutDown (hpipes : r.streamLoads.registeredPipes = {}) (s' : Subsystem) :
    (s'.shutDown r a).1.streamLoads.registeredPipes = {} := by
  cases s' with
  | loadPipes => exact isDown_shutDown .loadPipes r a
  | streamLoads => exact r.streamLoads.recorded_close.registeredPipes.trans hpipes
  | streamExecutor =>
    exact (r.streamLoads.recorded_join fun _ => .succeeded).registeredPipes.trans hpipes
  | _ => exact hpipes

theorem registered_shutDown (hloads : r.streamLoads.registered = {}) (s' : Subsystem) :
    (s'.shutDown r a).1.streamLoads.registered = {} := by
  cases s' with
  | streamLoads => exact isDown_shutDown .streamLoads r a
  | loadPipes => exact r.streamLoads.recorded_closePipes.registered.trans hloads
  | streamExecutor =>
    exact (r.streamLoads.recorded_join fun _ => .succeeded).registered.trans hloads
  | _ => exact hloads

theorem isIdle_shutDown (hidle : r.streamLoads.executor.IsIdle) (s' : Subsystem) :
    (s'.shutDown r a).1.streamLoads.executor.IsIdle := by
  cases s' with
  | streamExecutor => exact isDown_shutDown .streamExecutor r a
  | loadPipes => exact r.streamLoads.recorded_closePipes.executor.symm ▸ hidle
  | streamLoads => exact r.streamLoads.recorded_close.executor.symm ▸ hidle
  | _ => exact hidle

theorem isClosed_shutDown (hclosed : r.downloads.IsClosed) (s' : Subsystem) :
    (s'.shutDown r a).1.downloads.IsClosed := by
  cases s' with
  | downloadCache => exact r.downloads.isClosed_close
  | downloadPool => exact hclosed.stop
  | _ => exact hclosed

theorem bound_shutDown {t : TrackerId} (hbound : a.bound ≠ some t) (s' : Subsystem) :
    (s'.shutDown r a).2.1.bound ≠ some t := by
  cases s' with
  | orphanTracker u =>
    simp only [shutDown, Accounts.unbind, Binding.unbind]
    split
    · exact nofun
    · exact hbound
  | _ => exact hbound

theorem isActive_shutDown {h : HookId} (hended : ¬ a.hooks.isActive h) (s' : Subsystem) :
    ¬ (s'.shutDown r a).2.1.hooks.isActive h := by
  cases s' with
  | allocationHook j =>
    exact fun hactive => hended ((a.hooks.isActive_uninstall j a.trackers h).1 hactive).1
  | _ => exact hended

/-- What is down stays down, whatever else is shut down. -/
theorem IsDown.kept (h : s.IsDown r a) (s' : Subsystem) :
    s.IsDown (s'.shutDown r a).1 (s'.shutDown r a).2.1 := by
  rcases eq_or_ne s s' with rfl | hne
  · exact isDown_shutDown s r a
  · cases s with
    | loadPipes => exact registeredPipes_shutDown h s'
    | streamLoads => exact registered_shutDown h s'
    | streamExecutor => exact isIdle_shutDown h s'
    | downloadCache => exact isClosed_shutDown h s'
    | orphanTracker t => exact bound_shutDown h s'
    | allocationHook j => exact isActive_shutDown h s'
    | threadShares | cgroups | masterInfo | loadPaths | tmpFiles | symbols | brokers | smallFiles
    | storagePolicies | spill | pageCache | segmentLoader | heartbeatFlags => exact trivial
    | _ =>
      simp only [IsDown] at h ⊢
      cases s' <;> first | exact absurd rfl hne | exact h

end Subsystem

end QueryHost
