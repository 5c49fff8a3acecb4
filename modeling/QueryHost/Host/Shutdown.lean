import QueryHost.Act
import QueryHost.Host.Resources
import QueryHost.Scope

/-!
# Shutdown

The shutdown of a subsystem stops what it has at work and lets go of what it holds. A release shuts
subsystems down one after the other. Whoever still holds one of them finds it as its shutdown has
left it.
-/

namespace QueryHost

/-- Shuts a subsystem down, with what is said of it. A shutdown waits for tasks that are under way,
which end well. The last ones have nothing to stop. -/
def Subsystem.shutDown (s : Subsystem) (r : Resources) (a : Accounts) :
    Resources × Accounts × Log :=
  match s with
  | .scanContexts => ({ r with scanContexts := r.scanContexts.shutdown }, a, [])
  | .receivers => ({ r with receivers := r.receivers.shutdown }, a, [])
  | .resultBuffers => ({ r with resultBuffers := r.resultBuffers.shutdown }, a, [])
  | .resultQueues => ({ r with resultQueues := r.resultQueues.shutdown }, a, [])
  | .backendClients => ({ r with backendClients := r.backendClients.shutdown }, a, [])
  | .frontendClients => ({ r with frontendClients := r.frontendClients.shutdown }, a, [])
  | .brokerClients => ({ r with brokerClients := r.brokerClients.shutdown }, a, [])
  | .sendBatchPool => ({ r with sendBatch := r.sendBatch.stop }, a, [])
  | .downloadPool => ({ r with downloads.crew := r.downloads.crew.stop }, a, [])
  | .downloadCache => ({ r with downloads := r.downloads.close }, a, [])
  | .pipeline => ({ r with pipeline := r.pipeline.stop }, a, [])
  | .scanner => ({ r with scanner := r.scanner.stop }, a, [])
  | .fragments =>
    let (after, log) := r.fragments.shutdown
    ({ r with fragments := after }, a, log)
  | .resultCache => ({ r with resultCache := r.resultCache.clear }, a, [])
  | .loadChannels => ({ r with loadChannels := r.loadChannels.close }, a, [])
  | .loadPipes => ({ r with streamLoads := r.streamLoads.closePipes }, a, [])
  | .streamLoads => ({ r with streamLoads := r.streamLoads.close }, a, [])
  | .internalStubs => ({ r with internalStubs := r.internalStubs.shutdown }, a, [])
  | .functionStubs => ({ r with functionStubs := r.functionStubs.shutdown }, a, [])
  | .streamExecutor =>
    let (after, log) := r.streamLoads.join fun _ => .succeeded
    ({ r with streamLoads := after }, a, log)
  | .routineExecutor =>
    let (after, log) := r.routineLoads.join fun _ => .succeeded
    ({ r with routineLoads := after }, a, log)
  | .orphanTracker t => (r, a.unbind t, [])
  | .allocationHook h =>
    let after := a.uninstall h
    (r, after, if a.hooks.counting && !after.hooks.counting then
      [⟨.debug, "allocation hook uninstalled"⟩] else [])
  | .chunkAllocator =>
    let (chunks, trackers) := r.memory.chunks.releaseReserved a.trackers
    ({ r with memory.chunks := chunks }, { a with trackers }, [])
  | .threadShares | .cgroups | .masterInfo | .loadPaths | .tmpFiles | .symbols | .brokers
  | .smallFiles | .storagePolicies | .spill | .pageCache | .segmentLoader | .heartbeatFlags =>
    (r, a, [])

/-- How many others hold the tracker of the orphans, itself or by a child that they keep alive, if
they hold the trackers of `held`. -/
def Subsystem.holders (held : List TrackerId) (a : Accounts) : Subsystem → Nat
  | .orphanTracker t => held.count t + (a.trackers.children held t).length
  | _ => 0

/-- Releases the subsystems in the order of their shutdown; gives what is left of the parts. `held`
are the trackers that others hold. -/
def releaseAll (held : List TrackerId) (r : Resources) (s : Scene) :
    List (ScopeEntry Subsystem) → Resources × Scene
  | [] => (r, s)
  | e :: rest =>
    let (r, accounts, lines) := e.subsystem.shutDown r s.accounts
    releaseAll held r
      { s with
        accounts
        log := s.log ++ lines ++ Scope.outstanding e.name (e.subsystem.holders held accounts)
          ++ [⟨.debug, "released subsystem " ++ e.name⟩]
        lives := s.lives ++ [.shutDown e.subsystem] } rest

end QueryHost
