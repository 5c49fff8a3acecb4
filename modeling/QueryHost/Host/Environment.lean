import QueryHost.Host.Building
import QueryHost.Host.Shutdown

/-!
# The environment

The life of a host: it is built by `init` for a list of stores, gives access to its resources, and
is ended by `destroy`, once and for all. A construction that fails leaves nothing behind but what it
has done to the disk, and can be tried again.
-/

namespace QueryHost

inductive Phase where
  | uninitialized | initialized | destroyed
  deriving DecidableEq, Repr

def Phase.text : Phase → String
  | .uninitialized => "Uninitialized"
  | .initialized => "Initialized"
  | .destroyed => "Destroyed"

structure Environment where
  config : Config
  memory : MemInfo
  capability : HookCapability
  phase : Phase := .uninitialized
  stores : List String := []
  storeIndex : Assoc String Nat := {}
  metrics : Metrics Gauge := {}
  resources : Option Resources := none
  scope : Scope Subsystem := {}
  /-- What the last release has left of the parts, for those who still hold some of them. -/
  remains : Option Resources := none

/-- The last position of each store in the list. -/
def indexStores (stores : List String) : Assoc String Nat :=
  stores.zipIdx.foldl (fun m s => m.put s.1 s.2) {}

namespace Environment

def new (config : Config) (memory : MemInfo) : Environment :=
  { config, memory, capability := .ofPlainBuild config.memory.enableAllocHook }

def names (e : Environment) : List String := e.scope.names

def getResources (e : Environment) : Except Failure Resources :=
  match e.phase, e.resources with
  | .initialized, some r => .ok r
  | .destroyed, _ => .error .alreadyDestroyed
  | _, _ => .error .notInitialized

/-- An environment whose construction has failed, and the scene after everything was released. -/
def abandon (e : Environment) (site : Site) (f : Failure) : Environment × Scene :=
  let log := site.scene.log ++ [.error ("exec env init failed: " ++ f.message)]
    ++ site.metrics.deregistrationLog
  let (parts, scene) := releaseAll [] site.parts { site.scene with log } site.scope.shutdownOrder
  ({ e with metrics := site.metrics.deregisterAll, remains := some parts }, scene)

/-- Builds everything for the given stores. On an environment that is initialized this does
nothing. -/
def init (e : Environment) (m : Machine) (stores : List String) (s : Scene) :
    Environment × Scene × Except Failure Unit :=
  match e.phase with
  | .initialized => (e, s, .ok ())
  | .destroyed => (e, s, .error .alreadyDestroyed)
  | .uninitialized =>
    match checkAllocationSizes e.config.memory.minBufferSize e.config.memory.minChunkReserved with
    | .error f => (e, s, .error f)
    | .ok () =>
      let b : Blueprint := ⟨e.config, e.memory, e.capability, m, stores⟩
      match b.build.run.run { scene := s, parts := b.parts, metrics := e.metrics } with
      | (.error f, site) =>
        let (e, s) := e.abandon site f
        (e, s, .error f)
      | (.ok (), site) =>
        let line := .info ("exec env initialized: " ++ toString site.scope.entries.length
          ++ " subsystems over " ++ toString stores.length ++ " store paths")
        ({ e with
            phase := .initialized
            stores
            storeIndex := indexStores stores
            metrics := site.metrics
            resources := some site.parts
            scope := site.scope },
          { site.scene with log := site.scene.log ++ [line] }, .ok ())

/-- Releases everything that `init` has built, the last adopted first. `held` are the trackers that
others still hold. -/
def destroy (e : Environment) (held : List TrackerId) (s : Scene) : Environment × Scene :=
  match e.phase, e.resources with
  | .initialized, some parts =>
    let (parts, s) := releaseAll held parts
      { s with log := s.log ++ e.metrics.deregistrationLog } e.scope.shutdownOrder
    let line := .info ("exec env destroyed: released " ++ toString e.scope.entries.length
      ++ " subsystems")
    ({ e with
        phase := .destroyed
        metrics := e.metrics.deregisterAll
        resources := none
        scope := {}
        remains := some parts },
      { s with log := s.log ++ [line] })
  | _, _ => (e, s)

/-! ## Metrics -/

def measure (e : Environment) (a : Accounts) (g : Gauge) : Int :=
  match e.resources with
  | none => 0
  | some r =>
    match g with
    | .sendBatchThreads => r.sendBatch.pool.threads
    | .sendBatchQueue => r.sendBatch.pool.queue.length
    | .downloadThreads => r.downloads.crew.pool.threads
    | .downloadQueue => r.downloads.crew.pool.queue.length
    | .scannerQueue => r.scanner.depth .local
    | .orphanBytes => a.trackers.current r.memory.orphan

/-- Charges the orphan tracker with what the allocator has counted. -/
def syncHook (e : Environment) (a : Accounts) : Accounts :=
  match e.resources.bind (·.memory.hook) with
  | none => a
  | some h => a.sync h

def gather (e : Environment) (s : Scene) : Scene × String :=
  let accounts := e.syncHook s.accounts
  ({ s with accounts }, e.metrics.gather (e.measure accounts))

end Environment

end QueryHost
