import QueryHost.Cache.Chunk
import QueryHost.Cache.Page
import QueryHost.Cache.Result
import QueryHost.Cache.Segment
import QueryHost.Client.Idle
import QueryHost.Cluster.Heartbeat
import QueryHost.Cluster.StoragePolicy
import QueryHost.Load.Channels
import QueryHost.Load.Routine
import QueryHost.Machine.Cgroups
import QueryHost.Machine.Facts
import QueryHost.Pipeline.Scheduler
import QueryHost.Query.Fragments
import QueryHost.Query.Receivers
import QueryHost.Query.ResultBuffers
import QueryHost.Query.ResultQueues
import QueryHost.Query.ScanContexts
import QueryHost.Query.ThreadShares
import QueryHost.Storage.LoadPaths
import QueryHost.Storage.SmallFiles
import QueryHost.Storage.Spill
import QueryHost.Storage.TmpFiles
import QueryHost.Threads.Download
import QueryHost.Threads.Rest
import QueryHost.Threads.Scanner

/-!
# Resources

All parts of a host.
-/

namespace QueryHost

/-- A task of the host is known by a name. -/
abbrev Chore := String

/-- The part of the host that divides memory: the tracker of what nobody else is charged for, the
hook of the allocator, the caches of pages and segments, and the allocator of chunks. -/
structure MemoryEnv where
  orphan : TrackerId
  hook : Option HookId
  pageCache : PageCache
  segments : SegmentLoader
  chunks : ChunkAllocator

structure Resources where
  scanContexts : ScanContexts := {}
  receivers : Receivers := {}
  resultBuffers : ResultBuffers := {}
  resultQueues : ResultQueues := {}
  backendClients : IdleClients
  frontendClients : IdleClients
  brokerClients : IdleClients
  threadShares : ThreadShares
  sendBatch : Crew Chore
  downloads : DownloadCache Chore
  pipeline : Scheduler Chore
  scanner : Scanner Chore
  cgroups : Cgroups
  fragments : Fragments := {}
  resultCache : ResultCache
  masterInfo : MasterInfo := {}
  loadPaths : LoadPaths
  tmpFiles : TmpFiles
  symbols : Symbols
  brokers : Brokers := {}
  loadChannels : LoadChannels
  streamLoads : StreamLoads Chore
  routineLoads : RoutineLoads Chore
  internalStubs : Stubs := {}
  functionStubs : Stubs := {}
  smallFiles : SmallFiles
  storagePolicies : StoragePolicies := {}
  spill : Spill
  heartbeat : HeartbeatFlags := {}
  memory : MemoryEnv

/-! ## Work for a host that has nothing else to do -/

namespace Resources

def atOnce : Chore → Option Ending := fun _ => some .returned

/-- A task ends with its first slice. -/
def oneSlice : Scheduler.Behaviour Chore :=
  ⟨fun c => (c, .finished), fun _ => true, id⟩

/-- Has the pipeline execute tasks; gives the slices in their order. -/
def runPipeline (r : Resources) (chores : List Chore) :
    Except Failure (Resources × List Chore × Log) := do
  let s ← chores.foldlM Scheduler.submit r.pipeline
  let (s, slices, log) := s.settle oneSlice (4 * chores.length + 4)
  return ({ r with pipeline := s }, slices, log)

/-- Has a scan done; gives the scans that have ended. `refusal` is what the system says to another
thread. -/
def runScan (r : Resources) (refusal : Option IoFault) (kind : ScanKind) (chore : Chore) :
    Except Failure (Resources × List (Ended Chore) × Log) := do
  let (scanner, ended, log) := (← r.scanner.submit refusal kind chore).settle atOnce kind
  return ({ r with scanner }, ended, log)

/-- Has a download done. -/
def runDownload (r : Resources) (refusal : Option IoFault) (chore : Chore) :
    Except Failure (Resources × List (Ended Chore) × Log) := do
  let (downloads, ended, log) := (← r.downloads.submit refusal chore).settle atOnce fun _ => id
  return ({ r with downloads }, ended, log)

end Resources

end QueryHost
