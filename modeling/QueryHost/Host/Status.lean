import QueryHost.Host.Environment
import QueryHost.Wire.Encode

/-!
# The status of a host

What a host tells about its configuration, and, once it is up, about itself.
-/

namespace QueryHost

open Wire

namespace Status

def label (ts : Trackers) (t : TrackerId) : Option String := (ts.node? t).map (·.label)

/-- A pool by its name, its bounds, and how many tasks are queued. -/
def pool {α : Type} (c : Crew α) : Value :=
  let s := c.pool.shape
  row (s.name, s.minThreads, s.maxThreads, s.maxQueue, c.pool.queue.length)

/-- A tracker by its label and its limit. -/
def limit (ts : Trackers) (t : TrackerId) : Option Value :=
  (ts.node? t).map fun n => row (n.label, n.limit)

end Status

open Status

/-- All settings, with what follows from them. The number of executors may be that of the cores. -/
def Config.status (c : Config) : Value :=
  let v := (record "log_filter" ()).merge (.record (Wire.ofEntries c.toEntries))
  let threads := (v.field "thread_pool").merge
    (record "actual_pipeline_executors" (c.threads.executors?.elim (encode "cores") encode))
  v.merge (record "tracing_filter thread_pool" (c.tracingFilter, threads))

def MemoryEnv.status (m : MemoryEnv) (ts : Trackers) : Value :=
  record "page_cache index_percentage page_split segments chunk_limit chunk_tracker orphan hook"
    (m.pageCache.capacity, m.pageCache.indexPercentage,
      [.data, .index].map (fun t => (m.pageCache.stats t).capacity), m.segments.cache.capacity,
      m.chunks.reserveLimit, label ts m.chunks.tracker, label ts m.orphan, m.hook.isSome)

/-- The registries that hold nothing. -/
def Resources.idle (r : Resources) : List Bool :=
  [r.scanContexts.size, r.resultBuffers.size, r.streamLoads.size, r.internalStubs.size,
    r.functionStubs.size].map (· == 0)

def Resources.status (r : Resources) (ts : Trackers) : Value :=
  .record (
    fields "mem pools download_buffer executors scanner_depth"
      (r.memory.status ts, [pool r.sendBatch, pool r.downloads.crew], r.downloads.bufferSize,
        r.pipeline.executors, [.local, .remote].map r.scanner.depth)
    ++ fields "clients_per_host result_cache load_limit cgroups"
      ([r.backendClients, r.frontendClients, r.brokerClients].map (·.maxPerHost),
        [r.resultCache.maxSize, r.resultCache.elasticity],
        r.loadChannels.tracker.bind (limit ts), r.cgroups.isEnabled)
    ++ fields "small_files small_dir tmp spill load_roots error_log"
      (r.smallFiles.files.size, r.smallFiles.directory, r.tmpFiles.directories,
        r.spill.directories, r.loadPaths.roots, r.loadPaths.errorLog?)
    ++ fields "broker_id fragments flags empty master threads_quota_positive bfd_symbolize"
      (r.brokers.clientId.isSome, r.fragments.running, r.heartbeat.flags, r.idle,
        r.masterInfo.epoch, decide (0 < r.threadShares.systemQuota), r.symbols.isElf))

end QueryHost
