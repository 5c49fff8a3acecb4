import QueryHost.Config
import QueryHost.Host.Resources
import QueryHost.Machine.Facts

/-!
# Blueprints

What a host is built from, and its parts as they are made: no thread is started yet, no file is read
and no metric is registered.
-/

namespace QueryHost

structure Blueprint where
  config : Config
  memory : MemInfo
  capability : HookCapability
  machine : Machine
  stores : List String

/-- A number that depends on every character of a text. -/
def spread (s : String) : Nat := s.toList.foldl (fun h c => (31 * h + c.toNat) % word64Count) 7

def PageKey.spread (k : PageKey) : Nat := QueryHost.spread k.file + 31 * k.offset
def SegmentKey.spread (k : SegmentKey) : Nat := QueryHost.spread k.rowset + 31 * k.segment

namespace Blueprint

def storePaths (b : Blueprint) : List Path := b.stores.map Path.mk

def sendBatchShape (b : Blueprint) : PoolShape :=
  let t := b.config.threads
  ⟨"send_batch_thread_pool", t.sendBatchThreads, t.sendBatchThreads, t.sendBatchQueue⟩

def downloadShape (b : Blueprint) : PoolShape :=
  let t := b.config.threads
  ⟨"download_cache_thread_pool", 1, t.downloadThreads, t.downloadQueue⟩

def executors (b : Blueprint) : Nat :=
  match b.config.threads.executors? with
  | some n => n
  | none => b.machine.cores

def idleClients (b : Blueprint) : IdleClients :=
  { maxPerHost := b.config.client.maxPerHost }

/-- What stands for the memory environment until it is built. -/
def noMemory : MemoryEnv where
  orphan := 0
  hook := none
  pageCache := { capacity := 0, indexPercentage := 0, data := none, index := none }
  segments := .new 0 SegmentKey.spread
  chunks := .new 0 0

/-- The parts as they are made. -/
def parts (b : Blueprint) : Resources :=
  let load := b.config.load
  { backendClients := b.idleClients
    frontendClients := b.idleClients
    brokerClients := b.idleClients
    threadShares := .new b.machine.cores
    sendBatch.pool.shape := b.sendBatchShape
    downloads := .new { pool.shape := b.downloadShape } b.config.threads.downloadBuffer
    pipeline := .new b.executors
    scanner.settings := b.config.threads
    cgroups.path := load.cgroupsPath
    resultCache := .ofMegabytes b.config.resultCache.maxSizeMb b.config.resultCache.elasticitySizeMb
    loadPaths.stores := b.storePaths
    tmpFiles.stores := b.storePaths
    symbols := ⟨b.machine.executable, false⟩
    loadChannels := .new load.memoryPercentage
    streamLoads := .withThreads load.streamThreads
    routineLoads := .withThreads load.routineThreads
    smallFiles.directory := ⟨load.smallFileDir⟩
    spill.stores := b.storePaths
    memory := noMemory }

end Blueprint

end QueryHost
