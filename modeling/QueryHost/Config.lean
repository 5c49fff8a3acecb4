import QueryHost.Toml.Document

/-!
# Configuration

The settings of the host with their defaults, read from a TOML document. Keys that no setting has
are ignored. A section is a table, or an array that gives its settings by position; a setting that
is absent has its default, and one of the wrong type or out of range makes the document unusable.
-/

namespace QueryHost

structure MemorySettings where
  memLimit : String := "90%"
  pageCacheLimit : String := "20%"
  indexPagePercentage : Nat := 10
  pageCacheShards : Nat := 16
  minBufferSize : Int := 1024
  chunkReservedLimit : String := "2147483648"
  minChunkReserved : Int := 1024
  enableAllocHook : Bool := true
  minFileDescriptors : Nat := 60000
  deriving DecidableEq, Repr

structure ThreadSettings where
  sendBatchThreads : Nat := 64
  sendBatchQueue : Nat := 102400
  downloadThreads : Nat := 48
  downloadQueue : Nat := 102400
  downloadBuffer : Nat := 10485760
  pipelineExecutors : Int := 0
  scannerThreads : Nat := 48
  scannerQueue : Nat := 102400
  remoteScannerThreads : Nat := 48
  idleTimeoutMs : Nat := 60000
  deriving DecidableEq, Repr

structure ClientSettings where
  maxPerHost : Nat := 10
  deriving DecidableEq, Repr

structure ResultCacheSettings where
  maxSizeMb : Nat := 256
  elasticitySizeMb : Nat := 128
  deriving DecidableEq, Repr

structure LoadSettings where
  smallFileDir : String := "lib/small_file"
  cgroupsPath : String := ""
  memoryPercentage : Nat := 50
  routineThreads : Nat := 10
  streamThreads : Nat := 4
  deriving DecidableEq, Repr

structure Config where
  logLevel : String := "info"
  logFilter : Option String := none
  storagePaths : List String := []
  memory : MemorySettings := {}
  threads : ThreadSettings := {}
  client : ClientSettings := {}
  resultCache : ResultCacheSettings := {}
  load : LoadSettings := {}
  deriving DecidableEq, Repr

/-- The number of pipeline executors that is configured; none leaves it to the machine. -/
def ThreadSettings.executors? (t : ThreadSettings) : Option Nat :=
  if 0 < t.pipelineExecutors then some t.pipelineExecutors.toNat else none

/-- The filter of log lines: the configured one, or the level. The verbose levels are meant for the
host's own lines only. -/
def Config.tracingFilter (c : Config) : String :=
  match c.logFilter with
  | some filter => filter
  | none =>
    if c.logLevel = "debug" ∨ c.logLevel = "trace" then "info,novarocks_env=" ++ c.logLevel
    else c.logLevel

/-! ## Settings of a document -/

/-- What one type of setting accepts. -/
abbrev Setting (α : Type) := Toml.Value → Option α

namespace Setting

open Toml

def text : Setting String
  | .text s => some s
  | _ => none

def optionalText : Setting (Option String) := fun v =>
  (text v).map some

def flag : Setting Bool
  | .boolean b => some b
  | _ => none

def integer (low high : Int) : Setting Int
  | .integer n => if low ≤ n ∧ n ≤ high then some n else none
  | _ => none

/-- A count of `bits` bits. -/
def count (bits : Nat) : Setting Nat := fun v =>
  (integer 0 (Nat.pow 2 bits - 1) v).map Int.toNat

def texts : Setting (List String)
  | .array vs => vs.mapM text
  | _ => none

/-- The settings of a section by name. A date has none of them. -/
def entries (names : List String) : Value → Option Entries
  | .table _ es => some es
  | .array vs => some (names.zip vs)
  | .tables ts => some (names.zip (ts.map (.table .header ·)))
  | .moment => some []
  | _ => none

/-- The setting `name`, or its default if it is absent. -/
def get {α : Type} (setting : Setting α) (es : Entries) (name : String) (absent : α) : Option α :=
  match es.get? name with
  | none => some absent
  | some v => setting v

/-- A section by its name, or its defaults if it is absent. -/
def nested {α : Type} (names : List String) (ofEntries : Entries → Option α) : Setting α :=
  fun v => (entries names v).bind ofEntries

end Setting

open Toml Setting

namespace MemorySettings

def names : List String :=
  ["mem_limit", "storage_page_cache_limit", "index_page_cache_percentage",
    "storage_page_cache_shard_size", "min_buffer_size", "chunk_reserved_bytes_limit",
    "min_chunk_reserved_bytes", "enable_alloc_hook", "min_file_descriptor_number"]

def ofEntries (es : Entries) : Option MemorySettings := do
  let d : MemorySettings := {}
  return {
    memLimit := ← text.get es "mem_limit" d.memLimit
    pageCacheLimit := ← text.get es "storage_page_cache_limit" d.pageCacheLimit
    indexPagePercentage := ← (count 32).get es "index_page_cache_percentage" d.indexPagePercentage
    pageCacheShards := ← (count 32).get es "storage_page_cache_shard_size" d.pageCacheShards
    minBufferSize := ← (integer int64Min int64Max).get es "min_buffer_size" d.minBufferSize
    chunkReservedLimit := ← text.get es "chunk_reserved_bytes_limit" d.chunkReservedLimit
    minChunkReserved :=
      ← (integer int64Min int64Max).get es "min_chunk_reserved_bytes" d.minChunkReserved
    enableAllocHook := ← flag.get es "enable_alloc_hook" d.enableAllocHook
    minFileDescriptors := ← (count 64).get es "min_file_descriptor_number" d.minFileDescriptors }

def toEntries (m : MemorySettings) : Entries :=
  names.zip [.text m.memLimit, .text m.pageCacheLimit, .integer m.indexPagePercentage,
    .integer m.pageCacheShards, .integer m.minBufferSize, .text m.chunkReservedLimit,
    .integer m.minChunkReserved, .boolean m.enableAllocHook, .integer m.minFileDescriptors]

end MemorySettings

namespace ThreadSettings

def names : List String :=
  ["send_batch_thread_pool_thread_num", "send_batch_thread_pool_queue_size",
    "download_cache_thread_pool_thread_num", "download_cache_thread_pool_queue_size",
    "download_cache_buffer_size", "pipeline_executor_size", "scanner_thread_pool_thread_num",
    "scanner_thread_pool_queue_size", "remote_scanner_thread_pool_thread_num", "idle_timeout_ms"]

def ofEntries (es : Entries) : Option ThreadSettings := do
  let d : ThreadSettings := {}
  return {
    sendBatchThreads := ← (count 64).get es "send_batch_thread_pool_thread_num" d.sendBatchThreads
    sendBatchQueue := ← (count 64).get es "send_batch_thread_pool_queue_size" d.sendBatchQueue
    downloadThreads := ← (count 64).get es "download_cache_thread_pool_thread_num" d.downloadThreads
    downloadQueue := ← (count 64).get es "download_cache_thread_pool_queue_size" d.downloadQueue
    downloadBuffer := ← (count 64).get es "download_cache_buffer_size" d.downloadBuffer
    pipelineExecutors :=
      ← (integer (-2147483648) 2147483647).get es "pipeline_executor_size" d.pipelineExecutors
    scannerThreads := ← (count 64).get es "scanner_thread_pool_thread_num" d.scannerThreads
    scannerQueue := ← (count 64).get es "scanner_thread_pool_queue_size" d.scannerQueue
    remoteScannerThreads :=
      ← (count 64).get es "remote_scanner_thread_pool_thread_num" d.remoteScannerThreads
    idleTimeoutMs := ← (count 64).get es "idle_timeout_ms" d.idleTimeoutMs }

def toEntries (t : ThreadSettings) : Entries :=
  let settings : List Int := [t.sendBatchThreads, t.sendBatchQueue, t.downloadThreads,
    t.downloadQueue, t.downloadBuffer, t.pipelineExecutors, t.scannerThreads, t.scannerQueue,
    t.remoteScannerThreads, t.idleTimeoutMs]
  names.zip (settings.map .integer)

end ThreadSettings

namespace ClientSettings

def names : List String := ["max_client_cache_size_per_host"]

def ofEntries (es : Entries) : Option ClientSettings := do
  let d : ClientSettings := {}
  return { maxPerHost := ← (count 64).get es "max_client_cache_size_per_host" d.maxPerHost }

def toEntries (c : ClientSettings) : Entries := names.zip [.integer c.maxPerHost]

end ClientSettings

namespace ResultCacheSettings

def names : List String := ["query_cache_max_size_mb", "query_cache_elasticity_size_mb"]

def ofEntries (es : Entries) : Option ResultCacheSettings := do
  let d : ResultCacheSettings := {}
  return {
    maxSizeMb := ← (count 64).get es "query_cache_max_size_mb" d.maxSizeMb
    elasticitySizeMb := ← (count 64).get es "query_cache_elasticity_size_mb" d.elasticitySizeMb }

def toEntries (r : ResultCacheSettings) : Entries :=
  names.zip [.integer r.maxSizeMb, .integer r.elasticitySizeMb]

end ResultCacheSettings

namespace LoadSettings

def names : List String :=
  ["small_file_dir", "cgroups_path", "load_channel_memory_percentage",
    "routine_load_thread_pool_size", "stream_load_thread_pool_size"]

def ofEntries (es : Entries) : Option LoadSettings := do
  let d : LoadSettings := {}
  return {
    smallFileDir := ← text.get es "small_file_dir" d.smallFileDir
    cgroupsPath := ← text.get es "cgroups_path" d.cgroupsPath
    memoryPercentage := ← (count 32).get es "load_channel_memory_percentage" d.memoryPercentage
    routineThreads := ← (count 64).get es "routine_load_thread_pool_size" d.routineThreads
    streamThreads := ← (count 64).get es "stream_load_thread_pool_size" d.streamThreads }

def toEntries (l : LoadSettings) : Entries :=
  names.zip [.text l.smallFileDir, .text l.cgroupsPath, .integer l.memoryPercentage,
    .integer l.routineThreads, .integer l.streamThreads]

end LoadSettings

namespace Config

def ofEntries (es : Entries) : Option Config := do
  let storage : Setting (List String) :=
    nested ["paths"] fun es => texts.get es "paths" []
  return {
    logLevel := ← text.get es "log_level" "info"
    logFilter := ← optionalText.get es "log_filter" none
    storagePaths := ← storage.get es "storage" []
    memory := ← (nested MemorySettings.names MemorySettings.ofEntries).get es "memory" {}
    threads := ← (nested ThreadSettings.names ThreadSettings.ofEntries).get es "thread_pool" {}
    client := ← (nested ClientSettings.names ClientSettings.ofEntries).get es "client" {}
    resultCache :=
      ← (nested ResultCacheSettings.names ResultCacheSettings.ofEntries).get es "cache" {}
    load := ← (nested LoadSettings.names LoadSettings.ofEntries).get es "load" {} }

/-- The configuration of a document. -/
def ofToml? (text : String) : Option Config := do
  ofEntries (← Document.read? text)

/-- A document of the configuration, with every setting. -/
def toEntries (c : Config) : Entries :=
  let part (es : Entries) : Value := .table .header es
  ("log_level", .text c.logLevel)
    :: c.logFilter.toList.map (fun f => ("log_filter", Value.text f)) ++
    [("storage", part [("paths", .array (c.storagePaths.map .text))]),
      ("memory", part c.memory.toEntries), ("thread_pool", part c.threads.toEntries),
      ("client", part c.client.toEntries), ("cache", part c.resultCache.toEntries),
      ("load", part c.load.toEntries)]

end Config

end QueryHost
