import QueryHost.Memory.AllocationHook

/-!
# Subsystems

The parts of the host that are shut down when it ends, by the names under which they are adopted.
-/

namespace QueryHost

inductive Subsystem where
  | scanContexts | receivers | resultBuffers | resultQueues
  | backendClients | frontendClients | brokerClients
  | threadShares | sendBatchPool | downloadPool | downloadCache | pipeline | scanner
  | cgroups | fragments | resultCache | masterInfo | loadPaths | tmpFiles | symbols | brokers
  | loadChannels | loadPipes | streamLoads | internalStubs | functionStubs
  | streamExecutor | routineExecutor | smallFiles | storagePolicies | spill
  | orphanTracker (tracker : TrackerId)
  | allocationHook (hook : HookId)
  | pageCache | segmentLoader | chunkAllocator | heartbeatFlags
  deriving DecidableEq, Repr

def Subsystem.name : Subsystem → String
  | .scanContexts => "external_scan_context_mgr"
  | .receivers => "data_stream_mgr"
  | .resultBuffers => "result_buffer_mgr"
  | .resultQueues => "result_queue_mgr"
  | .backendClients => "backend_client_cache"
  | .frontendClients => "frontend_client_cache"
  | .brokerClients => "broker_client_cache"
  | .threadShares => "thread_resource_mgr"
  | .sendBatchPool => "send_batch_thread_pool"
  | .downloadPool => "download_cache_thread_pool"
  | .downloadCache => "download_cache"
  | .pipeline => "pipeline_task_scheduler"
  | .scanner => "scanner_scheduler"
  | .cgroups => "cgroups_mgr"
  | .fragments => "fragment_mgr"
  | .resultCache => "result_cache"
  | .masterInfo => "master_info"
  | .loadPaths => "load_path_mgr"
  | .tmpFiles => "tmp_file_mgr"
  | .symbols => "bfd_parser"
  | .brokers => "broker_mgr"
  | .loadChannels => "load_channel_mgr"
  | .loadPipes => "load_stream_mgr"
  | .streamLoads => "new_load_stream_mgr"
  | .internalStubs => "internal_client_cache"
  | .functionStubs => "function_client_cache"
  | .streamExecutor => "stream_load_executor"
  | .routineExecutor => "routine_load_task_executor"
  | .smallFiles => "small_file_mgr"
  | .storagePolicies => "storage_policy_mgr"
  | .spill => "block_spill_mgr"
  | .orphanTracker _ => "orphan_mem_tracker"
  | .allocationHook _ => "alloc_hook"
  | .pageCache => "storage_page_cache"
  | .segmentLoader => "segment_loader"
  | .chunkAllocator => "chunk_allocator"
  | .heartbeatFlags => "heartbeat_flags"

/-- What happens to a subsystem. -/
inductive LifeEvent where
  | adopted (s : Subsystem)
  | shutDown (s : Subsystem)
  deriving DecidableEq, Repr

end QueryHost
