import QueryHost.Host.Memory

/-!
# Building a host

The parts of a host are built in an order of their own, each adopted as soon as it is there, and
with the steps that may fail in between.
-/

namespace QueryHost.Blueprint

def adoptAll (l : List Subsystem) : Construction Unit := l.forM Construction.adopt

/-- Builds a pool and puts it in its place. -/
def buildPool (b : Blueprint) (shape : PoolShape) (s : Subsystem)
    (put : Crew Chore → Resources → Resources) : Construction Unit := do
  let crew ← Construction.ofExcept (Crew.build b.machine.refuses shape)
  Construction.report (ThreadPool.buildLog shape)
  Construction.place (put crew)
  Construction.adopt s

def buildSendBatch (b : Blueprint) : Construction Unit :=
  b.buildPool b.sendBatchShape .sendBatchPool fun crew r => { r with sendBatch := crew }

def buildDownloads (b : Blueprint) : Construction Unit := do
  b.buildPool b.downloadShape .downloadPool fun crew r =>
    { r with downloads := .new crew b.config.threads.downloadBuffer }
  Construction.adopt .downloadCache

def startPipeline (b : Blueprint) : Construction Unit := do
  Construction.adopt .pipeline
  let (pipeline, r) := b.parts.pipeline.start b.machine.refuses
  Construction.place fun r => { r with pipeline }
  Construction.report (← Construction.ofExcept r)

def readSymbols (b : Blueprint) : Construction Unit := do
  let d ← Construction.act Act.disk
  let symbols ← Construction.ofExcept (Symbols.inspect d b.machine.executable)
  Construction.place fun r => { r with symbols }
  Construction.adopt .symbols

/-- Registers the counters of the clients of a service. -/
def countClients (b : Blueprint) (service : String) (put : IdleClients → Resources → Resources) :
    Construction Unit := do
  let (clients, metrics, r) := b.idleClients.initMetrics (← get).metrics service
  modify fun site => { site with metrics }
  Construction.place (put clients)
  Construction.ofExcept r

def startResultBuffers (b : Blueprint) : Construction Unit := do
  let (resultBuffers, log) ← Construction.ofExcept (b.parts.resultBuffers.init b.machine.refuses)
  Construction.place fun r => { r with resultBuffers }
  Construction.report log

def enterCgroup (b : Blueprint) : Construction Unit := do
  let cgroups ← Construction.act b.parts.cgroups.init
  Construction.place fun r => { r with cgroups }

/-- The one failure that ends the process: loads have no place. -/
def prepareLoads (b : Blueprint) : Construction Unit :=
  tryCatch (Construction.act b.parts.loadPaths.init) fun f => do
    Construction.report [.error ("load path mgr init failed: " ++ f.message)]
    throw f.escalate

def nameBrokers (b : Blueprint) : Construction Unit := do
  let (brokers, log) := b.parts.brokers.init b.machine.hostname b.machine.process
  Construction.place fun r => { r with brokers }
  Construction.report log

def readSmallFiles (b : Blueprint) : Construction Unit := do
  let smallFiles ← Construction.act (b.parts.smallFiles.init md5Hex)
  Construction.place fun r => { r with smallFiles }

def buildScanner (b : Blueprint) : Construction Unit := do
  let r ← Construction.reporting (b.parts.scanner.init b.machine.refuses)
  let scanner ← Construction.ofExcept r
  Construction.place fun r => { r with scanner }

def openLoads (b : Blueprint) : Construction Unit := do
  let a ← Construction.act Act.accounts
  let (loadChannels, trackers, log) ←
    Construction.ofExcept (b.parts.loadChannels.init a.trackers b.memory.limit)
  Construction.act (Act.setAccounts { a with trackers })
  Construction.place fun r => { r with loadChannels }
  Construction.report log

def gauges : Construction Unit := do
  let worker (pool : String) := (pool ++ "_thread_num", pool ++ " worker threads")
  let queued (pool : String) := (pool ++ "_queue_size", pool ++ " queued tasks")
  [(worker "send_batch_thread_pool", Gauge.sendBatchThreads),
    (queued "send_batch_thread_pool", .sendBatchQueue),
    (worker "download_cache_thread_pool", .downloadThreads),
    (queued "download_cache_thread_pool", .downloadQueue),
    (("scanner_thread_pool_queue_size", "scanner thread pool queued tasks"), .scannerQueue),
    (("orphan_mem_tracker_consumption", "bytes charged to the Orphan mem tracker"),
      .orphanBytes)].forM
    fun g => Construction.gauge g.1.1 g.1.2 g.2

/-- Builds everything. -/
def build (b : Blueprint) : Construction Unit := do
  adoptAll [.scanContexts, .receivers, .resultBuffers, .resultQueues, .backendClients,
    .frontendClients, .brokerClients, .threadShares]
  b.buildSendBatch
  b.buildDownloads
  b.startPipeline
  adoptAll [.scanner, .cgroups, .fragments, .resultCache, .masterInfo, .loadPaths, .tmpFiles]
  b.readSymbols
  adoptAll [.brokers, .loadChannels, .loadPipes, .streamLoads, .internalStubs, .functionStubs,
    .streamExecutor, .routineExecutor, .smallFiles, .storagePolicies, .spill]
  b.countClients "backend" fun c r => { r with backendClients := c }
  b.countClients "frontend" fun c r => { r with frontendClients := c }
  b.countClients "broker" fun c r => { r with brokerClients := c }
  b.startResultBuffers
  b.enterCgroup
  b.prepareLoads
  b.nameBrokers
  b.readSmallFiles
  b.buildScanner
  b.buildMemory
  b.openLoads
  Construction.adopt .heartbeatFlags
  gauges

end QueryHost.Blueprint
