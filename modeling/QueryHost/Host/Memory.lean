import QueryHost.Host.Blueprint
import QueryHost.Host.Construction
import QueryHost.Memory.Budget

/-!
# Building the memory environment

Each of the steps may fail, and the first failure ends the construction. On the way the directories
for temporary files and for spills are prepared.
-/

namespace QueryHost.Blueprint

def orphanLabel : String := "Orphan"

/-- Makes the orphan tracker and binds the thread to it. -/
def bindOrphan : Construction TrackerId := do
  let orphan ← Construction.act (Act.book (·.newRoot .global orphanLabel))
  let _ ← Construction.act (Act.book (·.bind (some orphan)))
  Construction.place fun r => { r with memory.orphan := orphan }
  Construction.adopt (.orphanTracker orphan)
  return orphan

/-- Nothing is said to fail where the hook stays away. -/
def installHook (b : Blueprint) (orphan : TrackerId) : Construction Unit := do
  let (hook, log) ← Construction.act (Act.book (·.install b.machine.refuses b.capability orphan))
  Construction.report log
  match hook with
  | none => return
  | some h =>
    Construction.report [⟨.debug, "allocation hook installed, accounting into " ++ orphanLabel⟩]
    Construction.place fun r => { r with memory.hook := some h }
    Construction.adopt (.allocationHook h)

def buildPageCache (b : Blueprint) : Construction Unit := do
  let settings := b.config.memory
  let budget ← Construction.ofExcept (pageCacheBudget settings.pageCacheLimit b.memory)
  Construction.report [budgetLine "storage page cache" budget.bytes settings.pageCacheLimit]
  let pageCache ← Construction.ofExcept (PageCache.new budget.bytes settings.indexPagePercentage
    settings.pageCacheShards fun _ => PageKey.spread)
  Construction.place fun r => { r with memory.pageCache := pageCache }
  Construction.adopt .pageCache

def buildSegments (b : Blueprint) : Construction Unit := do
  let (n, log) := descriptorLimit b.machine.descriptors b.config.memory.minFileDescriptors
  Construction.report (log ++ [.info ("segment cache capacity: " ++ toString (segmentCapacity n)
    ++ " (file descriptor limit " ++ toString n ++ ")")])
  Construction.place fun r =>
    { r with memory.segments := .new (segmentCapacity n) SegmentKey.spread }
  Construction.adopt .segmentLoader

def prepareTmpFiles (b : Blueprint) : Construction Unit := do
  let tmpFiles ← Construction.act b.parts.tmpFiles.init
  Construction.place fun r => { r with tmpFiles }

def buildChunks (b : Blueprint) (orphan : TrackerId) : Construction Unit := do
  let settings := b.config.memory
  Construction.ofExcept (checkPowerOfTwo "min_chunk_reserved_bytes" settings.minChunkReserved)
  let limit ← Construction.ofExcept
    (chunkReserve settings.chunkReservedLimit settings.minChunkReserved b.memory)
  Construction.report [budgetLine "chunk allocator reserved" limit settings.chunkReservedLimit]
  let tracker ← Construction.act (Act.book (·.newChild .global "ChunkAllocator" (-1) orphan))
  Construction.place fun r => { r with memory.chunks := .new limit tracker }
  Construction.adopt .chunkAllocator

def buildMemory (b : Blueprint) : Construction Unit := do
  let orphan ← bindOrphan
  b.installHook orphan
  Construction.ofExcept (checkPowerOfTwo "min_buffer_size" b.config.memory.minBufferSize)
  b.buildPageCache
  b.buildSegments
  b.prepareTmpFiles
  Construction.act b.parts.spill.init
  b.buildChunks orphan

end QueryHost.Blueprint
