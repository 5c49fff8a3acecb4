import QueryHost.Host.Environment

/-!
# Using a host

What can be asked of a host by those who use it, one request at a time: each is carried out before
the next one comes. A user may keep chunks of memory, and a host that ends while some are kept
reports it.
-/

namespace QueryHost

structure Premises where
  environment : Environment
  /-- The chunks that are kept, the last one taken first. -/
  kept : List Chunk := []

namespace Premises

variable {α : Type}

/-! ## Beginning and end -/

/-- Builds the host. What has failed may be tried again. -/
def init (p : Premises) (m : Machine) (stores : List String) :
    Act (Premises × Except Failure Unit) := do
  let (environment, scene, r) := p.environment.init m stores (← get)
  set scene
  return ({ p with environment }, r)

def destroy (p : Premises) : Act Premises := do
  let (environment, scene) := p.environment.destroy (p.kept.map (·.tracker)) (← get)
  set scene
  return { p with environment }

/-- Ends the host; another one takes its place. -/
def renew (p : Premises) (next : Environment) : Act Premises := do
  return { ← p.destroy with environment := next }

def gather (p : Premises) : Act String := do
  let (scene, text) := p.environment.gather (← get)
  set scene
  return text

/-! ## Work -/

/-- Does something with the resources, if the host is up. -/
def onResources (p : Premises) (f : Resources → Act (Resources × α)) : Act (Premises × α) := do
  let (r, a) ← f (← Act.ofExcept p.environment.getResources)
  return ({ p with environment.resources := some r }, a)

/-- The same, where nothing but the resources changes. -/
def update (p : Premises) (f : Resources → Resources × α) : Act (Premises × α) :=
  p.onResources fun r => return f r

def putSmallFile (p : Premises) (id : Int) (content : Bytes) : Act (Premises × String) :=
  p.onResources fun r => do
    let (smallFiles, file) ← r.smallFiles.put md5Hex id content
    return ({ r with smallFiles }, file.digest)

def hasSmallFile (p : Premises) (id : Int) (digest : String) : Act (Premises × Bool) :=
  p.update fun r => (r, (r.smallFiles.get? id digest).isSome)

def trackers : Act Trackers := return (← get).accounts.trackers

def setTrackers (ts : Trackers) : Act Unit := modify fun s => { s with accounts.trackers := ts }

/-- Takes a chunk and keeps it; gives its size and the charge of the orphan tracker. -/
def takeChunk (p : Premises) (size : Nat) : Act (Premises × Int × Int) := do
  let (p, chunk, charge) ← p.onResources fun r => do
    let (chunk, chunks, ts) ← Act.ofExcept (r.memory.chunks.allocate (← trackers) size)
    setTrackers ts
    return ({ r with memory.chunks := chunks }, chunk, ts.current r.memory.orphan)
  return ({ p with kept := chunk :: p.kept }, chunk.size, charge)

/-- Gives the last chunk that was taken back to the allocator; gives what is reserved then and the
charge of the orphan tracker. -/
def returnChunk (p : Premises) : Act (Premises × Option (Int × Int)) := do
  let (q, done) ← p.onResources fun r => do
    match p.kept with
    | [] => return (r, none)
    | chunk :: _ =>
      let (chunks, ts) := r.memory.chunks.release (← trackers) chunk
      setTrackers ts
      return ({ r with memory.chunks := chunks },
        some (chunks.reserved, ts.current r.memory.orphan))
  return ({ q with kept := q.kept.tail }, done)

/-- Gives all chunks that are kept back to the system. -/
def dropChunks (p : Premises) : Act Premises := do
  setTrackers (p.kept.foldl ChunkAllocator.discard (← trackers))
  return { p with kept := [] }

def putPage (p : Premises) (file : String) (page : Bytes) : Act (Premises × Bool) :=
  p.update fun r =>
    let (pageCache, done) := r.memory.pageCache.insert ⟨file, 0⟩ page .data
    ({ r with memory.pageCache := pageCache }, done)

def getPage (p : Premises) (file : String) : Act (Premises × Option Bytes) :=
  p.update fun r =>
    let (pageCache, page) := r.memory.pageCache.lookup ⟨file, 0⟩ .data
    ({ r with memory.pageCache := pageCache }, page)

/-- Gets a client of a backend and gives it back at once; gives how many are idle then. -/
def visitBackend (p : Premises) (a : Address) : Act (Premises × Except Failure Nat) := do
  let r ← Act.ofExcept p.environment.getResources
  let (clients, metrics, got) := r.backendClients.get p.environment.metrics a
  let clients := match got with
    | .ok client => clients.release a client
    | .error _ => clients
  let environment :=
    { p.environment with metrics, resources := some { r with backendClients := clients } }
  return ({ p with environment }, got.map fun _ => (clients.clients a).length)

/-- Does work that takes its time and waits for its end. -/
def await (p : Premises) (f : Resources → Except Failure (Resources × α × Log)) :
    Act (Premises × α) :=
  p.onResources fun r => do
    let (r, a, log) ← Act.ofExcept (f r)
    Act.report log
    return (r, a)

/-- Has the pipeline execute tasks; gives how many slices that took. -/
def runTasks (p : Premises) (count : Nat) : Act (Premises × Nat) := do
  let (p, slices) ← p.await (·.runPipeline (List.replicate count ""))
  return (p, slices.length)

/-- Has a scan done; says whether it was. -/
def scan (p : Premises) (kind : ScanKind) : Act (Premises × Bool) := do
  let (p, ended) ← p.await (·.runScan none kind "")
  return (p, !ended.isEmpty)

/-- Has a download done; gives the length of the buffer that it finds. -/
def download (p : Premises) : Act (Premises × Nat) := do
  let (p, _) ← p.await (·.runDownload none "")
  p.update fun r => (r, r.downloads.bufferSize)

/-- The next directories of a spill, of temporary files and of a load. -/
def nextPlaces (p : Premises) : Act (Premises × List (Except Failure Path)) :=
  p.onResources fun r => do
    let (spill, a) := r.spill.nextDirectory "q"
    let (tmpFiles, b) := r.tmpFiles.newPath "q"
    let (loadPaths, made) := r.loadPaths.allocate "db" "l"
    let c ← tryCatch (Except.ok <$> made) (fun f => return Except.error f)
    return ({ r with spill, tmpFiles, loadPaths }, [a, b, c])

end Premises

end QueryHost
