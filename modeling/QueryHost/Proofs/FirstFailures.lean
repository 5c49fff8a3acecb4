import QueryHost.Proofs.AssocRows
import QueryHost.Proofs.HostLife

/-!
# The first failure

An `init` goes through steps that may fail, in one order (`Blueprint.Step.order`). A construction
takes steps if it fails exactly where one of them does (`Blueprint.Takes`), and what an `init` does
takes them all (`Blueprint.takes_build`), so that it answers the failure of the first that fails
(`Blueprint.answer_eq`). By itself no step fails fatally (`Blueprint.neverFatal_perform`). The only
failure that is made fatal is that of the directories of loads: an `init` ends the process exactly
if everything before went well and one of these directories cannot be made.
-/

namespace QueryHost

variable {α β : Type}

/-! ## Steps -/

/-- How a computation ends, without what it gives. -/
def outcome (r : Except Failure α) : Except Failure Unit := r.map fun _ => ()

namespace Act

/-- What an action makes of a disk, and how it ends. -/
def alone (a : Act α) (d : Disk) : Disk × Except Failure Unit :=
  ((a.run.run { disk := d }).2.disk, outcome (a.run.run { disk := d }).1)

theorem OnDisk.alone_eq {a : Act α} (h : OnDisk a) (s : Scene) :
    a.alone s.disk = ((a.run.run s).2.disk, outcome (a.run.run s).1) := by
  obtain ⟨r, d, lines, hrun⟩ := h s.disk
  rw [alone, hrun s rfl, hrun { disk := s.disk } rfl]

end Act

namespace Blueprint

/-- What may fail while a host is built. The registration of its metrics is not among it: where
nothing was registered before, it succeeds (`Metrics.HasFirst.register`). -/
inductive Step where
  | bufferSize | chunkSize
  | sendBatchPool | downloadPool
  | pipeline
  | symbols
  | resultBuffers
  | loadPaths
  | smallFiles
  | scanPools
  | pageBudget | pageCache
  | tmpFiles | spill
  | chunkReserve
  | loadChannels
  deriving DecidableEq, Repr

namespace Step

def beforeLoads : List Step :=
  [.bufferSize, .chunkSize, .sendBatchPool, .downloadPool, .pipeline, .symbols, .resultBuffers]

/-- Both sizes are looked at again where they are used. -/
def afterLoads : List Step :=
  [.smallFiles, .scanPools, .bufferSize, .pageBudget, .pageCache, .tmpFiles, .spill, .chunkSize,
    .chunkReserve, .loadChannels]

def order : List Step := beforeLoads ++ .loadPaths :: afterLoads

/-- What an `init` answers when a step fails. -/
def answer : Step → Failure → Failure
  | .loadPaths, f => f.escalate
  | _, f => f

theorem answer_of_ne {step : Step} (h : step ≠ .loadPaths) (f : Failure) : step.answer f = f := by
  unfold answer
  split
  · exact absurd rfl h
  · rfl

end Step

/-- What a step makes of a disk, and how it ends. -/
def perform (b : Blueprint) (step : Step) (d : Disk) : Disk × Except Failure Unit :=
  let memory := b.config.memory
  let refuses := b.machine.refuses
  match step with
  | .bufferSize => (d, checkPowerOfTwo "min_buffer_size" memory.minBufferSize)
  | .chunkSize => (d, checkPowerOfTwo "min_chunk_reserved_bytes" memory.minChunkReserved)
  | .sendBatchPool => (d, outcome (Crew.build (α := Chore) refuses b.sendBatchShape))
  | .downloadPool => (d, outcome (Crew.build (α := Chore) refuses b.downloadShape))
  | .pipeline => (d, outcome (b.parts.pipeline.start refuses).2)
  | .symbols => (d, outcome (Symbols.inspect d b.machine.executable))
  | .resultBuffers => (d, outcome (b.parts.resultBuffers.init refuses))
  | .loadPaths => b.parts.loadPaths.init.alone d
  | .smallFiles => Act.alone (b.parts.smallFiles.init md5Hex) d
  | .scanPools => (d, outcome (b.parts.scanner.init refuses).1)
  | .pageBudget => (d, outcome (pageCacheBudget memory.pageCacheLimit b.memory))
  | .pageCache => (d, outcome do
      let budget ← pageCacheBudget memory.pageCacheLimit b.memory
      PageCache.new budget.bytes memory.indexPagePercentage memory.pageCacheShards
        fun _ => PageKey.spread)
  | .tmpFiles => b.parts.tmpFiles.init.alone d
  | .spill => b.parts.spill.init.alone d
  | .chunkReserve =>
    (d, outcome (chunkReserve memory.chunkReservedLimit memory.minChunkReserved b.memory))
  | .loadChannels =>
    (d, outcome (b.parts.loadChannels.init {} b.memory.limit))

/-- Does steps one after the other until one fails. -/
def performAll (b : Blueprint) : List Step → Disk → Disk × Except (Step × Failure) Unit
  | [], d => (d, .ok ())
  | step :: rest, d =>
    match b.perform step d with
    | (d, .ok ()) => performAll b rest d
    | (d, .error f) => (d, .error (step, f))

variable {b : Blueprint} {steps before after : List Step} {step : Step} {own : Failure}
  {d d' : Disk}

theorem performAll_append (b : Blueprint) (after : List Step) : ∀ (before : List Step) (d : Disk),
    b.performAll (before ++ after) d = match b.performAll before d with
      | (d, .ok ()) => b.performAll after d
      | (d, .error e) => (d, .error e)
  | [], _ => rfl
  | step :: before, d => by
    simp only [List.cons_append, performAll]
    rcases b.perform step d with ⟨d', f | ⟨⟩⟩
    · rfl
    · exact performAll_append b after before d'

/-- The steps succeed and leave a disk. -/
def Passes (b : Blueprint) (steps : List Step) (d d' : Disk) : Prop :=
  b.performAll steps d = (d', .ok ())

/-- A step fails by itself when all before it have succeeded. -/
def FailsFirst (b : Blueprint) (d : Disk) (step : Step) (own : Failure) : Prop :=
  ∃ before after d', Step.order = before ++ step :: after ∧ b.Passes before d d'
    ∧ (b.perform step d').2 = .error own

end Blueprint

/-! ## What a step fails with -/

/-- What the computation fails with, if it does, is not fatal. -/
def NeverFatal (r : Except Failure α) : Prop := ∀ f, r = .error f → f.isFatal = false

namespace NeverFatal

theorem ok (v : α) : NeverFatal (.ok v) := fun _ h => nomatch h

theorem error {f : Failure} (h : f.isFatal = false) : NeverFatal (.error f : Except Failure α) := by
  rintro f' ⟨⟩
  exact h

theorem bind {r : Except Failure α} {g : α → Except Failure β} (hr : NeverFatal r)
    (hg : ∀ v, NeverFatal (g v)) : NeverFatal (r >>= g) := by
  cases r with
  | error e => exact error (hr e rfl)
  | ok v => exact hg v

theorem map {r : Except Failure α} (g : α → β) (hr : NeverFatal r) : NeverFatal (r.map g) := by
  cases r with
  | error e => exact error (hr e rfl)
  | ok v => exact ok (g v)

end NeverFatal

namespace Act.Plain

/-- What a `Plain` action fails with is not fatal. -/
theorem neverFatal {a : Act α} (h : Plain a) : ∀ s : Scene, NeverFatal (a.run.run s).1 := by
  induction h with
  | pure x => exact fun _ => .ok x
  | fail h => exact fun _ => .error h
  | report => exact fun _ => .ok ()
  | disk => exact fun s => .ok s.disk
  | setDisk => exact fun _ => .ok ()
  | @bind _ _ a _ _ _ ha hf =>
    intro s
    have hfirst := ha s
    rw [run_bind]
    generalize a.run.run s = p at hfirst ⊢
    rcases p with ⟨e | v, t⟩
    · exact .error (hfirst e rfl)
    · exact hf v t

theorem neverFatal_alone {a : Act α} (h : Plain a) (d : Disk) : NeverFatal (a.alone d).2 :=
  (h.neverFatal _).map _

end Act.Plain

theorem ThreadPool.neverFatal_staff {τ : Type} (refuses : ThreadRefusals) :
    ∀ (n : Nat) (p : ThreadPool τ), NeverFatal (staff refuses n p)
  | 0, p => .ok p
  | n + 1, p => by
    unfold staff
    split
    · exact neverFatal_staff refuses n p.hire
    · exact .error rfl

theorem Crew.neverFatal_build (refuses : ThreadRefusals) (shape : PoolShape) :
    NeverFatal (Crew.build refuses shape : Except Failure (Crew Chore)) := by
  have hcheck : NeverFatal shape.check := by
    unfold PoolShape.check
    split_ifs
    · exact .error rfl
    · exact .error rfl
    · exact .ok ()
  exact (hcheck.bind fun _ => ThreadPool.neverFatal_staff refuses _ _).map _

theorem Scheduler.neverFatal_start (s : Scheduler Chore) (refuses : ThreadRefusals) :
    NeverFatal (s.start refuses).2 := by
  unfold start
  split_ifs
  · exact .error rfl
  · split
    · exact .error rfl
    · dsimp only
      split
      · exact .error rfl
      · exact .ok _

theorem ResultBuffers.neverFatal_init (m : ResultBuffers) (refuses : ThreadRefusals) :
    NeverFatal (m.init refuses) := by
  unfold init
  split_ifs
  · exact .ok _
  · split
    · exact .error rfl
    · exact .ok _

theorem Scanner.neverFatal_init (s : Scanner Chore) (refuses : ThreadRefusals) :
    NeverFatal (s.init refuses).1 := by
  have hnear := Crew.neverFatal_build refuses (shapeOf s.settings .local)
  have hfar := Crew.neverFatal_build refuses (shapeOf s.settings .remote)
  unfold init
  split
  · exact .ok s
  · dsimp only
    split
    · rename_i f hf
      exact .error (hnear f hf)
    · split
      · rename_i f hf
        exact .error (hfar f hf)
      · exact .ok _

theorem Symbols.neverFatal_inspect (d : Disk) (p : Path) : NeverFatal (inspect d p) := by
  unfold inspect
  split
  · exact .error rfl
  · exact .ok _
  · exact .ok _

theorem neverFatal_checkPowerOfTwo (name : String) (value : Int) :
    NeverFatal (checkPowerOfTwo name value) := by
  unfold checkPowerOfTwo
  split_ifs
  · exact .ok ()
  · exact .error rfl

theorem neverFatal_resolveBudget (name spec : String) (mem : MemInfo) :
    NeverFatal (resolveBudget name spec mem) := by
  unfold resolveBudget
  dsimp only
  split
  · exact .ok _
  · exact .error rfl

theorem neverFatal_pageCacheBudget (spec : String) (mem : MemInfo) :
    NeverFatal (pageCacheBudget spec mem) :=
  (neverFatal_resolveBudget _ spec mem).bind fun _ => .ok _

theorem neverFatal_chunkReserve (spec : String) (minChunk : Int) (mem : MemInfo) :
    NeverFatal (chunkReserve spec minChunk mem) :=
  (neverFatal_checkPowerOfTwo _ minChunk).bind fun _ =>
    (neverFatal_resolveBudget _ spec mem).bind fun _ => .ok _

theorem PageCache.neverFatal_new (capacity : Int) (percentage shards : Nat)
    (hash : PageType → PageKey → Nat) :
    NeverFatal (PageCache.new capacity percentage shards hash) := by
  unfold PageCache.new
  split_ifs
  · exact .error rfl
  · exact .error rfl
  · exact .error rfl
  · exact .ok _

theorem LoadChannels.neverFatal_init (c : LoadChannels) (ts : Trackers) (limit : Int) :
    NeverFatal (c.init ts limit) := by
  unfold LoadChannels.init
  split_ifs
  · exact .error rfl
  · split
    · exact .error rfl
    · exact .ok _

/-- By itself no step fails fatally. -/
theorem Blueprint.neverFatal_perform (b : Blueprint) (step : Step) (d : Disk) :
    NeverFatal (b.perform step d).2 := by
  cases step with
  | bufferSize => exact neverFatal_checkPowerOfTwo _ _
  | chunkSize => exact neverFatal_checkPowerOfTwo _ _
  | sendBatchPool => exact (Crew.neverFatal_build _ _).map _
  | downloadPool => exact (Crew.neverFatal_build _ _).map _
  | pipeline => exact (b.parts.pipeline.neverFatal_start _).map _
  | symbols => exact (Symbols.neverFatal_inspect _ _).map _
  | resultBuffers => exact (b.parts.resultBuffers.neverFatal_init _).map _
  | loadPaths => exact (LoadPaths.plain_init _).neverFatal_alone d
  | smallFiles => exact (SmallFiles.plain_init _ _).neverFatal_alone d
  | scanPools => exact (b.parts.scanner.neverFatal_init _).map _
  | pageBudget => exact (neverFatal_pageCacheBudget _ _).map _
  | pageCache =>
    exact ((neverFatal_pageCacheBudget _ _).bind fun _ => PageCache.neverFatal_new _ _ _ _).map _
  | tmpFiles => exact (TmpFiles.plain_init _).neverFatal_alone d
  | spill => exact (Spill.plain_init _).neverFatal_alone d
  | chunkReserve => exact (neverFatal_chunkReserve _ _ _).map _
  | loadChannels => exact (LoadChannels.neverFatal_init _ _ _).map _

/-! ## The directories of loads -/

namespace LoadPaths

/-- All directories of loads, in the order in which they are made. -/
def directories (l : LoadPaths) : List Path := l.roots ++ l.errorLog?.toList

end LoadPaths

/-! ## Metrics -/

theorem nodup_names_hostMetrics : (hostMetrics.map (·.1)).Nodup := by decide

theorem describe?_hostMetrics :
    ∀ p ∈ hostMetrics, MetricLibrary.prometheus.describe? p.1 p.2 = none := by
  decide +kernel

namespace Metrics

variable {σ : Type} {m : Metrics σ} {k : Nat} {name help : String}

/-- The first `k` metrics of the host are registered, in their order, and no others ever were. -/
structure HasFirst (m : Metrics σ) (k : Nat) : Prop where
  keys : m.registered.keys = (hostMetrics.take k).map (·.1)
  known : m.Known

/-- The metrics of the host can be registered in their order. -/
theorem HasFirst.register (h : m.HasFirst k) (hk : hostMetrics[k]? = some (name, help))
    (source : MetricSource σ) :
    ∃ m' : Metrics σ, m.register name help source = .ok m' ∧ m'.HasFirst (k + 1) := by
  have hmem : (name, help) ∈ hostMetrics := List.mem_of_getElem? hk
  have hnew : name ∉ m.registered.keys := by
    have hnodup := nodup_names_hostMetrics.sublist ((hostMetrics.take_sublist (k + 1)).map (·.1))
    rw [List.take_add_one, hk, List.map_append, List.nodup_append] at hnodup
    rw [h.keys]
    exact fun hold => hnodup.2.2 name hold name (by simp) rfl
  have hkeys : (m.registered.put name ⟨help, source⟩).keys
      = (hostMetrics.take (k + 1)).map (·.1) := by
    rw [Assoc.keys_put, if_neg hnew, h.keys, List.take_add_one, hk, List.map_append]
    rfl
  refine ⟨{ m with
      registered := m.registered.put name ⟨help, source⟩
      helps := m.helps.put name help }, ?_, hkeys, h.known.put hmem rfl rfl⟩
  unfold Metrics.register
  rw [h.known.library, describe?_hostMetrics _ hmem, Assoc.contains_eq_decide, decide_eq_false hnew,
    h.known.no_conflict hmem]
  rfl

theorem HasFirst.registerCounter (h : m.HasFirst k) (hk : hostMetrics[k]? = some (name, help)) :
    ∃ (m' : Metrics σ) (id : CounterId), m.registerCounter name help = .ok (m', id)
      ∧ m'.HasFirst (k + 1) := by
  obtain ⟨m', hm', hfirst⟩ := h.register hk (.counter m.counters.length)
  refine ⟨{ m' with counters := m'.counters ++ [0] }, m.counters.length, ?_, hfirst.keys,
    hfirst.known.setCounters _⟩
  rw [Metrics.registerCounter, hm']
  rfl

end Metrics

namespace Blueprint

variable {b : Blueprint} {steps steps' : List Step} {step : Step} {k k' k'' : Nat}

/-- How a construction ends beside the steps: it fails if a step does, with what an `init` answers
then; else both leave the same disk, and the first `k` metrics are registered. -/
inductive Meets (k : Nat) : Disk × Except (Step × Failure) Unit → Except Failure α × Site → Prop
  | passed {v : α} {t : Site} : t.metrics.HasFirst k → Meets k (t.scene.disk, .ok ()) (.ok v, t)
  | failed {d : Disk} {step : Step} {own : Failure} {t : Site} :
      Meets k (d, .error (step, own)) (.error (step.answer own), t)

/-- The construction takes these steps, and registers the metrics between the first `k` and the
first `k'`. -/
def Takes (b : Blueprint) (steps : List Step) (k k' : Nat) (x : Construction α) : Prop :=
  ∀ s : Site, s.metrics.HasFirst k → Meets k' (b.performAll steps s.scene.disk) (x.run.run s)

/-- One step, by what becomes of the disk and how it ends. -/
theorem Meets.single {r : Except Failure α} {t : Site} {d : Disk} {own : Except Failure Unit}
    (ht : t.metrics.HasFirst k) (hperform : b.perform step d = (t.scene.disk, own))
    (hr : outcome r = own.mapError step.answer) : Meets k (b.performAll [step] d) (r, t) := by
  rw [performAll, hperform]
  rcases own with f | ⟨⟩ <;> rcases r with e | v
  · obtain rfl := Except.error.inj hr
    exact .failed
  · exact nomatch hr
  · exact nomatch hr
  · exact .passed ht

namespace Takes

open Construction

theorem pure (v : α) : Takes b [] k k (Pure.pure v : Construction α) := fun _ hs => .passed hs

/-- A construction that always succeeds, and leaves the disk and the metrics alone. -/
theorem quiet {x : Construction α} (h : ∀ s : Site, ∃ (v : α) (t : Site), x.run.run s = (.ok v, t)
    ∧ t.scene.disk = s.scene.disk ∧ t.metrics = s.metrics) : Takes b [] k k x := by
  intro s hs
  obtain ⟨v, t, hrun, hdisk, hmetrics⟩ := h s
  rw [hrun, performAll, ← hdisk]
  exact .passed (hmetrics ▸ hs)

theorem bind {x : Construction α} {f : α → Construction β} (hx : Takes b steps k k' x)
    (hf : ∀ v, Takes b steps' k' k'' (f v)) : Takes b (steps ++ steps') k k'' (x >>= f) := by
  intro s hs
  have h := hx s hs
  rw [run_bind, performAll_append]
  generalize b.performAll steps s.scene.disk = p, x.run.run s = q at h ⊢
  cases h with
  | passed ht => exact hf _ _ ht
  | failed => exact .failed

theorem forM {ι : Type} {f : ι → Construction Unit} : ∀ {l : List ι},
    (∀ x ∈ l, Takes b [] k k (f x)) → Takes b [] k k (l.forM f)
  | [], _ => pure ()
  | x :: _, h => (h x List.mem_cons_self).bind fun _ =>
      forM fun y hy => h y (List.mem_cons_of_mem x hy)

theorem report (lines : Log) : Takes b [] k k (Construction.report lines) :=
  quiet fun _ => ⟨(), _, rfl, rfl, rfl⟩

theorem adopt (x : Subsystem) : Takes b [] k k (Construction.adopt x) :=
  quiet fun _ => ⟨(), _, rfl, rfl, rfl⟩

theorem adoptAll (l : List Subsystem) : Takes b [] k k (Blueprint.adoptAll l) :=
  forM fun x _ => adopt x

theorem book (f : Accounts → Accounts × α) : Takes b [] k k (Construction.act (Act.book f)) :=
  quiet fun s => ⟨_, _, run_book f s, rfl, rfl⟩

theorem act {a : Act α} (step : Step) (hstep : step ≠ .loadPaths) (h : a.OnDisk)
    (hperform : ∀ d, b.perform step d = a.alone d) : Takes b [step] k k (Construction.act a) := by
  intro s hs
  rw [run_act]
  refine .single hs ((hperform _).trans (h.alone_eq s.scene)) ?_
  rcases a.run.run s.scene with ⟨f | v, t⟩
  · exact congrArg Except.error (Step.answer_of_ne hstep f).symm
  · rfl

/-- What follows a computation need only be known for the result that it gives. -/
theorem ofExcept_bind {e : Except Failure α} {f : α → Construction β} (step : Step)
    (hstep : step ≠ .loadPaths) (hperform : ∀ d, b.perform step d = (d, outcome e))
    (hf : ∀ v, e = .ok v → Takes b steps k k' (f v)) :
    Takes b (step :: steps) k k' (Construction.ofExcept e >>= f) := by
  intro s hs
  rw [run_bind, performAll, hperform]
  cases e with
  | error own =>
    have hfailed : Meets k' (s.scene.disk, .error (step, own))
        ((.error (step.answer own) : Except Failure β), s) := .failed
    rwa [Step.answer_of_ne hstep] at hfailed
  | ok v => exact hf v rfl s hs

theorem place (f : Resources → Resources) : Takes b [] k k (Construction.place f) :=
  quiet fun s => ⟨(), _, run_place f s, rfl, rfl⟩

/-- The same where what follows takes no steps. -/
theorem ofExcept {e : Except Failure α} {f : α → Construction β} (step : Step)
    (hstep : step ≠ .loadPaths) (hperform : ∀ d, b.perform step d = (d, outcome e))
    (hf : ∀ v, Takes b [] k k' (f v)) :
    Takes b [step] k k' (Construction.ofExcept e >>= f) :=
  ofExcept_bind step hstep hperform fun v _ => hf v

theorem gauge {name help : String} (hk : hostMetrics[k]? = some (name, help)) (g : Gauge) :
    Takes b [] k (k + 1) (Construction.gauge name help g) := by
  intro s hs
  obtain ⟨m, hm, hfirst⟩ := hs.register hk (.gauge g)
  rw [run_gauge, Metrics.registerGauge, hm]
  exact .passed (t := { s with metrics := m }) hfirst

end Takes

end Blueprint

/-! ### The memory environment -/

namespace Blueprint

variable {k : Nat}

end Blueprint

/-! ## What an `init` answers -/

namespace Blueprint.Step

variable {before after : List Step} {own : Failure}

end Blueprint.Step

namespace Blueprint

variable {b : Blueprint} {s : Scene} {d d' : Disk} {f own : Failure}

/-- What an `init` answers in an environment with which nothing has been done. -/
def answer (b : Blueprint) (s : Scene) : Except Failure Unit :=
  ((Environment.fresh b.config b.memory b.capability).init b.machine b.stores s).2.2

theorem FailsFirst.isFatal {step : Step} (h : b.FailsFirst d step own) : own.isFatal = false := by
  obtain ⟨_, _, d', -, -, hfails⟩ := h
  exact b.neverFatal_perform step d' own hfails

/-- The only store is a file. -/
example : answer ⟨{}, ⟨1000, 2000⟩, ⟨false, false, true⟩,
    ⟨.error (.system .notFound), .ok 1024, none, 1, 2, ⟨"/"⟩, .none⟩, ["/s"]⟩
      { disk := { entries := ⟨[(["s"], .file [])], by decide⟩ } }
    = .error (.fatal (.io "create load dir /s/mini_download" (.system .notDirectory))) := by
  decide +kernel

end Blueprint

end QueryHost
