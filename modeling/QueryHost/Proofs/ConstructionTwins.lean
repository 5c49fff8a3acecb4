import QueryHost.Proofs.AssocRows
import QueryHost.Proofs.Constructions

/-!
# Constructions side by side

Two sites are alike if their disks are the same, their subsystems and metrics have the same names,
allocations are counted at both or at neither, and their parts differ at most in numbers
(`Site.Alike`). A construction at both ends at both in the same way: with related results, or with
the same failure (`Construction.Tandem`). Trackers, hooks and counters are numbered after those that
were there before; but for these numbers, what is built is the same (`Blueprint.tandem_build`).
-/

namespace QueryHost

/-- Related results, or the same failure. -/
inductive Agree {α β : Type} (R : α → β → Prop) : Except Failure α → Except Failure β → Prop
  | ok {v : α} {w : β} : R v w → Agree R (.ok v) (.ok w)
  | error (f : Failure) : Agree R (.error f) (.error f)

namespace Agree

variable {α β γ δ : Type} {R : α → β → Prop} {S : γ → δ → Prop}

theorem refl : ∀ e : Except Failure α, Agree Eq e e
  | .ok _ => .ok rfl
  | .error f => .error f

theorem bind {d : Except Failure α} {e : Except Failure β} {f : α → Except Failure γ}
    {g : β → Except Failure δ} (h : Agree R d e) (hf : ∀ v w, R v w → Agree S (f v) (g w)) :
    Agree S (d >>= f) (e >>= g) := by
  cases h with
  | ok hr => exact hf _ _ hr
  | error x => exact .error x

end Agree

/-! ## Parts without their numbers -/

def IdleClients.unnumbered (c : IdleClients) : IdleClients :=
  { c with counters := c.counters.map fun _ => ⟨0, 0⟩ }

def LoadChannels.unnumbered (c : LoadChannels) : LoadChannels :=
  { c with tracker := c.tracker.map fun _ => 0 }

def ChunkAllocator.unnumbered (a : ChunkAllocator) : ChunkAllocator := { a with tracker := 0 }

def MemoryEnv.unnumbered (m : MemoryEnv) : MemoryEnv :=
  { m with orphan := 0, hook := m.hook.map fun _ => 0, chunks := m.chunks.unnumbered }

def Resources.unnumbered (r : Resources) : Resources :=
  { r with
    backendClients := r.backendClients.unnumbered
    frontendClients := r.frontendClients.unnumbered
    brokerClients := r.brokerClients.unnumbered
    loadChannels := r.loadChannels.unnumbered
    memory := r.memory.unnumbered }

/-! ## Metrics -/

namespace Metrics

variable {σ : Type} {m n : Metrics σ} {name help : String}

structure Alike (m n : Metrics σ) : Prop where
  keys : m.registered.keys = n.registered.keys
  known_left : m.Known
  known_right : n.Known

/-- Registered at metrics that are alike, a metric of the host is accepted by both or refused by
both. -/
theorem Alike.register (h : m.Alike n) (hmem : (name, help) ∈ hostMetrics)
    (source source' : MetricSource σ) :
    Agree Alike (m.register name help source) (n.register name help source') := by
  have hcontains : m.registered.contains name = n.registered.contains name := by
    rw [Assoc.contains_eq_decide, Assoc.contains_eq_decide, h.keys]
  unfold Metrics.register
  rw [h.known_left.library, h.known_right.library]
  split
  · exact .error _
  · rw [hcontains, h.known_left.no_conflict hmem, h.known_right.no_conflict hmem]
    split
    · exact .error _
    · refine .ok ⟨?_, h.known_left.put hmem h.known_left.library.symm rfl,
        h.known_right.put hmem h.known_right.library.symm rfl⟩
      rw [Assoc.keys_put, Assoc.keys_put, h.keys]

theorem Alike.registerCounter (h : m.Alike n) (hmem : (name, help) ∈ hostMetrics) :
    Agree (fun p q => p.1.Alike q.1) (m.registerCounter name help) (n.registerCounter name help) :=
  (h.register hmem _ _).bind fun _ _ h' =>
    .ok ⟨h'.keys, h'.known_left.setCounters _, h'.known_right.setCounters _⟩

end Metrics

theorem IdleClients.alike_initMetrics (c : IdleClients) {m n : Metrics Gauge} {service : String}
    (h : m.Alike n) (hmem : service ∈ ["backend", "frontend", "broker"]) :
    (c.initMetrics m service).1.unnumbered = (c.initMetrics n service).1.unnumbered
      ∧ (c.initMetrics m service).2.1.Alike (c.initMetrics n service).2.1
      ∧ (c.initMetrics m service).2.2 = (c.initMetrics n service).2.2 := by
  obtain ⟨hhits, hmisses⟩ := hostMetrics_of_service service hmem
  have hfirst := h.registerCounter hhits
  unfold initMetrics
  generalize m.registerCounter _ _ = r, n.registerCounter _ _ = r' at hfirst
  cases hfirst with
  | error f => exact ⟨rfl, h, rfl⟩
  | @ok p q h₁ =>
    have hsecond := h₁.registerCounter hmisses
    simp only []
    generalize p.1.registerCounter _ _ = r, q.1.registerCounter _ _ = r' at hsecond
    cases hsecond with
    | error f => exact ⟨rfl, h₁, rfl⟩
    | ok h₂ =>
      simp only []
      split
      · exact ⟨rfl, h₂, rfl⟩
      · exact ⟨rfl, h₂, rfl⟩

/-! ## Sites -/

/-- What of a site decides how a construction goes on. -/
structure Site.Alike (a b : Site) : Prop where
  disk : a.scene.disk = b.scene.disk
  counting : a.scene.accounts.hooks.counting = b.scene.accounts.hooks.counting
  names : a.scope.names = b.scope.names
  metrics : a.metrics.Alike b.metrics
  parts : a.parts.unnumbered = b.parts.unnumbered

theorem Scope.names_adopt {σ : Type} (s : Scope σ) (name : String) (x : σ) :
    (s.adopt name x).names = s.names ++ [name] := by
  simp [adopt, names]

theorem Site.Alike.adopt {a b : Site} (h : a.Alike b) {x y : Subsystem} (hname : x.name = y.name) :
    (a.scope.adopt x.name x).names = (b.scope.adopt y.name y).names := by
  rw [Scope.names_adopt, Scope.names_adopt, h.names, hname]

namespace Construction

variable {α β γ δ : Type} {R : α → β → Prop} {S : γ → δ → Prop}

/-- Done at sites that are alike, the constructions agree, and the sites stay alike. -/
def Tandem (R : α → β → Prop) (x : Construction α) (y : Construction β) : Prop :=
  ∀ a b : Site, a.Alike b →
    Agree R (x.run.run a).1 (y.run.run b).1 ∧ (x.run.run a).2.Alike (y.run.run b).2

namespace Tandem

theorem pure {v : α} {w : β} (h : R v w) :
    Tandem R (Pure.pure v : Construction α) (Pure.pure w : Construction β) :=
  fun _ _ hab => ⟨.ok h, hab⟩

theorem throw (f : Failure) :
    Tandem R (MonadExcept.throw f : Construction α) (MonadExcept.throw f : Construction β) :=
  fun _ _ hab => ⟨.error f, hab⟩

theorem bind {x : Construction α} {y : Construction β} {f : α → Construction γ}
    {g : β → Construction δ} (hx : Tandem R x y) (hf : ∀ v w, R v w → Tandem S (f v) (g w)) :
    Tandem S (x >>= f) (y >>= g) := by
  intro a b hab
  have h := hx a b hab
  rw [run_bind, run_bind]
  generalize x.run.run a = p, y.run.run b = q at h ⊢
  rcases p with ⟨r, a'⟩
  rcases q with ⟨r', b'⟩
  obtain ⟨hagree, halike⟩ := h
  cases hagree with
  | error e => exact ⟨.error e, halike⟩
  | ok hr => exact hf _ _ hr a' b' halike

/-- What follows the same result at both sites. -/
theorem bind_eq {x y : Construction α} {f : α → Construction γ} {g : α → Construction δ}
    (hx : Tandem Eq x y) (hf : ∀ v, Tandem S (f v) (g v)) : Tandem S (x >>= f) (y >>= g) :=
  hx.bind fun v _ hv => hv ▸ hf v

theorem tryCatch {x : Construction α} {y : Construction β} {handler : Failure → Construction α}
    {handler' : Failure → Construction β} (hx : Tandem R x y)
    (hh : ∀ f, Tandem R (handler f) (handler' f)) :
    Tandem R (MonadExcept.tryCatch x handler) (MonadExcept.tryCatch y handler') := by
  intro a b hab
  have h := hx a b hab
  rw [run_tryCatch, run_tryCatch]
  generalize x.run.run a = p, y.run.run b = q at h ⊢
  rcases p with ⟨r, a'⟩
  rcases q with ⟨r', b'⟩
  obtain ⟨hagree, halike⟩ := h
  cases hagree with
  | error e => exact hh e a' b' halike
  | ok hr => exact ⟨.ok hr, halike⟩

theorem forM {f g : α → Construction Unit} : ∀ {l : List α}, (∀ x ∈ l, Tandem Eq (f x) (g x)) →
    Tandem Eq (l.forM f) (l.forM g)
  | [], _ => pure rfl
  | x :: _, h => (h x List.mem_cons_self).bind_eq fun _ =>
      forM fun y hy => h y (List.mem_cons_of_mem x hy)

theorem act {x : Act α} (h : x.OnDisk) : Tandem Eq (Construction.act x) (Construction.act x) := by
  intro a b hab
  obtain ⟨r, d, lines, hrun⟩ := h a.scene.disk
  rw [run_act, run_act, hrun _ rfl, hrun _ hab.disk.symm]
  exact ⟨.refl r, ⟨rfl, hab.counting, hab.names, hab.metrics, hab.parts⟩⟩

theorem ofExcept (e : Except Failure α) :
    Tandem Eq (Construction.ofExcept e) (Construction.ofExcept e) :=
  act (.ofExcept e)

theorem report (lines lines' : Log) :
    Tandem Eq (Construction.report lines) (Construction.report lines') :=
  fun _ _ hab => ⟨.ok rfl, ⟨hab.disk, hab.counting, hab.names, hab.metrics, hab.parts⟩⟩

theorem reporting (p : α × Log) :
    Tandem Eq (Construction.reporting p) (Construction.reporting p) :=
  (report p.2 p.2).bind_eq fun _ => pure rfl

/-- An account that leaves the hooks alone. -/
theorem book {f : Accounts → Accounts × α} {g : Accounts → Accounts × β}
    (hf : ∀ a, (f a).1.hooks = a.hooks) (hg : ∀ a, (g a).1.hooks = a.hooks) :
    Tandem (fun _ _ => True) (Construction.act (Act.book f)) (Construction.act (Act.book g)) := by
  intro a b hab
  rw [run_book, run_book]
  refine ⟨.ok trivial, ⟨hab.disk, ?_, hab.names, hab.metrics, hab.parts⟩⟩
  simp only [hf, hg, hab.counting]

theorem adopt {x y : Subsystem} (hname : x.name = y.name) :
    Tandem Eq (Construction.adopt x) (Construction.adopt y) := by
  intro a b hab
  rw [run_adopt, run_adopt]
  exact ⟨.ok rfl, ⟨hab.disk, hab.counting, hab.adopt hname, hab.metrics, hab.parts⟩⟩

theorem adoptAll (l : List Subsystem) : Tandem Eq (Blueprint.adoptAll l) (Blueprint.adoptAll l) :=
  forM fun _ _ => adopt rfl

theorem gauge {name help : String} (hmem : (name, help) ∈ hostMetrics) (g : Gauge) :
    Tandem Eq (Construction.gauge name help g) (Construction.gauge name help g) := by
  intro a b hab
  have hagree := hab.metrics.register hmem (.gauge g) (.gauge g)
  rw [run_gauge, run_gauge, Metrics.registerGauge, Metrics.registerGauge]
  generalize a.metrics.register _ _ _ = r, b.metrics.register _ _ _ = r' at hagree
  cases hagree with
  | error f => exact ⟨.error f, hab⟩
  | ok h => exact ⟨.ok rfl, ⟨hab.disk, hab.counting, hab.names, h, hab.parts⟩⟩

/-- What is put in its place at both sites is the same but for numbers. -/
theorem place {f g : Resources → Resources} (u : Resources → Resources)
    (hf : ∀ r, (f r).unnumbered = u r.unnumbered)
    (hg : ∀ r, (g r).unnumbered = u r.unnumbered) :
    Tandem Eq (Construction.place f) (Construction.place g) := by
  intro a b hab
  rw [run_place, run_place]
  exact ⟨.ok rfl, ⟨hab.disk, hab.counting, hab.names, hab.metrics,
    (hf a.parts).trans ((congrArg u hab.parts).trans (hg b.parts).symm)⟩⟩

/-- The same is put in a place that has no number. -/
theorem place_same {f : Resources → Resources}
    (hf : ∀ r, (f r).unnumbered = f r.unnumbered) :
    Tandem Eq (Construction.place f) (Construction.place f) :=
  place f hf hf

end Tandem

end Construction

open Construction (Tandem)

namespace Blueprint

/-! ## The memory environment -/

theorem tandem_bindOrphan : Tandem (fun _ _ => True) bindOrphan bindOrphan := by
  intro a b hab
  rw [run_bindOrphan, run_bindOrphan]
  exact ⟨.ok trivial, ⟨hab.disk, hab.counting,
    hab.adopt (x := .orphanTracker _) (y := .orphanTracker _) rfl, hab.metrics, hab.parts⟩⟩

/-- Whether a hook is installed depends on what it is capable of, on whether another one counts, and
on whether it gets its thread. -/
theorem tandem_installHook (b : Blueprint) (t t' : TrackerId) :
    Tandem Eq (b.installHook t) (b.installHook t') := by
  intro x y hxy
  rw [run_installHook, run_installHook]
  unfold AllocationHooks.install
  rw [hxy.counting]
  split_ifs
  · exact ⟨.ok rfl, ⟨hxy.disk, hxy.counting, hxy.names, hxy.metrics, hxy.parts⟩⟩
  · exact ⟨.ok rfl, ⟨hxy.disk, hxy.counting, hxy.names, hxy.metrics, hxy.parts⟩⟩
  · cases b.machine.refuses AllocationHooks.threadName with
    | some e => exact ⟨.ok rfl, ⟨hxy.disk, rfl, hxy.names, hxy.metrics, hxy.parts⟩⟩
    | none =>
      exact ⟨.ok rfl, ⟨hxy.disk, rfl,
        hxy.adopt (x := .allocationHook _) (y := .allocationHook _) rfl, hxy.metrics,
        congrArg (fun r : Resources => { r with memory.hook := some 0 }) hxy.parts⟩⟩

theorem tandem_buildPageCache (b : Blueprint) : Tandem Eq b.buildPageCache b.buildPageCache :=
  (Tandem.ofExcept _).bind_eq fun _ => (Tandem.report _ _).bind_eq fun _ =>
    (Tandem.ofExcept _).bind_eq fun _ => (Tandem.place_same fun _ => by rfl).bind_eq fun _ =>
      Tandem.adopt rfl

theorem tandem_buildSegments (b : Blueprint) : Tandem Eq b.buildSegments b.buildSegments :=
  (Tandem.report _ _).bind_eq fun _ => (Tandem.place_same fun _ => by rfl).bind_eq fun _ =>
    Tandem.adopt rfl

theorem tandem_prepareTmpFiles (b : Blueprint) : Tandem Eq b.prepareTmpFiles b.prepareTmpFiles :=
  (Tandem.act (TmpFiles.onDisk_init _)).bind_eq fun _ => Tandem.place_same fun _ => rfl

theorem tandem_buildChunks (b : Blueprint) (t t' : TrackerId) :
    Tandem Eq (b.buildChunks t) (b.buildChunks t') :=
  (Tandem.ofExcept _).bind_eq fun _ => (Tandem.ofExcept _).bind_eq fun limit =>
    (Tandem.report _ _).bind_eq fun _ => (Tandem.book (fun _ => rfl) fun _ => rfl).bind
      fun _ _ _ =>
        (Tandem.place (fun r => { r with memory.chunks := .new limit 0 }) (fun _ => by rfl)
          fun _ => by rfl).bind_eq fun _ => Tandem.adopt rfl

theorem tandem_buildMemory (b : Blueprint) : Tandem Eq b.buildMemory b.buildMemory :=
  tandem_bindOrphan.bind fun t t' _ => (b.tandem_installHook t t').bind_eq fun _ =>
    (Tandem.ofExcept _).bind_eq fun _ => b.tandem_buildPageCache.bind_eq fun _ =>
      b.tandem_buildSegments.bind_eq fun _ => b.tandem_prepareTmpFiles.bind_eq fun _ =>
        (Tandem.act (Spill.onDisk_init _)).bind_eq fun _ => b.tandem_buildChunks t t'

/-! ## The other parts -/

theorem tandem_buildPool (b : Blueprint) (shape : PoolShape) (s : Subsystem)
    {put : Crew Chore → Resources → Resources}
    (hput : ∀ crew r, (put crew r).unnumbered = put crew r.unnumbered) :
    Tandem Eq (b.buildPool shape s put) (b.buildPool shape s put) :=
  (Tandem.ofExcept _).bind_eq fun crew => (Tandem.report _ _).bind_eq fun _ =>
    (Tandem.place_same (hput crew)).bind_eq fun _ => Tandem.adopt rfl

theorem tandem_buildDownloads (b : Blueprint) : Tandem Eq b.buildDownloads b.buildDownloads :=
  (b.tandem_buildPool _ .downloadPool fun _ _ => by rfl).bind_eq fun _ => Tandem.adopt rfl

theorem tandem_startPipeline (b : Blueprint) : Tandem Eq b.startPipeline b.startPipeline :=
  (Tandem.adopt rfl).bind_eq fun _ => (Tandem.place_same fun _ => by rfl).bind_eq fun _ =>
    (Tandem.ofExcept _).bind_eq fun _ => .report _ _

theorem tandem_readSymbols (b : Blueprint) : Tandem Eq b.readSymbols b.readSymbols :=
  (Tandem.act .disk).bind_eq fun _ => (Tandem.ofExcept _).bind_eq fun _ =>
    (Tandem.place_same fun _ => by rfl).bind_eq fun _ => Tandem.adopt rfl

theorem tandem_countClients (b : Blueprint) {service : String}
    (hmem : service ∈ ["backend", "frontend", "broker"]) {put : IdleClients → Resources → Resources}
    (hput : ∀ c r, (put c r).unnumbered = put c.unnumbered r.unnumbered) :
    Tandem Eq (b.countClients service put) (b.countClients service put) := by
  intro s t hst
  obtain ⟨hclients, hmetrics, hanswer⟩ := b.idleClients.alike_initMetrics hst.metrics hmem
  rw [run_countClients, run_countClients]
  refine ⟨?_, ⟨hst.disk, hst.counting, hst.names, hmetrics, ?_⟩⟩
  · rw [hanswer]
    exact .refl _
  · rw [hput, hput, hclients, hst.parts]

theorem tandem_startResultBuffers (b : Blueprint) :
    Tandem Eq b.startResultBuffers b.startResultBuffers :=
  (Tandem.ofExcept _).bind_eq fun _ => (Tandem.place_same fun _ => by rfl).bind_eq fun _ =>
    .report _ _

theorem tandem_enterCgroup (b : Blueprint) : Tandem Eq b.enterCgroup b.enterCgroup :=
  (Tandem.act (Cgroups.onDisk_init _)).bind_eq fun _ => Tandem.place_same fun _ => rfl

theorem tandem_prepareLoads (b : Blueprint) : Tandem Eq b.prepareLoads b.prepareLoads :=
  Tandem.tryCatch (Tandem.act (LoadPaths.onDisk_init _)) fun _ =>
    (Tandem.report _ _).bind_eq fun _ => .throw _

theorem tandem_nameBrokers (b : Blueprint) : Tandem Eq b.nameBrokers b.nameBrokers :=
  (Tandem.place_same fun _ => by rfl).bind_eq fun _ => .report _ _

theorem tandem_readSmallFiles (b : Blueprint) : Tandem Eq b.readSmallFiles b.readSmallFiles :=
  (Tandem.act (SmallFiles.onDisk_init _ _)).bind_eq fun _ => Tandem.place_same fun _ => rfl

theorem tandem_buildScanner (b : Blueprint) : Tandem Eq b.buildScanner b.buildScanner :=
  (Tandem.reporting _).bind_eq fun _ => (Tandem.ofExcept _).bind_eq fun _ =>
    Tandem.place_same fun _ => rfl

theorem tandem_openLoads (b : Blueprint) : Tandem Eq b.openLoads b.openLoads := by
  intro s t hst
  rw [run_openLoads, run_openLoads]
  unfold LoadChannels.init
  split_ifs
  · exact ⟨.error _, hst⟩
  · have hparts := congrArg
      (fun r => { r with loadChannels := { b.parts.loadChannels with tracker := some 0 } })
      hst.parts
    exact ⟨.ok rfl, ⟨hst.disk, hst.counting, hst.names, hst.metrics, hparts⟩⟩

theorem tandem_gauges : Tandem Eq gauges gauges := by
  refine Tandem.forM fun g hg => Tandem.gauge ?_ _
  revert g
  decide

/-- At sites that are alike, the same is built but for the numbers. -/
theorem tandem_build (b : Blueprint) : Tandem Eq b.build b.build :=
  (Tandem.adoptAll _).bind_eq fun _ =>
  (b.tandem_buildPool _ .sendBatchPool fun _ _ => by rfl).bind_eq fun _ =>
  b.tandem_buildDownloads.bind_eq fun _ =>
  b.tandem_startPipeline.bind_eq fun _ =>
  (Tandem.adoptAll _).bind_eq fun _ =>
  b.tandem_readSymbols.bind_eq fun _ =>
  (Tandem.adoptAll _).bind_eq fun _ =>
  (b.tandem_countClients (by decide) fun _ _ => by rfl).bind_eq fun _ =>
  (b.tandem_countClients (by decide) fun _ _ => by rfl).bind_eq fun _ =>
  (b.tandem_countClients (by decide) fun _ _ => by rfl).bind_eq fun _ =>
  b.tandem_startResultBuffers.bind_eq fun _ =>
  b.tandem_enterCgroup.bind_eq fun _ =>
  b.tandem_prepareLoads.bind_eq fun _ =>
  b.tandem_nameBrokers.bind_eq fun _ =>
  b.tandem_readSmallFiles.bind_eq fun _ =>
  b.tandem_buildScanner.bind_eq fun _ =>
  b.tandem_buildMemory.bind_eq fun _ =>
  b.tandem_openLoads.bind_eq fun _ =>
  (Tandem.adopt rfl).bind_eq fun _ => tandem_gauges

end Blueprint

end QueryHost
