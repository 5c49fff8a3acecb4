import QueryHost.Host.Building
import QueryHost.Proofs.DiskActs
import QueryHost.Proofs.Releases

/-!
# What a construction adopts

Whatever step of a construction fails, the site has grown by the subsystems that were adopted until
then, each under its own name: their names are among those that the step may adopt, in that order,
and the scene records each (`Site.Grows`). What counts allocations and what the thread is bound to
are subsystems of the site if they were so before, and only metrics of the host are registered.
-/

namespace QueryHost

/-! ## The metrics of the host -/

/-- The names of the host's metrics with their help texts. -/
def hostMetrics : List (String × String) :=
  (["backend", "frontend", "broker"].flatMap fun service =>
      [(service ++ "_client_cache_hits_total", service ++ " client cache hits"),
        (service ++ "_client_cache_misses_total", service ++ " client cache misses")])
    ++ (["send_batch_thread_pool", "download_cache_thread_pool"].flatMap fun pool =>
      [(pool ++ "_thread_num", pool ++ " worker threads"),
        (pool ++ "_queue_size", pool ++ " queued tasks")])
    ++ [("scanner_thread_pool_queue_size", "scanner thread pool queued tasks"),
      ("orphan_mem_tracker_consumption", "bytes charged to the Orphan mem tracker")]

theorem hostMetrics_functional : ∀ p ∈ hostMetrics, ∀ q ∈ hostMetrics, p.1 = q.1 → p.2 = q.2 := by
  decide

namespace Metrics

variable {σ : Type} {m m' : Metrics σ} {name help : String}

/-- Only metrics of the host were ever registered, and with the host's library. -/
structure Known (m : Metrics σ) : Prop where
  library : m.library = .prometheus
  helps : ∀ name help, m.helps.get? name = some help → (name, help) ∈ hostMetrics

/-- The help text of a metric of the host was never another one. -/
theorem Known.no_conflict (h : m.Known) (hmem : (name, help) ∈ hostMetrics) :
    (m.helps.get? name).any (· != help) = false := by
  cases hg : m.helps.get? name with
  | none => rfl
  | some help' =>
    have heq : help' = help := hostMetrics_functional _ (h.helps _ _ hg) _ hmem rfl
    simp [heq]

theorem Known.put (h : m.Known) (hmem : (name, help) ∈ hostMetrics)
    (hlibrary : m'.library = m.library) (hhelps : m'.helps = m.helps.put name help) :
    m'.Known := by
  refine ⟨hlibrary.trans h.library, fun name' help' hg => ?_⟩
  rw [hhelps, Assoc.get?_put] at hg
  split at hg
  · rename_i hname
    exact hname ▸ Option.some.inj hg ▸ hmem
  · exact h.helps _ _ hg

/-- The counts do not matter. -/
theorem Known.setCounters (h : m.Known) (counters : List Nat) : Known { m with counters } :=
  ⟨h.library, h.helps⟩

theorem register_cases {source : MetricSource σ} (hr : m.register name help source = .ok m') :
    m.registered.contains name = false
      ∧ m' = { m with
          registered := m.registered.put name ⟨help, source⟩
          helps := m.helps.put name help } := by
  unfold register at hr
  split at hr
  · exact nomatch hr
  · split_ifs at hr with hc
    exact ⟨by simpa using hc, (Except.ok.inj hr).symm⟩

theorem Known.register {source : MetricSource σ} (h : m.Known) (hmem : (name, help) ∈ hostMetrics)
    (hr : m.register name help source = .ok m') : m'.Known := by
  obtain ⟨-, rfl⟩ := register_cases hr
  exact h.put hmem rfl rfl

theorem Known.registerCounter {id : CounterId} (h : m.Known) (hmem : (name, help) ∈ hostMetrics)
    (hr : m.registerCounter name help = .ok (m', id)) : m'.Known := by
  unfold Metrics.registerCounter at hr
  cases hm : m.register name help (.counter m.counters.length) with
  | error f => simp [hm, bind, Except.bind] at hr
  | ok n =>
    simp only [hm, bind, Except.bind, pure, Except.pure] at hr
    obtain ⟨rfl, -⟩ := Prod.mk.inj (Except.ok.inj hr)
    exact (h.register hmem hm).setCounters _

end Metrics

theorem hostMetrics_of_service : ∀ service ∈ ["backend", "frontend", "broker"],
    (service ++ "_client_cache_hits_total", service ++ " client cache hits") ∈ hostMetrics
      ∧ (service ++ "_client_cache_misses_total", service ++ " client cache misses")
        ∈ hostMetrics := by
  decide

theorem IdleClients.known_initMetrics (c : IdleClients) {m : Metrics Gauge} {service : String}
    (h : m.Known) (hmem : service ∈ ["backend", "frontend", "broker"]) :
    (c.initMetrics m service).2.1.Known := by
  obtain ⟨hhits, hmisses⟩ := hostMetrics_of_service service hmem
  unfold initMetrics
  split
  · exact h
  · rename_i m₁ hits h₁
    have hk₁ := h.registerCounter hhits h₁
    split
    · exact hk₁
    · rename_i m₂ misses h₂
      have hk₂ := hk₁.registerCounter hmisses h₂
      split <;> exact hk₂

/-! ## Growth of a site -/

/-- The subsystems of a site, in the order of their adoption. -/
def Site.subsystems (s : Site) : List Subsystem := s.scope.entries.map (·.subsystem)

/-- A site has grown by subsystems with all of the `sure` names and some of all `names`, in this
order. -/
structure Site.Grows (sure names : List String) (s t : Site) : Prop where
  adopted : ∃ added : List Subsystem,
    t.scope.entries = s.scope.entries ++ added.map (fun x => ⟨x.name, x⟩)
    ∧ sure.Sublist (added.map (·.name)) ∧ (added.map (·.name)).Sublist names
    ∧ t.scene.lives = s.scene.lives ++ added.map .adopted
  counts : s.scene.accounts.CountsBy s.scope.entries → t.scene.accounts.CountsBy t.scope.entries
  bound : s.scene.accounts.BoundBy s.scope.entries → t.scene.accounts.BoundBy t.scope.entries
  known : s.metrics.Known → t.metrics.Known

namespace Site.Grows

variable {sure sure' names names' : List String} {s t u : Site}

theorem refl (s : Site) : Grows [] [] s s :=
  ⟨⟨[], by simp⟩, id, id, id⟩

theorem trans (h : Grows sure names s t) (h' : Grows sure' names' t u) :
    Grows (sure ++ sure') (names ++ names') s u := by
  obtain ⟨added, hentries, hsure, hnames, hlives⟩ := h.adopted
  obtain ⟨added', hentries', hsure', hnames', hlives'⟩ := h'.adopted
  refine ⟨⟨added ++ added', ?_, ?_, ?_, ?_⟩, h'.counts ∘ h.counts, h'.bound ∘ h.bound,
    h'.known ∘ h.known⟩
  · rw [hentries', hentries, List.append_assoc, List.map_append]
  · rw [List.map_append]
    exact hsure.append hsure'
  · rw [List.map_append]
    exact hnames.append hnames'
  · rw [hlives', hlives, List.map_append, List.append_assoc]

theorem mono (h : Grows sure names s t) (hsure : sure'.Sublist sure)
    (hnames : names.Sublist names') : Grows sure' names' s t := by
  obtain ⟨added, hentries, hadded, hamong, hlives⟩ := h.adopted
  exact ⟨⟨added, hentries, hsure.trans hadded, hamong.trans hnames, hlives⟩, h.counts, h.bound,
    h.known⟩

/-- Neither subsystems nor metrics, hooks or bindings have changed. -/
theorem of_scene {scene : Scene} {parts : Resources}
    (hcounting : scene.accounts.hooks.counting = s.scene.accounts.hooks.counting)
    (hhooks : scene.accounts.hooks.hooks = s.scene.accounts.hooks.hooks)
    (hbound : scene.accounts.bound = s.scene.accounts.bound)
    (hlives : scene.lives = s.scene.lives) : Grows [] [] s { s with scene, parts } := by
  refine ⟨⟨[], by simp [hlives]⟩, fun h => ?_, fun h => ?_, id⟩
  · simpa only [Accounts.CountsBy, AllocationHooks.isActive, hcounting, hhooks] using h
  · simpa only [Accounts.BoundBy, hbound] using h

/-- What has grown out of nothing. -/
theorem of_empty {scene : Scene} {parts : Resources} {metrics : Metrics Gauge}
    (h : Grows sure names { scene, parts, metrics } t) :
    sure.Sublist t.scope.names ∧ t.scope.names.Sublist names
      ∧ t.scope.names = t.subsystems.map (·.name)
      ∧ t.scene.lives = scene.lives ++ t.subsystems.map .adopted := by
  obtain ⟨added, hentries, hsure, hnames, hlives⟩ := h.adopted
  have hsubsystems : t.subsystems = added := by
    simp [Site.subsystems, hentries, Function.comp_def]
  have htexts : t.scope.names = added.map (·.name) := by
    simp [Scope.names, hentries, Function.comp_def]
  rw [hsubsystems, htexts]
  exact ⟨hsure, hnames, rfl, hlives⟩

end Site.Grows

namespace Construction

variable {α β : Type} {sure sure' names names' : List String}

/-- However it ends, the construction lets the site grow by subsystems with these names. -/
def Adopts (sure names : List String) (x : Construction α) : Prop :=
  ∀ s : Site, Site.Grows sure names s (x.run.run s).2

theorem run_get (s : Site) : (get : Construction Site).run.run s = (.ok s, s) := rfl

theorem run_act (a : Act α) (s : Site) : (act a).run.run s =
    ((a.run.run s.scene).1, { s with scene := (a.run.run s.scene).2 }) := by
  rw [act, run_bind, run_get]
  simp only []
  rcases a.run.run s.scene with ⟨_ | x, scene⟩ <;> rfl

theorem run_tryCatch (x : Construction α) (handler : Failure → Construction α) (s : Site) :
    (tryCatch x handler).run.run s =
      match x.run.run s with
      | (.ok v, t) => (.ok v, t)
      | (.error f, t) => (handler f).run.run t := by
  rcases h : x.run.run s with ⟨r, t⟩
  have hx : StateT.run x s = (r, t) := h
  simp only [tryCatch, tryCatchThe, MonadExceptOf.tryCatch, ExceptT.tryCatch, ExceptT.run_mk,
    StateT.run_bind, hx]
  cases r <;> rfl

theorem run_place (f : Resources → Resources) (s : Site) :
    (place f).run.run s = (.ok (), { s with parts := f s.parts }) := rfl

theorem run_adopt (x : Subsystem) (s : Site) : (adopt x).run.run s =
    (.ok (), { s with
      scope := s.scope.adopt x.name x
      scene := { s.scene with
        lives := s.scene.lives ++ [.adopted x]
        log := s.scene.log ++ Scope.adoptionLog x.name } }) := rfl

theorem run_gauge (name help : String) (g : Gauge) (s : Site) : (gauge name help g).run.run s =
    match s.metrics.registerGauge name help g with
    | .ok m => (.ok (), { s with metrics := m })
    | .error f => (.error f, s) := by
  rw [gauge, run_bind, run_get]
  simp only []
  rw [run_bind, ofExcept, run_act]
  cases s.metrics.registerGauge name help g <;> rfl

theorem run_book (f : Accounts → Accounts × α) (s : Site) : (act (Act.book f)).run.run s =
    (.ok (f s.scene.accounts).2,
      { s with scene := { s.scene with accounts := (f s.scene.accounts).1 } }) := by
  rw [run_act]
  rfl

namespace Adopts

theorem pure (x : α) : Adopts [] [] (Pure.pure x : Construction α) := Site.Grows.refl

theorem mono {x : Construction α} (h : Adopts sure names x) (hsure : sure'.Sublist sure)
    (hnames : names.Sublist names') : Adopts sure' names' x := fun s => (h s).mono hsure hnames

/-- What follows may not be reached, so that nothing in it is sure. -/
theorem bind {x : Construction α} {f : α → Construction β} (hx : Adopts sure names x)
    (hf : ∀ v, Adopts sure' names' (f v)) : Adopts sure (names ++ names') (x >>= f) := by
  intro s
  have hgrows := hx s
  rw [run_bind]
  rcases hrun : x.run.run s with ⟨e | v, t⟩ <;> rw [hrun] at hgrows
  · exact hgrows.mono (List.Sublist.refl _) (List.sublist_append_left _ _)
  · exact (hgrows.trans (hf v t)).mono (List.sublist_append_left _ _) (List.Sublist.refl _)

theorem act {a : Act α} (h : a.OnDisk) : Adopts [] [] (Construction.act a) := by
  intro s
  obtain ⟨r, d, lines, hrun⟩ := h s.scene.disk
  rw [run_act, hrun _ rfl]
  exact .of_scene rfl rfl rfl rfl

theorem ofExcept (e : Except Failure α) : Adopts [] [] (Construction.ofExcept e) :=
  act (.ofExcept e)

theorem throw (f : Failure) : Adopts [] [] (MonadExcept.throw f : Construction α) := Site.Grows.refl

theorem tryCatch {x : Construction α} {handler : Failure → Construction α}
    (hx : Adopts sure names x) (hh : ∀ f, Adopts sure' names' (handler f)) :
    Adopts sure (names ++ names') (MonadExcept.tryCatch x handler) := by
  intro s
  have hgrows := hx s
  rw [run_tryCatch]
  rcases hrun : x.run.run s with ⟨f | v, t⟩ <;> rw [hrun] at hgrows
  · exact (hgrows.trans (hh f t)).mono (List.sublist_append_left _ _) (List.Sublist.refl _)
  · exact hgrows.mono (List.Sublist.refl _) (List.sublist_append_left _ _)

theorem report (lines : Log) : Adopts [] [] (Construction.report lines) := act (.report lines)

theorem reporting (p : α × Log) : Adopts [] [] (Construction.reporting p) :=
  (report p.2).bind fun _ => pure _

theorem place (f : Resources → Resources) : Adopts [] [] (Construction.place f) :=
  fun s => by
    rw [run_place]
    exact .of_scene rfl rfl rfl rfl

theorem adopt (x : Subsystem) : Adopts [x.name] [x.name] (Construction.adopt x) := by
  intro s
  rw [run_adopt]
  exact ⟨⟨[x], rfl, List.Sublist.refl _, List.Sublist.refl _, rfl⟩,
    fun h => h.mono fun _ => List.mem_append_left _,
    fun h => h.mono fun _ => List.mem_append_left _, id⟩

theorem adoptAll : ∀ l : List Subsystem,
    Adopts (l.map (·.name)) (l.map (·.name)) (Blueprint.adoptAll l)
  | [] => pure ()
  | x :: l => fun s => by
    have h : (Blueprint.adoptAll (x :: l)).run.run s = (Construction.adopt x >>= fun _ =>
      Blueprint.adoptAll l).run.run s := rfl
    rw [h, run_bind, run_adopt]
    exact (adopt x s).trans (adoptAll l _)

theorem forM {f : α → Construction Unit} : ∀ {l : List α}, (∀ x ∈ l, Adopts [] [] (f x)) →
    Adopts [] [] (l.forM f)
  | [], _ => pure ()
  | x :: _, h => (h x List.mem_cons_self).bind fun _ =>
      forM fun y hy => h y (List.mem_cons_of_mem x hy)

/-- An account that leaves the hooks and the binding alone. -/
theorem book {f : Accounts → Accounts × α} (hhooks : ∀ a, (f a).1.hooks = a.hooks)
    (hbound : ∀ a, (f a).1.bound = a.bound) : Adopts [] [] (Construction.act (Act.book f)) := by
  intro s
  rw [run_book]
  exact .of_scene (congrArg _ (hhooks _)) (congrArg _ (hhooks _)) (hbound _) rfl

theorem gauge {name help : String} (hmem : (name, help) ∈ hostMetrics) (g : Gauge) :
    Adopts [] [] (Construction.gauge name help g) := by
  intro s
  rw [run_gauge]
  split
  · rename_i m hm
    exact ⟨⟨[], by simp⟩, id, id, fun hk => hk.register hmem hm⟩
  · exact .refl s

end Adopts

end Construction

/-! ## The memory environment -/

/-- A hook is installed, or nothing changes but the counters. -/
theorem AllocationHooks.install_cases (h : AllocationHooks) (refuses : ThreadRefusals)
    (c : HookCapability) (t : TrackerId) :
    (∃ allocated freed lines, h.install refuses c t = ({ h with allocated, freed }, none, lines))
      ∨ h.install refuses c t
        = (⟨true, 0, 0, h.hooks ++ [{ tracker := t }]⟩, some h.hooks.length, []) := by
  unfold install
  split_ifs
  · exact .inl ⟨_, _, _, rfl⟩
  · exact .inl ⟨_, _, _, rfl⟩
  · split
    · exact .inl ⟨_, _, _, rfl⟩
    · exact .inr rfl

namespace Blueprint

open Construction (Adopts)

theorem run_bindOrphan (s : Site) : bindOrphan.run.run s =
    let orphan := s.scene.accounts.trackers.nodes.length
    (.ok orphan, { s with
      scope := s.scope.adopt "orphan_mem_tracker" (.orphanTracker orphan)
      parts := { s.parts with memory.orphan := orphan }
      scene := { s.scene with
        accounts := { (s.scene.accounts.newRoot .global orphanLabel).1 with bound := some orphan }
        lives := s.scene.lives ++ [.adopted (.orphanTracker orphan)]
        log := s.scene.log ++ Scope.adoptionLog "orphan_mem_tracker" } }) := rfl

/-- The thread is bound to a tracker that is then adopted. -/
theorem adopts_bindOrphan : Adopts [] ["orphan_mem_tracker"] bindOrphan := by
  intro s
  rw [run_bindOrphan]
  refine ⟨⟨[_], rfl, List.nil_sublist _, List.Sublist.refl _, rfl⟩, fun h => ?_, fun _ t ht => ?_,
    id⟩
  · exact Accounts.CountsBy.mono h fun _ => List.mem_append_left _
  · exact ⟨_, List.mem_append_right _ List.mem_cons_self, congrArg _ (Option.some.inj ht)⟩

/-- What is said of a hook that was installed. -/
def installedLine : LogLine :=
  ⟨.debug, "allocation hook installed, accounting into " ++ orphanLabel⟩

/-- What `installHook` does to a site. -/
theorem run_installHook (b : Blueprint) (orphan : TrackerId) (s : Site) :
    (b.installHook orphan).run.run s =
      match s.scene.accounts.hooks.install b.machine.refuses b.capability orphan with
      | (hooks, none, lines) => (.ok (), { s with
          scene := { s.scene with
            accounts := { s.scene.accounts with hooks }, log := s.scene.log ++ lines } })
      | (hooks, some h, lines) => (.ok (), { s with
          scope := s.scope.adopt "alloc_hook" (.allocationHook h)
          parts := { s.parts with memory.hook := some h }
          scene := { s.scene with
            accounts := { s.scene.accounts with hooks }
            lives := s.scene.lives ++ [.adopted (.allocationHook h)]
            log := s.scene.log ++ lines ++ [installedLine]
              ++ Scope.adoptionLog "alloc_hook" } }) := by
  rw [installHook, run_bind, Construction.run_book, Accounts.install]
  rcases s.scene.accounts.hooks.install b.machine.refuses b.capability orphan
    with ⟨hooks, _ | h, lines⟩ <;> rfl

theorem adopts_installHook (b : Blueprint) (orphan : TrackerId) :
    Adopts [] ["alloc_hook"] (b.installHook orphan) := by
  intro s
  rw [run_installHook]
  rcases s.scene.accounts.hooks.install_cases b.machine.refuses b.capability orphan
    with ⟨allocated, freed, lines, heq⟩ | heq
  · rw [heq]
    simp only []
    refine (?_ : Site.Grows [] [] s _).mono (List.Sublist.refl _) (List.nil_sublist _)
    exact .of_scene rfl rfl rfl rfl
  · rw [heq]
    simp only []
    refine ⟨⟨[_], rfl, List.nil_sublist _, List.Sublist.refl _, rfl⟩, fun _ _ => ?_, fun h => ?_,
      id⟩
    · exact ⟨_, List.mem_append_right _ List.mem_cons_self, _, rfl, { tracker := orphan }, by simp,
        rfl⟩
    · exact Accounts.BoundBy.mono h fun _ => List.mem_append_left _

theorem adopts_buildPageCache (b : Blueprint) : Adopts [] ["storage_page_cache"] b.buildPageCache :=
  (Adopts.ofExcept _).bind fun _ => (Adopts.report _).bind fun _ =>
    (Adopts.ofExcept _).bind fun _ => (Adopts.place _).bind fun _ => .adopt .pageCache

theorem adopts_buildSegments (b : Blueprint) : Adopts [] ["segment_loader"] b.buildSegments :=
  (Adopts.report _).bind fun _ => (Adopts.place _).bind fun _ => .adopt .segmentLoader

theorem adopts_prepareTmpFiles (b : Blueprint) : Adopts [] [] b.prepareTmpFiles :=
  (Adopts.act (TmpFiles.onDisk_init _)).bind fun _ => .place _

theorem adopts_buildChunks (b : Blueprint) (orphan : TrackerId) :
    Adopts [] ["chunk_allocator"] (b.buildChunks orphan) :=
  (Adopts.ofExcept _).bind fun _ => (Adopts.ofExcept _).bind fun _ =>
    (Adopts.report _).bind fun _ => (Adopts.book (fun _ => rfl) fun _ => rfl).bind fun _ =>
      (Adopts.place _).bind fun _ => .adopt .chunkAllocator

theorem adopts_buildMemory (b : Blueprint) :
    Adopts [] ["orphan_mem_tracker", "alloc_hook", "storage_page_cache", "segment_loader",
      "chunk_allocator"] b.buildMemory :=
  adopts_bindOrphan.bind fun orphan => (b.adopts_installHook orphan).bind fun _ =>
    (Adopts.ofExcept _).bind fun _ => b.adopts_buildPageCache.bind fun _ =>
      b.adopts_buildSegments.bind fun _ => b.adopts_prepareTmpFiles.bind fun _ =>
        (Adopts.act (Spill.onDisk_init _)).bind fun _ => b.adopts_buildChunks orphan

/-! ## The other parts -/

theorem adopts_buildPool (b : Blueprint) (shape : PoolShape) (s : Subsystem)
    (put : Crew Chore → Resources → Resources) : Adopts [] [s.name] (b.buildPool shape s put) :=
  (Adopts.ofExcept _).bind fun _ => (Adopts.report _).bind fun _ =>
    (Adopts.place _).bind fun _ => .adopt s

theorem adopts_buildDownloads (b : Blueprint) :
    Adopts [] ["download_cache_thread_pool", "download_cache"] b.buildDownloads :=
  (b.adopts_buildPool _ .downloadPool _).bind fun _ => .adopt .downloadCache

theorem adopts_startPipeline (b : Blueprint) :
    Adopts ["pipeline_task_scheduler"] ["pipeline_task_scheduler"] b.startPipeline :=
  (Adopts.adopt .pipeline).bind fun _ => (Adopts.place _).bind fun _ =>
    (Adopts.ofExcept _).bind fun _ => .report _

theorem adopts_readSymbols (b : Blueprint) : Adopts [] ["bfd_parser"] b.readSymbols :=
  (Adopts.act .disk).bind fun _ => (Adopts.ofExcept _).bind fun _ =>
    (Adopts.place _).bind fun _ => .adopt .symbols

theorem run_countClients (b : Blueprint) (service : String)
    (put : IdleClients → Resources → Resources) (s : Site) :
    (b.countClients service put).run.run s =
      ((b.idleClients.initMetrics s.metrics service).2.2, { s with
        metrics := (b.idleClients.initMetrics s.metrics service).2.1
        parts := put (b.idleClients.initMetrics s.metrics service).1 s.parts }) := by
  rw [countClients, run_bind, Construction.run_get]
  simp only []
  generalize b.idleClients.initMetrics s.metrics service = p
  rcases p with ⟨c, metrics, f | _⟩ <;> rfl

theorem adopts_countClients (b : Blueprint) {service : String}
    (hmem : service ∈ ["backend", "frontend", "broker"])
    (put : IdleClients → Resources → Resources) : Adopts [] [] (b.countClients service put) := by
  intro s
  rw [run_countClients]
  exact ⟨⟨[], by simp⟩, id, id, fun hk => b.idleClients.known_initMetrics hk hmem⟩

theorem adopts_startResultBuffers (b : Blueprint) : Adopts [] [] b.startResultBuffers :=
  (Adopts.ofExcept _).bind fun _ => (Adopts.place _).bind fun _ => .report _

theorem adopts_enterCgroup (b : Blueprint) : Adopts [] [] b.enterCgroup :=
  (Adopts.act (Cgroups.onDisk_init _)).bind fun _ => .place _

theorem adopts_prepareLoads (b : Blueprint) : Adopts [] [] b.prepareLoads :=
  Adopts.tryCatch (Adopts.act (LoadPaths.onDisk_init _)) fun _ =>
    (Adopts.report _).bind fun _ => .throw _

theorem adopts_nameBrokers (b : Blueprint) : Adopts [] [] b.nameBrokers :=
  (Adopts.place _).bind fun _ => .report _

theorem adopts_readSmallFiles (b : Blueprint) : Adopts [] [] b.readSmallFiles :=
  (Adopts.act (SmallFiles.onDisk_init _ _)).bind fun _ => .place _

theorem adopts_buildScanner (b : Blueprint) : Adopts [] [] b.buildScanner :=
  (Adopts.reporting _).bind fun _ => (Adopts.ofExcept _).bind fun _ => .place _

theorem run_openLoads (b : Blueprint) (s : Site) : b.openLoads.run.run s =
    match b.parts.loadChannels.init s.scene.accounts.trackers b.memory.limit with
    | .error f => (.error f, s)
    | .ok (loadChannels, trackers, log) => (.ok (), { s with
        parts := { s.parts with loadChannels }
        scene := { s.scene with
          accounts := { s.scene.accounts with trackers }, log := s.scene.log ++ log } }) := by
  have haccounts : (Construction.act Act.accounts).run.run s = (.ok s.scene.accounts, s) := rfl
  rw [openLoads, run_bind, haccounts]
  simp only []
  rw [run_bind, Construction.ofExcept, Construction.run_act]
  rcases b.parts.loadChannels.init s.scene.accounts.trackers b.memory.limit
    with f | ⟨c, trackers, log⟩ <;> rfl

theorem adopts_openLoads (b : Blueprint) : Adopts [] [] b.openLoads := by
  intro s
  rw [run_openLoads]
  split
  · exact .refl s
  · exact .of_scene rfl rfl rfl rfl

theorem adopts_gauges : Adopts [] [] gauges := by
  refine Adopts.forM fun g hg => Adopts.gauge ?_ _
  revert g
  decide

/-- The names of all subsystems in the order of their adoption. -/
def subsystemOrder : List String :=
  ["external_scan_context_mgr", "data_stream_mgr", "result_buffer_mgr", "result_queue_mgr",
    "backend_client_cache", "frontend_client_cache", "broker_client_cache", "thread_resource_mgr",
    "send_batch_thread_pool", "download_cache_thread_pool", "download_cache",
    "pipeline_task_scheduler", "scanner_scheduler", "cgroups_mgr", "fragment_mgr", "result_cache",
    "master_info", "load_path_mgr", "tmp_file_mgr", "bfd_parser", "broker_mgr", "load_channel_mgr",
    "load_stream_mgr", "new_load_stream_mgr", "internal_client_cache", "function_client_cache",
    "stream_load_executor", "routine_load_task_executor", "small_file_mgr", "storage_policy_mgr",
    "block_spill_mgr", "orphan_mem_tracker", "alloc_hook", "storage_page_cache", "segment_loader",
    "chunk_allocator", "heartbeat_flags"]

theorem nodup_subsystemOrder : subsystemOrder.Nodup := by decide

/-- However far the construction gets, it adopts every subsystem at most once and in one order. -/
theorem adopts_build (b : Blueprint) :
    Adopts (subsystemOrder.take 8) subsystemOrder b.build :=
  Adopts.mono
    ((Adopts.adoptAll _).bind fun _ =>
      (b.adopts_buildPool _ .sendBatchPool _).bind fun _ =>
      b.adopts_buildDownloads.bind fun _ =>
      b.adopts_startPipeline.bind fun _ =>
      (Adopts.adoptAll _).bind fun _ =>
      b.adopts_readSymbols.bind fun _ =>
      (Adopts.adoptAll _).bind fun _ =>
      (b.adopts_countClients (by decide) _).bind fun _ =>
      (b.adopts_countClients (by decide) _).bind fun _ =>
      (b.adopts_countClients (by decide) _).bind fun _ =>
      b.adopts_startResultBuffers.bind fun _ =>
      b.adopts_enterCgroup.bind fun _ =>
      b.adopts_prepareLoads.bind fun _ =>
      b.adopts_nameBrokers.bind fun _ =>
      b.adopts_readSmallFiles.bind fun _ =>
      b.adopts_buildScanner.bind fun _ =>
      b.adopts_buildMemory.bind fun _ =>
      b.adopts_openLoads.bind fun _ =>
      (Adopts.adopt .heartbeatFlags).bind fun _ =>
      adopts_gauges)
    (List.Sublist.refl _) (List.Sublist.refl _)

end Blueprint

end QueryHost
