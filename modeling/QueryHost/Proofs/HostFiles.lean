import QueryHost.Proofs.FailedInit
import QueryHost.Proofs.SparedFiles

/-!
# Files that a host leaves alone

However far the construction of a host gets, and whatever is called afterwards, a file that lies
neither below a directory of a store that is emptied at the start nor in the directory of the small
files is there with its content (`Host.spared_file_stays`).
-/

namespace QueryHost

open Disk (Intact)

namespace Construction

variable {α β : Type} {J : Disk → Prop}

/-- However it ends, the construction keeps what holds of the disk of the site. -/
abbrev KeepsSite (J : Disk → Prop) (x : Construction α) : Prop :=
  Keeps (fun site : Site => J site.scene.disk) x

namespace KeepsSite

theorem act {a : Act α} (h : Act.KeepsDisk J a) : KeepsSite J (Construction.act a) := by
  intro s hs
  rw [run_act]
  exact h s.scene hs

theorem ofExcept (e : Except Failure α) : KeepsSite J (Construction.ofExcept e) := by
  refine act ?_
  cases e with
  | error f => exact .fail f
  | ok x => exact .pure x

theorem report (lines : Log) : KeepsSite J (Construction.report lines) := act (.report lines)

theorem reporting (p : α × Log) : KeepsSite J (Construction.reporting p) :=
  (report p.2).bind fun _ => .pure _

theorem book (f : Accounts → Accounts × α) : KeepsSite J (Construction.act (Act.book f)) :=
  act fun _ hs => hs

theorem place (f : Resources → Resources) : KeepsSite J (Construction.place f) :=
  Keeps.alter fun _ hs => hs

theorem adopt (x : Subsystem) : KeepsSite J (Construction.adopt x) := by
  intro s hs
  rw [run_adopt]
  exact hs

theorem adoptAll (l : List Subsystem) : KeepsSite J (Blueprint.adoptAll l) :=
  Keeps.forM fun x _ => adopt x

theorem gauge (name help : String) (g : Gauge) : KeepsSite J (Construction.gauge name help g) :=
  Keeps.get.bind fun _ => (ofExcept _).bind fun _ => Keeps.alter fun _ hs => hs

end KeepsSite

end Construction

open Construction (KeepsSite)

section Building

variable {start : Disk} {stores : List Path} {small : Path} {J : Disk → Prop}

namespace Blueprint

/-! ## The memory environment -/

theorem keeps_bindOrphan : KeepsSite J bindOrphan := by
  intro s hs
  rw [run_bindOrphan]
  exact hs

theorem keeps_installHook (b : Blueprint) (orphan : TrackerId) :
    KeepsSite J (b.installHook orphan) := by
  intro s hs
  rw [run_installHook]
  split <;> exact hs

theorem keeps_buildPageCache (b : Blueprint) : KeepsSite J b.buildPageCache :=
  (KeepsSite.ofExcept _).bind fun _ => (KeepsSite.report _).bind fun _ =>
    (KeepsSite.ofExcept _).bind fun _ => (KeepsSite.place _).bind fun _ => KeepsSite.adopt _

theorem keeps_buildSegments (b : Blueprint) : KeepsSite J b.buildSegments :=
  (KeepsSite.report _).bind fun _ => (KeepsSite.place _).bind fun _ => KeepsSite.adopt _

theorem keeps_prepareTmpFiles (b : Blueprint) (hstores : b.storePaths ⊆ stores) :
    KeepsSite (Intact start stores small) b.prepareTmpFiles :=
  (KeepsSite.act (TmpFiles.keeps_init _ hstores)).bind fun _ => KeepsSite.place _

theorem keeps_buildChunks (b : Blueprint) (orphan : TrackerId) :
    KeepsSite J (b.buildChunks orphan) :=
  (KeepsSite.ofExcept _).bind fun _ => (KeepsSite.ofExcept _).bind fun _ =>
    (KeepsSite.report _).bind fun _ => (KeepsSite.book _).bind fun _ =>
      (KeepsSite.place _).bind fun _ => KeepsSite.adopt _

theorem keeps_buildMemory (b : Blueprint) (hstores : b.storePaths ⊆ stores) :
    KeepsSite (Intact start stores small) b.buildMemory :=
  keeps_bindOrphan.bind fun orphan => (b.keeps_installHook orphan).bind fun _ =>
    (KeepsSite.ofExcept _).bind fun _ => b.keeps_buildPageCache.bind fun _ =>
      b.keeps_buildSegments.bind fun _ => (b.keeps_prepareTmpFiles hstores).bind fun _ =>
        (KeepsSite.act (Spill.keeps_init _ hstores)).bind fun _ => b.keeps_buildChunks orphan

/-! ## The other parts -/

theorem keeps_buildPool (b : Blueprint) (shape : PoolShape) (s : Subsystem)
    (put : Crew Chore → Resources → Resources) : KeepsSite J (b.buildPool shape s put) :=
  (KeepsSite.ofExcept _).bind fun _ => (KeepsSite.report _).bind fun _ =>
    (KeepsSite.place _).bind fun _ => KeepsSite.adopt s

theorem keeps_buildDownloads (b : Blueprint) : KeepsSite J b.buildDownloads :=
  (b.keeps_buildPool _ _ _).bind fun _ => KeepsSite.adopt _

theorem keeps_startPipeline (b : Blueprint) : KeepsSite J b.startPipeline :=
  (KeepsSite.adopt _).bind fun _ => (KeepsSite.place _).bind fun _ =>
    (KeepsSite.ofExcept _).bind fun _ => KeepsSite.report _

theorem keeps_readSymbols (b : Blueprint) : KeepsSite J b.readSymbols :=
  (KeepsSite.act fun _ hs => hs).bind fun _ => (KeepsSite.ofExcept _).bind fun _ =>
    (KeepsSite.place _).bind fun _ => KeepsSite.adopt _

theorem keeps_countClients (b : Blueprint) (service : String)
    (put : IdleClients → Resources → Resources) : KeepsSite J (b.countClients service put) := by
  intro s hs
  rw [run_countClients]
  exact hs

theorem keeps_startResultBuffers (b : Blueprint) : KeepsSite J b.startResultBuffers :=
  (KeepsSite.ofExcept _).bind fun _ => (KeepsSite.place _).bind fun _ => KeepsSite.report _

theorem keeps_enterCgroup (b : Blueprint) : KeepsSite (Intact start stores small) b.enterCgroup :=
  (KeepsSite.act (Cgroups.keeps_init _)).bind fun _ => KeepsSite.place _

theorem keeps_prepareLoads (b : Blueprint) :
    KeepsSite (Intact start stores small) b.prepareLoads := by
  intro s hs
  have hinit := KeepsSite.act (LoadPaths.keeps_init b.parts.loadPaths) s hs
  rw [prepareLoads, Construction.run_tryCatch]
  split <;> rename_i hrun <;> rw [hrun] at hinit
  · exact hinit
  · exact ((KeepsSite.report _).bind fun _ => .throw _) _ hinit

theorem keeps_nameBrokers (b : Blueprint) : KeepsSite J b.nameBrokers :=
  (KeepsSite.place _).bind fun _ => KeepsSite.report _

theorem keeps_readSmallFiles (b : Blueprint) :
    KeepsSite (Intact start stores ⟨b.config.load.smallFileDir⟩) b.readSmallFiles :=
  (KeepsSite.act (SmallFiles.keeps_init md5Hex b.parts.smallFiles rfl)).bind fun _ =>
    KeepsSite.place _

theorem keeps_buildScanner (b : Blueprint) : KeepsSite J b.buildScanner :=
  (KeepsSite.reporting _).bind fun _ => (KeepsSite.ofExcept _).bind fun _ => KeepsSite.place _

theorem keeps_openLoads (b : Blueprint) : KeepsSite J b.openLoads :=
  (KeepsSite.act fun _ hs => hs).bind fun _ => (KeepsSite.ofExcept _).bind fun _ =>
    (KeepsSite.act fun _ hs => hs).bind fun _ => (KeepsSite.place _).bind fun _ =>
      KeepsSite.report _

theorem keeps_gauges : KeepsSite J gauges := Keeps.forM fun _ _ => KeepsSite.gauge _ _ _

/-- However far the construction gets, the spared files are there. -/
theorem keeps_build (b : Blueprint) (hstores : b.storePaths ⊆ stores) :
    KeepsSite (Intact start stores ⟨b.config.load.smallFileDir⟩) b.build :=
  (KeepsSite.adoptAll _).bind fun _ =>
  (b.keeps_buildPool _ .sendBatchPool _).bind fun _ =>
  b.keeps_buildDownloads.bind fun _ =>
  b.keeps_startPipeline.bind fun _ =>
  (KeepsSite.adoptAll _).bind fun _ =>
  b.keeps_readSymbols.bind fun _ =>
  (KeepsSite.adoptAll _).bind fun _ =>
  (b.keeps_countClients _ _).bind fun _ =>
  (b.keeps_countClients _ _).bind fun _ =>
  (b.keeps_countClients _ _).bind fun _ =>
  b.keeps_startResultBuffers.bind fun _ =>
  b.keeps_enterCgroup.bind fun _ =>
  b.keeps_prepareLoads.bind fun _ =>
  b.keeps_nameBrokers.bind fun _ =>
  b.keeps_readSmallFiles.bind fun _ =>
  b.keeps_buildScanner.bind fun _ =>
  (b.keeps_buildMemory hstores).bind fun _ =>
  b.keeps_openLoads.bind fun _ =>
  (KeepsSite.adopt .heartbeatFlags).bind fun _ => keeps_gauges

end Blueprint

end Building

/-! ## Runs of calls -/

def HostCall.stores : HostCall → List Path
  | .init _ stores => stores.map Path.mk
  | .destroy _ => []

namespace Host

variable {start : Disk} {stores : List Path} {small : Path} {h : Host}

/-- What is known of a host between two calls: its configuration and the spared files. -/
structure Spares (start : Disk) (stores : List Path) (small : Path) (h : Host) : Prop where
  small_eq : small = ⟨h.env.config.load.smallFileDir⟩
  disk : Intact start stores small h.scene.disk

/-- `init` leaves the files alone that are out of its way. -/
theorem Spares.init (hs : Spares start stores small h) (m : Machine) (own : List String)
    (hown : own.map Path.mk ⊆ stores) : Spares start stores small (h.call (.init m own)).1 := by
  obtain ⟨hsmall, hdisk⟩ := hs
  simp only [call, Environment.init]
  split
  · exact ⟨hsmall, hdisk⟩
  · exact ⟨hsmall, hdisk⟩
  · split
    · exact ⟨hsmall, hdisk⟩
    · have hkeeps : KeepsSite (Intact start stores _) _ :=
        Blueprint.keeps_build ⟨h.env.config, h.env.memory, h.env.capability, m, own⟩ hown
      have hbuild := hkeeps
        { scene := h.scene
          parts := Blueprint.parts ⟨h.env.config, h.env.memory, h.env.capability, m, own⟩
          metrics := h.env.metrics } (hsmall ▸ hdisk)
      split <;> rename_i hrun <;> rw [hrun] at hbuild
      · refine ⟨hsmall, ?_⟩
        show Intact start stores small (releaseAll [] _ _ _).2.disk
        rw [disk_releaseAll]
        exact hsmall ▸ hbuild
      · exact ⟨hsmall, hsmall ▸ hbuild⟩

theorem Spares.destroy (hs : Spares start stores small h) (held : List TrackerId) :
    Spares start stores small (h.call (.destroy held)).1 := by
  obtain ⟨hsmall, hdisk⟩ := hs
  simp only [call, Environment.destroy]
  split
  · refine ⟨hsmall, ?_⟩
    show Intact start stores small (releaseAll held _ _ _).2.disk
    rw [disk_releaseAll]
    exact hdisk
  · exact ⟨hsmall, hdisk⟩

theorem Spares.callAll : ∀ (calls : List HostCall) {h : Host}, Spares start stores small h →
    calls.flatMap HostCall.stores ⊆ stores →
      Spares start stores small (callAll Host.call h calls).1
  | [], _, hs, _ => hs
  | c :: calls, h, hs, hsub => by
    rw [List.flatMap_cons, List.append_subset] at hsub
    have hcall : Spares start stores small (h.call c).1 := by
      cases c with
      | init m own => exact hs.init m own hsub.1
      | destroy held => exact hs.destroy held
    exact Spares.callAll calls hcall hsub.2

/-- Whatever calls are made and however they end, a file that lies neither below a directory for
temporary files or spills of a store nor in the directory of the small files is there as it was. -/
theorem spared_file_stays (env : Environment) (s : Scene) (calls : List HostCall)
    (htree : s.disk.IsTree) {place : Place} {content : Bytes}
    (hfile : s.disk.entry? place = some (.file content))
    (hspared : s.disk.Spared (calls.flatMap HostCall.stores) ⟨env.config.load.smallFileDir⟩ place) :
    Disk.entry? (callAll Host.call ⟨env, s⟩ calls).1.scene.disk place = some (.file content) :=
  have hs : Spares s.disk (calls.flatMap HostCall.stores) ⟨env.config.load.smallFileDir⟩ ⟨env, s⟩ :=
    ⟨rfl, Disk.intact_self htree⟩
  (hs.callAll calls (List.Subset.refl _)).disk.files hspared hfile

/-- A store with a temporary file, a spilled block and a file of its own, and a directory of small
files with one that is none. -/
def livedScene : Scene where
  disk := { entries := ⟨[(["s"], .directory), (["s", "tmp"], .directory),
    (["s", "tmp", "t"], .file [1]), (["s", "spill"], .directory), (["s", "spill", "b"], .file [2]),
    (["s", "data"], .file [3]), (["small"], .directory), (["small", "x"], .file [4])], by decide⟩ }

def livedEnv : Environment :=
  .fresh { load := { smallFileDir := "/small" } } ⟨1000, 2000⟩ ⟨false, false, true⟩

def livedCalls : List HostCall := [.init bareMachine ["/s"], .destroy []]

/-- The host comes up and goes: the temporary file is no more, the file beside it is. -/
theorem spared_file_stays_lived : livedScene.disk.IsTree
    ∧ livedScene.disk.entry? ["s", "data"] = some (.file [3])
    ∧ livedScene.disk.Spared (livedCalls.flatMap HostCall.stores)
      ⟨livedEnv.config.load.smallFileDir⟩ ["s", "data"]
    ∧ Disk.entry? (callAll call ⟨livedEnv, livedScene⟩ livedCalls).1.scene.disk ["s", "data"]
      = some (.file [3])
    ∧ Disk.entry? (callAll call ⟨livedEnv, livedScene⟩ livedCalls).1.scene.disk ["s", "tmp", "t"]
      = none := by
  have htree : livedScene.disk.IsTree := by decide +kernel
  have hfile : livedScene.disk.entry? ["s", "data"] = some (.file [3]) := by decide +kernel
  have hspared : livedScene.disk.Spared (livedCalls.flatMap HostCall.stores)
      ⟨livedEnv.config.load.smallFileDir⟩ ["s", "data"] := by decide +kernel
  refine ⟨htree, hfile, hspared, ?_, by decide +kernel⟩
  exact spared_file_stays livedEnv livedScene livedCalls htree hfile hspared

end Host

end QueryHost
