import QueryHost.Proofs.DiskActs
import QueryHost.Proofs.DiskSteps

/-!
# Files out of the way

The managers of directories empty those for temporary files and spills in the stores, and remove
what is no valid small file from the directory of these. A file that lies elsewhere is spared
(`Disk.Spared`), and each of the managers leaves a tree in which the spared files are as they were
(`Disk.Intact`). What is known of the disk is kept by each action on it (`Keeps`), so that a
succession of actions keeps it step by step.
-/

namespace QueryHost

/-! ## What actions keep -/

section Keeps

variable {σ α β : Type} {I : σ → Prop}

/-- However it ends, the action keeps what holds of the state. -/
def Keeps (I : σ → Prop) (a : ExceptT Failure (StateM σ) α) : Prop :=
  ∀ s, I s → I (a.run.run s).2

namespace Keeps

theorem bind {a : ExceptT Failure (StateM σ) α} {f : α → ExceptT Failure (StateM σ) β}
    (ha : Keeps I a) (hf : ∀ x, Keeps I (f x)) : Keeps I (a >>= f) := by
  intro s hs
  have hkept := ha s hs
  rw [run_bind]
  rcases hrun : a.run.run s with ⟨e | x, t⟩ <;> rw [hrun] at hkept
  · exact hkept
  · exact hf x t hkept

theorem pure (x : α) : Keeps I (Pure.pure x : ExceptT Failure (StateM σ) α) := fun _ hs => hs

theorem throw (f : Failure) : Keeps I (MonadExcept.throw f : ExceptT Failure (StateM σ) α) :=
  fun _ hs => hs

theorem get : Keeps I (MonadState.get : ExceptT Failure (StateM σ) σ) := fun _ hs => hs

theorem alter {f : σ → σ} (h : ∀ s, I s → I (f s)) :
    Keeps I (modify f : ExceptT Failure (StateM σ) PUnit) := h

theorem forM {f : α → ExceptT Failure (StateM σ) PUnit} : ∀ {l : List α},
    (∀ x ∈ l, Keeps I (f x)) → Keeps I (l.forM f)
  | [], _ => pure _
  | x :: _, h => (h x List.mem_cons_self).bind fun _ =>
      forM fun y hy => h y (List.mem_cons_of_mem x hy)

end Keeps

end Keeps

namespace Act

variable {α β : Type} {J : Disk → Prop} {a : Act α}

/-- However it ends, the action keeps what holds of the disk. -/
abbrev KeepsDisk (J : Disk → Prop) (a : Act α) : Prop := Keeps (fun s : Scene => J s.disk) a

namespace KeepsDisk

theorem report (lines : Log) : KeepsDisk J (Act.report lines) := fun _ hs => hs

theorem fail (f : Failure) : KeepsDisk J (Act.fail f : Act α) := fun _ hs => hs

/-- What follows a look at the disk need only be known for disks of the kind that is kept. -/
theorem disk_bind {f : Disk → Act β} (h : ∀ d, J d → KeepsDisk J (f d)) :
    KeepsDisk J (Act.disk >>= f) := fun s hs => h s.disk hs s hs

theorem setDisk {d : Disk} (h : J d) : KeepsDisk J (Act.setDisk d) := fun _ _ => h

theorem change {context : String} {f : Disk → Except IoFault Disk}
    (h : ∀ d d', J d → f d = .ok d' → J d') : KeepsDisk J (Act.change context f) := by
  refine disk_bind fun d hd => ?_
  split
  · rename_i hok
    exact setDisk (h _ _ hd hok)
  · exact fail _

theorem attempt {f : Disk → Disk × Except IoFault Unit} (h : ∀ d, J d → J (f d).1) :
    KeepsDisk J (Act.attempt f) :=
  disk_bind fun d hd => (setDisk (h d hd)).bind fun _ => .pure _

theorem makeDirectories (h : ∀ d d', J d → d.Grows d' → J d') (context : String) (p : Path) :
    KeepsDisk J (Act.makeDirectories context p) := by
  refine (attempt fun d hd => h _ _ hd (d.grows_makeDirectories p)).bind fun r => ?_
  split
  · exact .pure _
  · exact fail _

end KeepsDisk

end Act

open Act (KeepsDisk)

/-! ## Files out of the way -/

namespace Disk

variable {start d d' : Disk} {stores : List Path} {small store : Path} {place source parent : Place}
  {name : String}

/-- The directories of a store that are emptied. -/
def scratchNames : List String := ["tmp", "spill", "spill_gc"]

theorem isName_of_scratch : ∀ name ∈ scratchNames, IsName name := by decide

/-- A place that lies neither below a directory of a store that is emptied nor, as an entry of it,
in the directory of the small files. -/
def Spared (d : Disk) (stores : List Path) (small : Path) (place : Place) : Prop :=
  (∀ store ∈ stores, ∀ name ∈ scratchNames,
    ¬(d.placeOf (store / name) <+: place ∧ place ≠ d.placeOf (store / name)))
  ∧ (small.text ≠ "" → place.dropLast ≠ d.placeOf small)

instance : Decidable (d.Spared stores small place) := inferInstanceAs (Decidable (_ ∧ _))

/-- The disk is a tree, and all spared files of `start` are there. -/
structure Intact (start : Disk) (stores : List Path) (small : Path) (d : Disk) : Prop where
  tree : d.IsTree
  workplace : d.workplace = start.workplace
  files : ∀ {place content}, start.Spared stores small place →
    start.entry? place = some (.file content) → d.entry? place = some (.file content)

theorem intact_self (h : d.IsTree) : Intact d stores small d := ⟨h, rfl, fun _ he => he⟩

theorem Intact.placeOf (h : Intact start stores small d) (p : Path) :
    d.placeOf p = start.placeOf p := placeOf_congr h.workplace p

theorem Intact.grows (h : Intact start stores small d) (hg : d.Grows d') :
    Intact start stores small d' :=
  ⟨hg.tree h.tree, hg.workplace.trans h.workplace, fun hs he => hg.kept (h.files hs he)⟩

theorem Intact.erase (h : Intact start stores small d) (hne : place ≠ [])
    (hout : ∀ k content, start.Spared stores small k → d.entry? k = some (.file content) →
      ¬place <+: k) : Intact start stores small (d.erase place) := by
  refine ⟨h.tree.erase hne, h.workplace, fun hs he => ?_⟩
  have he' := h.files hs he
  rw [entry_erase hne, if_neg (hout _ _ hs he')]
  exact he'

theorem Intact.relocate (h : Intact start stores small d) (hsource : source ≠ [])
    (hname : IsName name) (hdir : d.entry? parent = some .directory)
    (hapart : ¬source <+: parent ++ [name])
    (hfrom : ∀ k, start.Spared stores small k → ¬source <+: k)
    (hto : ∀ k, start.Spared stores small k → ¬parent ++ [name] <+: k) :
    Intact start stores small (d.relocate source (parent ++ [name])) := by
  refine ⟨h.tree.relocate hsource hname hdir hapart, (workplace_relocate _ _ _).trans h.workplace,
    fun hs he => ?_⟩
  rw [entry_relocate hsource (by simp), if_neg (hto _ hs), if_neg (hfrom _ hs)]
  exact h.files hs he

/-- What lies in a scratch directory is not spared. -/
theorem Spared.not_in_scratch {k : Place} {dir : String} (h : start.Spared stores small k)
    (hstore : store ∈ stores) (hdir : dir ∈ scratchNames) (name : String) :
    ¬start.placeOf (store / dir) ++ [name] <+: k := by
  intro hpre
  refine h.1 store hstore dir hdir ⟨(List.prefix_append _ _).trans hpre, ?_⟩
  rintro rfl
  simpa using hpre.length_le

/-- A directory that is emptied may be taken away. -/
theorem Intact.removeTree {dir : String} (h : Intact start stores small d) (hstore : store ∈ stores)
    (hdir : dir ∈ scratchNames) (hok : d.removeTree (store / dir) = .ok d') :
    Intact start stores small d' := by
  obtain ⟨hisdir, rfl⟩ := removeTree_ok_iff.1 hok
  have hplace := placeOf_join (d := d) (p := store) (isName_of_scratch dir hdir)
  refine h.erase (by simp [hplace]) fun k content hs he hpre => ?_
  refine hs.1 store hstore dir hdir ⟨h.placeOf _ ▸ hpre, ?_⟩
  rintro rfl
  rw [← h.placeOf, (isDirectory_iff.1 hisdir).2] at he
  exact nomatch he

/-- What lies in a directory that is emptied may be taken away. -/
theorem Intact.discard {dir : String} (h : Intact start stores small d) (hstore : store ∈ stores)
    (hdir : dir ∈ scratchNames) (hname : IsName name)
    (hok : (if d.isDirectory (store / dir / name) then d.removeTree (store / dir / name)
      else d.removeFile (store / dir / name)) = .ok d') : Intact start stores small d' := by
  have hplace := placeOf_join (d := d) (p := store / dir) hname
  have herase : d' = d.erase (d.placeOf (store / dir / name)) := by
    split_ifs at hok
    · exact (removeTree_ok_iff.1 hok).2
    · exact (removeFile_ok_iff.1 hok).choose_spec.2
  subst herase
  rw [hplace]
  refine h.erase (by simp) fun k _ hs _ => ?_
  rw [h.placeOf]
  exact hs.not_in_scratch hstore hdir name

/-- What lies in a directory that is emptied may be moved to another such directory. -/
theorem Intact.move {dir dir' : String} (h : Intact start stores small d) (hstore : store ∈ stores)
    (hdir : dir ∈ scratchNames) (hdir' : dir' ∈ scratchNames) (hname : IsName name)
    (hok : d.move (store / dir / name) (store / dir' / name) = .ok d') :
    Intact start stores small d' := by
  have hplace := placeOf_join (d := d) (p := store / dir) hname
  have hplace' := placeOf_join (d := d) (p := store / dir') hname
  rcases move_cases hok with rfl | ⟨e, -, hr, hapart, rfl⟩
  · exact h
  · rw [hplace, hplace'] at *
    have hparent : d.entry? (d.placeOf (store / dir')) = some .directory :=
      (isDirectory_iff.1 (hr.of_join hname (Path.text_join_ne_empty (isName_of_scratch _ hdir')))).2
    refine h.relocate (by simp) hname hparent hapart (fun k hs => ?_) fun k hs => ?_
    · rw [h.placeOf]
      exact hs.not_in_scratch hstore hdir name
    · rw [h.placeOf]
      exact hs.not_in_scratch hstore hdir' name

/-- A small file may be taken away. -/
theorem Intact.removeSmall (h : Intact start stores small d) (hsmall : small.text ≠ "")
    (hname : IsName name) (hok : d.removeFile (small / name) = .ok d') :
    Intact start stores small d' := by
  obtain ⟨content, hfind, rfl⟩ := removeFile_ok_iff.1 hok
  have hplace := placeOf_join (d := d) (p := small) hname
  have hfile := (find_ok_iff.1 hfind).2.1
  rw [hplace] at hfile ⊢
  refine h.erase (by simp) fun k _ hs he hpre => ?_
  by_cases hk : k = d.placeOf small ++ [name]
  · refine hs.2 hsmall ?_
    rw [hk, List.dropLast_concat, h.placeOf]
  · rw [h.tree.below (by simp [hfile]) hpre hk] at he
    exact nomatch he

end Disk

open Disk (Intact)

section Managers

variable {start : Disk} {stores : List Path} {small : Path}

theorem keeps_makeDirectories (context : String) (p : Path) :
    KeepsDisk (Intact start stores small) (Act.makeDirectories context p) :=
  .makeDirectories (fun _ _ => Intact.grows) context p

theorem LoadPaths.keeps_init (l : LoadPaths) : KeepsDisk (Intact start stores small) l.init :=
  (Keeps.forM fun _ _ => keeps_makeDirectories _ _).bind fun _ => KeepsDisk.report _

theorem Cgroups.keeps_init (c : Cgroups) : KeepsDisk (Intact start stores small) c.init := by
  refine KeepsDisk.disk_bind fun d _ => ?_
  split
  · exact (KeepsDisk.report _).bind fun _ => .pure _
  · split
    · exact (KeepsDisk.report _).bind fun _ => .pure _
    · split
      · exact (KeepsDisk.report _).bind fun _ => .pure _
      · exact (KeepsDisk.report _).bind fun _ => .pure _

/-- To load the small files touches only their own directory. -/
theorem SmallFiles.keeps_load (hash : Bytes → String) (hsmall : small.text ≠ "") :
    ∀ (names : List String) (s : SmallFiles), s.directory = small → (∀ name ∈ names, IsName name) →
      KeepsDisk (Intact start stores small) (load hash s (names.map .text))
  | [], s, _, _ => .pure s
  | name :: rest, s, hdir, hnames => by
    have hrest := fun s hdir => keeps_load hash hsmall rest s hdir
      fun n hn => hnames n (List.mem_cons_of_mem _ hn)
    refine KeepsDisk.disk_bind fun d hd => ?_
    split
    · exact hrest s hdir
    · split
      · exact hrest _ hdir
      · refine (KeepsDisk.report _).bind fun _ => ?_
        split
        · rename_i hok
          rw [hdir] at hok
          have hname := hnames name List.mem_cons_self
          exact (KeepsDisk.setDisk (hd.removeSmall hsmall hname hok)).bind
            fun _ => hrest s hdir
        · exact hrest s hdir

theorem SmallFiles.keeps_init (hash : Bytes → String) (s : SmallFiles)
    (hdir : s.directory = small) :
    KeepsDisk (Intact start stores small) (init hash s) := by
  refine (keeps_makeDirectories _ _).bind fun _ => KeepsDisk.disk_bind fun d hd => ?_
  split
  · exact .fail _
  · rename_i names hlist
    obtain ⟨hisdir, rfl⟩ := Disk.fileSystem_list_ok_iff.1 hlist
    have hne : small.text ≠ "" := hdir ▸ (Disk.isDirectory_iff.1 hisdir).1.valid.ne_empty
    exact (keeps_load hash hne _ s hdir hd.tree.isName_children).bind fun _ =>
      (KeepsDisk.report _).bind fun _ => .pure _

/-- To reset the scratch directories touches only those. -/
theorem TmpFiles.keeps_resetAll : ∀ own : List Path, own ⊆ stores →
    KeepsDisk (Intact start stores small) (resetAll own)
  | [], _ => .pure []
  | store :: rest, hown => by
    have hrest := keeps_resetAll rest (List.subset_of_cons_subset hown)
    have hreset : ∀ d, Intact start stores small d →
        Intact start stores small (reset d (store / "tmp")).1 := by
      intro d hd
      unfold reset
      split
      · split
        · rename_i hok
          exact (hd.removeTree (hown List.mem_cons_self) (by decide) hok).grows
            (Disk.grows_makeDirectories _ _)
        · exact hd
      · exact hd.grows (Disk.grows_makeDirectories _ _)
    refine (KeepsDisk.attempt hreset).bind fun r => ?_
    split
    · exact hrest.bind fun _ => .pure _
    · exact (KeepsDisk.report _).bind fun _ => hrest

theorem TmpFiles.keeps_init (t : TmpFiles) (hown : t.stores ⊆ stores) :
    KeepsDisk (Intact start stores small) t.init := by
  refine (keeps_resetAll _ hown).bind fun usable => ?_
  have hrest : KeepsDisk (Intact start stores small) (do
      Act.info ("using " ++ toString usable.length ++ " tmp directories")
      return { t with directories := usable }) := (KeepsDisk.report _).bind fun _ => .pure _
  split
  · exact (KeepsDisk.fail _).bind fun _ => hrest
  · exact hrest

namespace Spill

variable {store : Path}

theorem keeps_moveEntries (hstore : store ∈ stores) : ∀ names : List String,
    (∀ name ∈ names, IsName name) →
      KeepsDisk (Intact start stores small) (moveEntries (spillIn store) (wasteIn store) names)
  | [], _ => .pure 0
  | name :: rest, hnames => by
    have hmove : ∀ d d', Intact start stores small d →
        d.move (spillIn store / name) (wasteIn store / name) = .ok d' →
          Intact start stores small d' := fun d d' hd hok =>
      hd.move hstore (by decide) (by decide) (hnames name List.mem_cons_self) hok
    exact (KeepsDisk.change hmove).bind fun _ =>
      (keeps_moveEntries hstore rest fun n hn => hnames n (List.mem_cons_of_mem _ hn)).bind
        fun _ => .pure _

theorem keeps_moveChildren (hstore : store ∈ stores) :
    KeepsDisk (Intact start stores small) (moveChildren (spillIn store) (wasteIn store)) := by
  refine KeepsDisk.disk_bind fun d hd => ?_
  split
  · rename_i names hlist
    obtain ⟨-, rfl⟩ := Disk.list_ok_iff.1 hlist
    exact keeps_moveEntries hstore _ hd.tree.isName_children
  · exact .fail _

theorem keeps_moveAside : ∀ own : List Path, own ⊆ stores →
    KeepsDisk (Intact start stores small) (moveAside own)
  | [], _ => .pure 0
  | store :: rest, hown => by
    have hrest : ∀ moved : Nat, KeepsDisk (Intact start stores small) (do
        ensure (spillIn store)
        return moved + (← moveAside rest)) := fun moved =>
      (keeps_makeDirectories _ _).bind fun _ =>
        (keeps_moveAside rest (List.subset_of_cons_subset hown)).bind fun _ => .pure _
    refine (keeps_makeDirectories _ _).bind fun _ => KeepsDisk.disk_bind fun d _ => ?_
    split
    · exact (keeps_moveChildren (hown List.mem_cons_self)).bind hrest
    · exact (Keeps.pure 0).bind hrest

theorem keeps_discard (hstore : store ∈ stores) : ∀ names : List String,
    (∀ name ∈ names, IsName name) →
      KeepsDisk (Intact start stores small) (discard (wasteIn store) names)
  | [], _ => .pure 0
  | name :: rest, hnames => by
    have hrest := keeps_discard hstore rest fun n hn => hnames n (List.mem_cons_of_mem _ hn)
    refine KeepsDisk.disk_bind fun d hd => ?_
    split
    · rename_i hok
      exact (KeepsDisk.setDisk (hd.discard hstore (by decide) (hnames name List.mem_cons_self)
        hok)).bind fun _ => hrest.bind fun _ => .pure _
    · exact (KeepsDisk.report _).bind fun _ => hrest

theorem keeps_collectIn : ∀ own : List Path, own ⊆ stores →
    KeepsDisk (Intact start stores small) (collectIn own)
  | [], _ => .pure 0
  | store :: rest, hown => by
    have hrest : ∀ removed : Nat, KeepsDisk (Intact start stores small) (do
        return removed + (← collectIn rest)) := fun _ =>
      (keeps_collectIn rest (List.subset_of_cons_subset hown)).bind fun _ => .pure _
    refine KeepsDisk.disk_bind fun d hd => ?_
    split
    · rename_i names hlist
      obtain ⟨-, rfl⟩ := Disk.list_ok_iff.1 hlist
      exact (keeps_discard (hown List.mem_cons_self) _ hd.tree.isName_children).bind hrest
    · exact (Keeps.pure 0).bind hrest

theorem keeps_init (s : Spill) (hown : s.stores ⊆ stores) :
    KeepsDisk (Intact start stores small) s.init := by
  have hrest : KeepsDisk (Intact start stores small) (do let _ ← s.collect) :=
    (keeps_collectIn _ hown).bind fun _ => .pure _
  refine (keeps_moveAside _ hown).bind fun moved => ?_
  split
  · exact (KeepsDisk.report _).bind fun _ => hrest
  · exact hrest

end Spill

end Managers

end QueryHost
