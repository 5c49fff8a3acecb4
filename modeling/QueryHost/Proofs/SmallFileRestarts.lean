import QueryHost.Proofs.SmallFileVersions
import QueryHost.Proofs.SpillPlaces

/-!
# Small files over a restart

A restart has nothing but the directory to make the index from, and of each number it takes the
version that is listed last (`SmallFiles.init_fresh`). A content that is kept replaces the version
that is indexed, and no other one: a version that was there beside the indexed one is left until a
content is kept under its very name (`SmallFiles.left_put`). So the digests come back after a
restart, in whatever order the directory is listed, exactly if all versions that are left have the
digest of the indexed one (`SmallFiles.survives_restart_iff`).
-/

namespace QueryHost

namespace Path

theorem join_injective {p : Path} {a b : String} (ha : IsName a) (hb : IsName b)
    (h : p / a = p / b) : a = b := by
  have hnames := congrArg names h
  rw [names_join ha, names_join hb] at hnames
  simpa using hnames

end Path

namespace Disk

variable {d d' : Disk} {p : Path} {place goal : Place} {name : String} {e : Entry} {content : Bytes}

theorem makeDirectories_of_isDirectory (h : d.isDirectory p = true) :
    d.makeDirectories p = (d, .ok ()) := by
  obtain ⟨hr, hentry⟩ := isDirectory_iff.1 h
  have hmake : d.makeDirectory p = .error (.system .alreadyExists) := by
    simp [makeDirectory, hr.locate, bind, Except.bind, hentry]
  have hensure : d.ensureDirectory p = .ok d := by
    rw [ensureDirectory, hmake]
    exact if_pos h
  unfold makeDirectories makeAll Path.ancestors
  split_ifs
  · rfl
  · simp [foothold, hensure, descend]

/-- A directory is none the worse for a file that is taken away, or for one that is put where no
directory is. -/
theorem isDirectory_erase (ht : d.IsTree) (h : d.isDirectory p = true)
    (hfile : d.entry? place ≠ some .directory) : (d.erase place).isDirectory p = true := by
  have hne : place ≠ [] := by
    rintro rfl
    exact hfile rfl
  refine isDirectory_congr h rfl fun stop _ hstop => ?_
  rw [entry_erase hne, if_neg fun hpre => ?_, hstop]
  have hother : stop ≠ place := by
    rintro rfl
    exact hfile hstop
  rw [ht.below hfile hpre hother] at hstop
  exact nomatch hstop

theorem isDirectory_put (h : d.isDirectory p = true) (hfile : d.entry? place ≠ some .directory)
    (e : Entry) : (d.put place e).isDirectory p = true := by
  have hne : place ≠ [] := by
    rintro rfl
    exact hfile rfl
  refine isDirectory_congr h rfl fun stop _ hstop => ?_
  rw [entry_put hne, if_neg, hstop]
  rintro rfl
  exact hfile hstop

/-- What is found beside a file that was put somewhere was there before. -/
theorem find_of_put (hgoal : goal ≠ []) (hne : place ≠ goal)
    (hfind : (d.put goal (.file content)).find p = .ok (place, e)) : d.find p = .ok (place, e) := by
  have hentry : ∀ {k e}, k ≠ goal → entry? (d.put goal (.file content)) k = some e →
      d.entry? k = some e := by
    intro k e hk he
    rwa [entry_put hgoal, if_neg hk] at he
  refine find_congr hfind rfl (fun stop _ hstop => hentry ?_ hstop)
    (hentry hne (find_ok_iff.1 hfind).2.1)
  rintro rfl
  rw [entry_put hgoal, if_pos rfl] at hstop
  exact nomatch hstop

/-- What is found after something was taken away was there before, in another place. -/
theorem find_of_erase (hgoal : goal ≠ []) (hfind : (d.erase goal).find p = .ok (place, e)) :
    d.find p = .ok (place, e) ∧ place ≠ goal := by
  have hentry : ∀ {k e}, entry? (d.erase goal) k = some e → d.entry? k = some e ∧ k ≠ goal := by
    intro k e he
    rw [entry_erase hgoal] at he
    split_ifs at he with hpre
    exact ⟨he, fun hsame => hpre (hsame ▸ List.prefix_refl _)⟩
  obtain ⟨hthere, hne⟩ := hentry (find_ok_iff.1 hfind).2.1
  exact ⟨find_congr hfind rfl (fun _ _ hstop => (hentry hstop).1) hthere, hne⟩

theorem toOption_read_eq_some : (d.read p).toOption = some content
    ↔ d.find p = .ok (d.placeOf p, .file content) := by
  constructor
  · intro h
    unfold read openFile at h
    cases hfind : d.find p with
    | error fault => simp [hfind, Except.map, bind, Except.bind, Except.toOption] at h
    | ok found =>
      obtain ⟨place, e⟩ := found
      obtain ⟨⟨-, rfl⟩, -, -⟩ := find_ok_iff.1 hfind
      cases e with
      | file content' =>
        simp [hfind, Except.map, bind, Except.bind, Except.toOption] at h
        rw [h]
      | directory => simp [hfind, Except.map, bind, Except.bind, Except.toOption] at h
  · intro h
    rw [read_of_find h]
    rfl

/-! ## Orders of listing -/

/-- The same disk, with its entries in another order. -/
structure Relists (d d' : Disk) : Prop where
  workplace : d'.workplace = d.workplace
  entries : d'.entries.toList.Perm d.entries.toList

theorem Relists.symm (h : d.Relists d') : d'.Relists d := ⟨h.workplace.symm, h.entries.symm⟩

theorem Relists.entry (h : d.Relists d') (place : Place) : d'.entry? place = d.entry? place := by
  have hget : d'.entries.get? place = d.entries.get? place := by
    refine Option.ext fun e => ?_
    rw [← Assoc.mem_toList_iff, ← Assoc.mem_toList_iff, h.entries.mem_iff]
  unfold entry?
  rw [hget]

theorem Relists.isTree (h : d.Relists d') (ht : d.IsTree) : d'.IsTree := by
  intro place hplace
  rw [h.entry]
  exact ht place ((h.entries.map _).mem_iff.1 hplace)

theorem Relists.isDirectory (h : d.Relists d') (hdir : d.isDirectory p = true) :
    d'.isDirectory p = true :=
  isDirectory_congr hdir h.workplace fun stop _ hstop => (h.entry stop).trans hstop

theorem Relists.find (h : d.Relists d') (hfind : d.find p = .ok (place, e)) :
    d'.find p = .ok (place, e) :=
  find_congr hfind h.workplace (fun stop _ hstop => (h.entry stop).trans hstop)
    ((h.entry place).trans (find_ok_iff.1 hfind).2.1)

theorem children_concat (h : d'.entries.keys = d.entries.keys ++ [place ++ [name]]) :
    d'.children place = d.children place ++ [name] := by
  simp [children, h, List.filterMap_append]

/-- Any entry may be the last one of its directory. -/
theorem exists_relists_last (h : d.entry? (place ++ [name]) = some e) :
    ∃ d', d.Relists d' ∧ ∃ before, d'.children place = before ++ [name] := by
  rw [entry_concat] at h
  have habsent : (d.entries.erase (place ++ [name])).get? (place ++ [name]) = none := by simp
  have hnew : place ++ [name] ∉ (d.entries.erase (place ++ [name])).keys :=
    (Assoc.get?_eq_none_iff _ _).1 habsent
  have hkeys := Assoc.keys_put (d.entries.erase (place ++ [name])) (place ++ [name]) e
  have hperm := Assoc.toList_put_perm (d.entries.erase (place ++ [name])) (place ++ [name]) e
  rw [if_neg hnew] at hkeys
  rw [Assoc.toList_erase_of_get?_none habsent] at hperm
  exact ⟨{ d with entries := (d.entries.erase (place ++ [name])).put (place ++ [name]) e },
    ⟨rfl, hperm.trans (Assoc.perm_cons_erase h).symm⟩, _,
    children_concat (d := { d with entries := d.entries.erase (place ++ [name]) }) hkeys⟩

end Disk

namespace SmallFiles

variable {hash : Bytes → String} {directory : Path} {d d' : Disk} {id id' : Int} {f g : SmallFile}
  {s s' : SmallFiles} {scene scene' : Scene} {name : String} {content : Bytes}

/-! ## The versions in a directory -/

/-- A file of the directory is a version of one number only. -/
theorem Backed.unique (ht : d.IsTree) (h : Backed hash directory d id f)
    (h' : Backed hash directory d id' g) (hpath : f.path = g.path) : id = id' ∧ f = g := by
  obtain ⟨name, content, hf, hfind, hid⟩ := h
  obtain ⟨name', content', hg, hfind', hid'⟩ := h'
  have hname := (ht.of_concat (Disk.find_ok_iff.1 hfind).2.1).1
  have hname' := (ht.of_concat (Disk.find_ok_iff.1 hfind').2.1).1
  obtain rfl : name = name' := Path.join_injective hname hname' (hf.symm.trans (hpath.trans hg))
  obtain rfl : content = content' := by
    rw [hfind] at hfind'
    simpa using hfind'
  rw [hid] at hid'
  obtain ⟨rfl, hdigest⟩ := Prod.mk.inj (Option.some.inj hid')
  refine ⟨rfl, ?_⟩
  cases f
  cases g
  simp_all

/-- Where a content is kept, only its own number has a version. -/
theorem Backed.number_of_path (ht : d.IsTree) (h : Backed hash directory d id' g)
    (hid : IsInt64 id) (hd : IsDigest (hash content))
    (hpath : g.path = (fileOf hash directory id content).path) : id' = id := by
  obtain ⟨name, content', hg, hfind, hid'⟩ := h
  have hname := (ht.of_concat (Disk.find_ok_iff.1 hfind).2.1).1
  obtain rfl := Path.join_injective hname (isName_fileName hid hd) (hg.symm.trans hpath)
  exact identify_number hid' (identify_fileName hid hd)

theorem Backed.relists (h : Backed hash directory d id f) (hl : d.Relists d') :
    Backed hash directory d' id f :=
  h.kept hl.workplace fun _ _ _ _ => hl.find

theorem backed_relists (hl : d.Relists d') :
    Backed hash directory d' id f ↔ Backed hash directory d id f :=
  ⟨fun h => h.relists hl.symm, fun h => h.relists hl⟩

/-- Taking a file away leaves the versions of other names. -/
theorem backed_erase (ht : d.IsTree) (hname : IsName name)
    (hfile : d.find (directory / name) = .ok (d.placeOf directory ++ [name], .file content)) :
    Backed hash directory (d.erase (d.placeOf directory ++ [name])) id f
      ↔ Backed hash directory d id f ∧ f.path ≠ directory / name := by
  have hentry := (Disk.find_ok_iff.1 hfile).2.1
  constructor
  · rintro ⟨name', content', hpath, hfind, hid⟩
    obtain ⟨hfind, hne⟩ := Disk.find_of_erase (by simp) hfind
    have hplace : Disk.placeOf (d.erase (d.placeOf directory ++ [name])) directory
        = d.placeOf directory := Disk.placeOf_congr rfl directory
    rw [hplace] at hfind hne
    have hname' := (ht.of_concat (Disk.find_ok_iff.1 hfind).2.1).1
    refine ⟨⟨name', content', hpath, hfind, hid⟩, fun hsame => hne ?_⟩
    rw [Path.join_injective hname' hname (hpath.symm.trans hsame)]
  · rintro ⟨h, hother⟩
    refine h.kept rfl fun name' content' hpath _ hfind => ?_
    refine Disk.find_erase ht hfind (by simp [hentry]) fun hsame => ?_
    obtain rfl : name' = name := by simpa using hsame
    exact hother hpath

/-- A content that is written is a version of its number, and the other names are left alone. -/
theorem backed_write (ht : d.IsTree) (hid : IsInt64 id) (hd : IsDigest (hash content))
    (hok : d.write (directory / fileName id (hash content)) content = .ok d') (id' : Int)
    (g : SmallFile) : Backed hash directory d' id' g
      ↔ (id' = id ∧ g = fileOf hash directory id content)
        ∨ Backed hash directory d id' g ∧ g.path ≠ (fileOf hash directory id content).path := by
  have hname := isName_fileName hid hd
  obtain ⟨hown, hwritten⟩ : Backed hash directory d' id (fileOf hash directory id content)
      ∧ d'.IsTree := by
    have hagrees : Agrees hash { directory } d := ⟨ht, fun hf => nomatch hf⟩
    have hwritten := hagrees.write hid hd hok
    exact ⟨hwritten.backed (by simp [fileOf]), hwritten.tree⟩
  obtain ⟨-, -, hdir, rfl⟩ := Disk.write_ok_iff.1 hok
  have hplace := Disk.placeOf_join (d := d) (p := directory) hname
  rw [hplace] at hdir hown hwritten ⊢
  constructor
  · intro h
    by_cases hpath : g.path = (fileOf hash directory id content).path
    · exact .inl (h.unique hwritten hown hpath)
    · refine .inr ⟨?_, hpath⟩
      obtain ⟨name', content', hg, hfind, hid'⟩ := h
      refine ⟨name', content', hg, Disk.find_of_put (by simp) (fun hsame => hpath ?_) hfind, hid'⟩
      obtain rfl : name' = fileName id (hash content) := List.append_singleton_inj.1 hsame |>.2
      exact hg
  · rintro (⟨rfl, rfl⟩ | ⟨h, hother⟩)
    · exact hown
    · refine h.kept rfl fun name' content' hg _ hfind => ?_
      refine Disk.find_put hfind hdir (fun hsame => hother ?_) _
      obtain rfl : name' = fileName id (hash content) := by simpa using hsame
      exact hg

/-! ## What a new manager finds -/

/-- The file of that name in the directory, if it is a version of the number. -/
def versionOf? (hash : Bytes → String) (directory : Path) (d : Disk) (id : Int) (name : String) :
    Option SmallFile :=
  (loadSingle hash directory d (.text name)).bind fun v => if v.1 = id then some v.2 else none

theorem loadSingle_iff : loadSingle hash directory d (.text name) = some (id, f)
    ↔ f.path = directory / name ∧ ∃ content,
      d.find (directory / name) = .ok (d.placeOf (directory / name), .file content)
        ∧ identify hash name content = some (id, f.digest) := by
  obtain ⟨path, digest⟩ := f
  simp only [loadSingle, Option.map_eq_some_iff, Option.bind_eq_some_iff, Prod.exists,
    Prod.mk.injEq,
    SmallFile.mk.injEq]
  constructor
  · rintro ⟨_, _, ⟨content, hread, hid⟩, rfl, rfl, rfl⟩
    exact ⟨rfl, content, Disk.toOption_read_eq_some.1 hread, hid⟩
  · rintro ⟨rfl, content, hfind, hid⟩
    exact ⟨id, digest, ⟨content, Disk.toOption_read_eq_some.2 hfind, hid⟩, rfl, rfl, rfl⟩

/-- The version that a name stands for is backed by its file. -/
theorem versionOf_iff (ht : d.IsTree) (hname : IsName name) :
    versionOf? hash directory d id name = some f
      ↔ f.path = directory / name ∧ Backed hash directory d id f := by
  have hplace := Disk.placeOf_join (d := d) (p := directory) hname
  unfold versionOf?
  constructor
  · intro h
    obtain ⟨⟨id', f'⟩, hload, h⟩ := Option.bind_eq_some_iff.1 h
    obtain ⟨rfl, hf⟩ := Option.ite_none_right_eq_some.1 h
    obtain rfl := Option.some.inj hf
    obtain ⟨hpath, content, hfind, hid⟩ := loadSingle_iff.1 hload
    exact ⟨hpath, name, content, hpath, hplace ▸ hfind, hid⟩
  · rintro ⟨hpath, name', content, hpath', hfind, hid⟩
    have hname' := (ht.of_concat (Disk.find_ok_iff.1 hfind).2.1).1
    obtain rfl := Path.join_injective hname hname' (hpath.symm.trans hpath')
    rw [loadSingle_iff.2 ⟨hpath, content, hplace ▸ hfind, hid⟩, Option.bind_some, if_pos rfl]

theorem versionOf_of_not_isFile (h : d.isFile (directory / name) ≠ true) :
    versionOf? hash directory d id name = none := by
  refine Option.eq_none_iff_forall_ne_some.2 fun f hversion => h ?_
  obtain ⟨⟨id', f'⟩, hload, -⟩ := Option.bind_eq_some_iff.1 hversion
  obtain ⟨-, content, hfind, -⟩ := loadSingle_iff.1 hload
  exact Disk.isFile_iff.2 ⟨content, hfind⟩

/-- What was taken away from the directory were no versions of any number. -/
structure Swept (hash : Bytes → String) (directory : Path) (d d' : Disk) : Prop where
  tree : d'.IsTree
  there : d.isDirectory directory = true → d'.isDirectory directory = true
  backed : ∀ id f, Backed hash directory d' id f ↔ Backed hash directory d id f

theorem swept_self (ht : d.IsTree) : Swept hash directory d d := ⟨ht, id, fun _ _ => Iff.rfl⟩

theorem Swept.versionOf (h : Swept hash directory d d') (ht : d.IsTree) (hname : IsName name) :
    versionOf? hash directory d' id name = versionOf? hash directory d id name := by
  refine Option.ext fun f => ?_
  rw [versionOf_iff h.tree hname, versionOf_iff ht hname, h.backed]

theorem Swept.trans {d'' : Disk} (h : Swept hash directory d d')
    (h' : Swept hash directory d' d'') : Swept hash directory d d'' :=
  ⟨h'.tree, h'.there ∘ h.there, fun id f => (h'.backed id f).trans (h.backed id f)⟩

theorem swept_remove (ht : d.IsTree) (hname : IsName name)
    (hinvalid : ∀ id, versionOf? hash directory d id name = none)
    (hok : d.removeFile (directory / name) = .ok d') : Swept hash directory d d' := by
  obtain ⟨content, hfind, rfl⟩ := Disk.removeFile_ok_iff.1 hok
  have hfile := (Disk.find_ok_iff.1 hfind).2.1
  rw [Disk.placeOf_join hname] at hfind hfile ⊢
  have hno : d.entry? (d.placeOf directory ++ [name]) ≠ some .directory := by simp [hfile]
  refine ⟨ht.erase (by simp), fun hdir => Disk.isDirectory_erase ht hdir hno, fun id f => ?_⟩
  rw [backed_erase ht hname hfind, and_iff_left_iff_imp]
  intro hbacked hpath
  have hversion := (versionOf_iff ht hname).2 ⟨hpath, hbacked⟩
  rw [hinvalid] at hversion
  exact nomatch hversion

/-- A name that is listed is indexed under its number, or it may be removed. -/
theorem load_cons (hash : Bytes → String) (s : SmallFiles) {scene : Scene} (rest : List String)
    (ht : scene.disk.IsTree) (hname : IsName name) :
    ∃ t middle, (load hash s ((name :: rest).map .text)).run.run scene
        = (load hash t (rest.map .text)).run.run middle
      ∧ t.directory = s.directory ∧ Swept hash s.directory scene.disk middle.disk
      ∧ ∀ id, t.files.get? id
        = (versionOf? hash s.directory scene.disk id name).or (s.files.get? id) := by
  have hself : Swept hash s.directory scene.disk scene.disk := swept_self ht
  show ∃ t middle, (Act.disk >>= fun d => _).run.run scene = _ ∧ _
  rw [Act.run_disk_bind]
  split
  · rename_i hfile
    refine ⟨s, scene, rfl, rfl, hself, fun id => ?_⟩
    have hno : scene.disk.isFile (s.directory / name) ≠ true := by simpa using hfile
    rw [versionOf_of_not_isFile hno, Option.none_or]
  · split
    · rename_i id file hload
      refine ⟨_, scene, rfl, rfl, hself, fun id' => ?_⟩
      rw [versionOf?, hload, Option.bind_some, Assoc.get?_put]
      by_cases hsame : id' = id
      · rw [if_pos hsame, if_pos hsame.symm, Option.some_or]
      · rw [if_neg hsame, if_neg (Ne.symm hsame), Option.none_or]
    · rename_i hinvalid
      have hnone : ∀ id, versionOf? hash s.directory scene.disk id name = none := fun id => by
        rw [versionOf?, hinvalid, Option.bind_none]
      have hfiles : ∀ id, s.files.get? id
          = (versionOf? hash s.directory scene.disk id name).or (s.files.get? id) := fun id => by
        rw [hnone, Option.none_or]
      rw [Act.warn, Act.run_report_bind]
      split
      · rename_i hok
        exact ⟨s, _, rfl, rfl, swept_remove ht hname hnone hok, hfiles⟩
      · exact ⟨s, _, rfl, rfl, hself, hfiles⟩

/-- Of each number the version that is listed last is indexed. -/
theorem load_spec (hash : Bytes → String) : ∀ (names : List String) {s : SmallFiles}
    {scene : Scene}, (∀ name ∈ names, IsName name) → scene.disk.IsTree →
      ∃ s' scene', (load hash s (names.map .text)).run.run scene = (.ok s', scene')
        ∧ s'.directory = s.directory ∧ Swept hash s.directory scene.disk scene'.disk
        ∧ ∀ id, s'.files.get? id
          = (names.filterMap (versionOf? hash s.directory scene.disk id)).getLast?.or
            (s.files.get? id)
  | [], s, scene, _, ht => ⟨s, scene, rfl, rfl, swept_self ht, fun _ => rfl⟩
  | name :: rest, s, scene, hnames, ht => by
    obtain ⟨hname, hrest⟩ := List.forall_mem_cons.1 hnames
    obtain ⟨t, middle, hstep, hdir, hswept, hfiles⟩ := load_cons hash s rest ht hname
    obtain ⟨s', scene', hrun, hdir', hswept', hlast⟩ := load_spec hash rest hrest hswept.tree
    rw [hdir] at hdir' hswept' hlast
    refine ⟨s', scene', hstep.trans hrun, hdir', hswept.trans hswept', fun id => ?_⟩
    have hsame : rest.filterMap (versionOf? hash s.directory middle.disk id)
        = rest.filterMap (versionOf? hash s.directory scene.disk id) :=
      List.filterMap_congr fun n hn => hswept.versionOf ht (hrest n hn)
    rw [hlast, hsame, hfiles, List.filterMap_cons]
    cases versionOf? hash s.directory scene.disk id name with
    | none => rfl
    | some f => simp [List.getLast?_cons]

/-- The versions of a number, in the order of listing. -/
def versions (hash : Bytes → String) (directory : Path) (d : Disk) (id : Int) : List SmallFile :=
  (d.children (d.placeOf directory)).filterMap (versionOf? hash directory d id)

theorem mem_versions (ht : d.IsTree) :
    f ∈ versions hash directory d id ↔ Backed hash directory d id f := by
  rw [versions, List.mem_filterMap]
  constructor
  · rintro ⟨name, hname, hversion⟩
    exact ((versionOf_iff ht (ht.isName_children name hname)).1 hversion).2
  · intro h
    have ⟨name, content, hpath, hfind, _⟩ := h
    have hentry := (Disk.find_ok_iff.1 hfind).2.1
    exact ⟨name, Disk.mem_children.2 ⟨_, hentry⟩,
      (versionOf_iff ht (ht.of_concat hentry).1).2 ⟨hpath, h⟩⟩

/-- A manager that begins with a directory that is there indexes of each number the version that is
listed last. -/
theorem init_fresh (hash : Bytes → String) (scene : Scene) (ht : scene.disk.IsTree)
    (hdir : scene.disk.isDirectory directory = true) :
    ∃ s scene', (init hash { directory }).run.run scene = (.ok s, scene')
      ∧ s.directory = directory ∧ Swept hash directory scene.disk scene'.disk
      ∧ ∀ id, s.files.get? id = (versions hash directory scene.disk id).getLast? := by
  obtain ⟨s, loaded, hload, hdirectory, hswept, hlast⟩ := load_spec hash (s := { directory })
    (scene.disk.children (scene.disk.placeOf directory)) ht.isName_children ht
  have hrun : (init hash { directory }).run.run scene = (.ok s, { loaded with
      log := loaded.log ++ [.info ("small file manager loaded " ++ toString s.files.size
        ++ " files from " ++ s.directory.text)] }) := by
    rw [init, run_bind, Act.run_makeDirectories, Disk.fileSystem_makeDirectories,
      Disk.makeDirectories_of_isDirectory hdir]
    simp only [Except.mapError]
    rw [Act.run_disk_bind, Disk.fileSystem_list_ok_iff.2 ⟨hdir, rfl⟩]
    simp only []
    rw [run_bind, hload]
    rfl
  exact ⟨s, _, hrun, hdirectory, hswept, fun id => (hlast id).trans Option.or_none⟩

/-- A manager that has begun made its directory if that was missing. -/
theorem init_ok (hrun : (init hash { directory }).run.run scene = (.ok s, scene')) :
    ∃ d, scene.disk.Grows d ∧ d.isDirectory directory = true
      ∧ (init hash { directory }).run.run { scene with disk := d } = (.ok s, scene') := by
  have hgrows := scene.disk.grows_makeDirectories directory
  have hsame : ∀ d, scene.disk.makeDirectories directory = (d, .ok ()) →
      d.isDirectory directory = true →
        (init hash { directory }).run.run { scene with disk := d } = (.ok s, scene') := by
    intro d hmade hdir
    rw [← hrun, init, run_bind, Act.run_makeDirectories, Disk.fileSystem_makeDirectories,
      Disk.makeDirectories_of_isDirectory hdir, run_bind, Act.run_makeDirectories,
      Disk.fileSystem_makeDirectories, hmade]
  rw [init, run_bind, Act.run_makeDirectories, Disk.fileSystem_makeDirectories] at hrun
  generalize scene.disk.makeDirectories directory = made at hrun hgrows hsame
  obtain ⟨d, failed | made⟩ := made
  · cases (Prod.mk.inj hrun).1
  · simp only [Except.mapError] at hrun
    rw [Act.run_disk_bind] at hrun
    split at hrun
    · cases (Prod.mk.inj hrun).1
    · rename_i names hlist
      have hdir := (Disk.fileSystem_list_ok_iff.1 hlist).1
      exact ⟨d, hgrows, hdir, hsame d rfl hdir⟩

/-! ## What a manager keeps -/

/-- The directory is there, and every number that has a version in it is indexed. -/
structure Kept (hash : Bytes → String) (s : SmallFiles) (d : Disk) : Prop
    extends Agrees hash s d where
  there : d.isDirectory s.directory = true
  indexed : ∀ {id f}, Backed hash s.directory d id f → ∃ g, s.files.get? id = some g

/-- After `init`, the directory is there, and every number that has a version in it is indexed. -/
theorem init_kept (ht : scene.disk.IsTree)
    (hrun : (init hash { directory }).run.run scene = (.ok s, scene')) :
    s.directory = directory ∧ Kept hash s scene'.disk := by
  obtain ⟨d, hgrows, hdir, hrun'⟩ := init_ok hrun
  have ht' := hgrows.tree ht
  obtain ⟨t, after, hfresh, hdirectory, hswept, hlast⟩ :=
    init_fresh hash { scene with disk := d } ht' hdir
  obtain ⟨hs, rfl⟩ := Prod.mk.inj (hrun'.symm.trans hfresh)
  obtain rfl := Except.ok.inj hs
  refine ⟨hdirectory, ⟨hswept.tree, fun {id f} hf => ?_⟩, ?_, fun {id f} hf => ?_⟩
  · rw [hlast] at hf
    rw [hdirectory, hswept.backed]
    exact (mem_versions ht').1 (List.mem_of_getLast? hf)
  · rw [hdirectory]
    exact hswept.there hdir
  · rw [hdirectory, hswept.backed] at hf
    rw [hlast]
    exact ⟨_, List.getLast?_eq_some_getLast (List.ne_nil_of_mem ((mem_versions ht').2 hf))⟩

/-- A version that the index is not about: an older one that was not removed. -/
def Left (hash : Bytes → String) (s : SmallFiles) (d : Disk) (id : Int) (f : SmallFile) : Prop :=
  Backed hash s.directory d id f ∧ s.files.get? id ≠ some f

/-- A call that succeeds has written the file, and has tried to remove the one that is indexed. -/
theorem put_ok (hrun : (put hash s id content).run.run scene = (.ok (s', f), scene')) :
    ∃ d, scene.disk.write (fileOf hash s.directory id content).path content = .ok d
      ∧ s' = { s with files := s.files.put id (fileOf hash s.directory id content) }
      ∧ ((∃ old, s.files.get? id = some old ∧ old.path ≠ (fileOf hash s.directory id content).path
            ∧ scene'.disk = (d.removeFile old.path).toOption.getD d)
          ∨ (∀ old, s.files.get? id = some old →
              old.path = (fileOf hash s.directory id content).path) ∧ scene'.disk = d) := by
  rcases put_cases hrun with ⟨e, -, hr, -⟩ | ⟨d, hwrite, hr, hdisk⟩
  · cases hr
  · exact ⟨d, hwrite, (Prod.mk.inj (Except.ok.inj hr)).1, hdisk⟩

/-- A version can be removed, and the versions of other names stay. -/
theorem Backed.remove (ht : d.IsTree) (hdir : d.isDirectory directory = true)
    (h : Backed hash directory d id f) :
    ∃ d', d.removeFile f.path = .ok d' ∧ d'.IsTree ∧ d'.isDirectory directory = true
      ∧ ∀ id' g, Backed hash directory d' id' g
        ↔ Backed hash directory d id' g ∧ g.path ≠ f.path := by
  obtain ⟨name, content, hpath, hfind, -⟩ := h
  have hentry := (Disk.find_ok_iff.1 hfind).2.1
  have hname := (ht.of_concat hentry).1
  have hno : d.entry? (d.placeOf directory ++ [name]) ≠ some .directory := by simp [hentry]
  rw [hpath]
  refine ⟨d.erase (d.placeOf directory ++ [name]), Disk.removeFile_ok_iff.2 ⟨content, ?_⟩,
    ht.erase (by simp), Disk.isDirectory_erase ht hdir hno, fun _ _ => backed_erase ht hname hfind⟩
  rw [Disk.placeOf_join hname]
  exact ⟨hfind, rfl⟩

/-- What is a version after a call that succeeds: the new one, and all that were versions but the
one that was indexed for the number and the one of the name that was written. -/
theorem put_backed (hid : IsInt64 id) (hd : IsDigest (hash content)) (h : Kept hash s scene.disk)
    (hrun : (put hash s id content).run.run scene = (.ok (s', f), scene')) :
    scene'.disk.IsTree ∧ scene'.disk.isDirectory s.directory = true
      ∧ ∀ id' g, Backed hash s.directory scene'.disk id' g
        ↔ (id' = id ∧ g = fileOf hash s.directory id content)
          ∨ Backed hash s.directory scene.disk id' g ∧ s.files.get? id ≠ some g
            ∧ g.path ≠ (fileOf hash s.directory id content).path := by
  obtain ⟨d, hwrite, -, hremoved⟩ := put_ok hrun
  have hwritten := backed_write h.tree hid hd hwrite
  have htree := (h.toAgrees.write hid hd hwrite).tree
  have hdir : d.isDirectory s.directory = true := by
    obtain ⟨-, -, hno, rfl⟩ := Disk.write_ok_iff.1 hwrite
    exact Disk.isDirectory_put h.there hno _
  rcases hremoved with ⟨old, hold, hmoved, hdisk⟩ | ⟨hsame, rfl⟩
  · have hthere := (hwritten id old).2 (.inr ⟨h.backed hold, hmoved⟩)
    obtain ⟨d', hremove, htree', hdir', hbacked⟩ := hthere.remove htree hdir
    obtain rfl : d' = scene'.disk := by
      rw [hdisk, hremove]
      rfl
    refine ⟨htree', hdir', fun id' g => ?_⟩
    rw [hbacked, hwritten]
    constructor
    · rintro ⟨hnew | ⟨hg, hother⟩, hpath⟩
      · exact .inl hnew
      · refine .inr ⟨hg, fun hindexed => hpath ?_, hother⟩
        rw [Option.some.inj (hold.symm.trans hindexed)]
    · rintro (hnew | ⟨hg, hindexed, hother⟩)
      · exact ⟨.inl hnew, fun hpath => hmoved (hpath ▸ hnew.2 ▸ rfl)⟩
      · refine ⟨.inr ⟨hg, hother⟩, fun hpath => hindexed ?_⟩
        rw [hold, ((h.backed hold).unique h.tree hg hpath.symm).2]
  · refine ⟨htree, hdir, fun id' g => (hwritten id' g).trans ?_⟩
    have hunindexed : g.path ≠ (fileOf hash s.directory id content).path →
        s.files.get? id ≠ some g := fun hother hindexed => hother (hsame g hindexed)
    rw [and_iff_right_of_imp hunindexed]

theorem put_kept (hid : IsInt64 id) (hd : IsDigest (hash content)) (h : Kept hash s scene.disk)
    (hrun : (put hash s id content).run.run scene = (.ok (s', f), scene')) :
    s'.directory = s.directory ∧ Kept hash s' scene'.disk := by
  obtain ⟨htree, hdir, hbacked⟩ := put_backed hid hd h hrun
  obtain ⟨-, -, rfl, -⟩ := put_ok hrun
  refine ⟨rfl, ⟨htree, fun {id' g} hg => (hbacked id' g).2 ?_⟩, hdir, fun {id' g} hg => ?_⟩
  · rw [Assoc.get?_put] at hg
    split_ifs at hg with hsame
    · exact .inl ⟨hsame, (Option.some.inj hg).symm⟩
    · refine .inr ⟨h.backed hg, fun hindexed => hsame ?_, fun hpath => hsame ?_⟩
      · exact ((h.backed hg).unique h.tree (h.backed hindexed) rfl).1
      · exact (h.backed hg).number_of_path h.tree hid hd hpath
  · by_cases hsame : id' = id
    · exact ⟨_, by rw [Assoc.get?_put, if_pos hsame]⟩
    · rcases (hbacked id' g).1 hg with ⟨rfl, -⟩ | ⟨hold, -⟩
      · exact absurd rfl hsame
      · obtain ⟨old, hindexed⟩ := h.indexed hold
        exact ⟨old, by rw [Assoc.get?_put, if_neg hsame, hindexed]⟩

/-- A version that is left is left until its very name is written. -/
theorem left_put (hid : IsInt64 id) (hd : IsDigest (hash content)) (h : Kept hash s scene.disk)
    (hrun : (put hash s id content).run.run scene = (.ok (s', f), scene')) :
    Left hash s' scene'.disk id' g ↔ Left hash s scene.disk id' g
      ∧ g.path ≠ (fileOf hash s.directory id content).path := by
  obtain ⟨-, -, hbacked⟩ := put_backed hid hd h hrun
  obtain ⟨-, -, rfl, -⟩ := put_ok hrun
  simp only [Left, hbacked, Assoc.get?_put]
  constructor
  · rintro ⟨⟨rfl, rfl⟩ | ⟨hg, hindexed, hother⟩, hne⟩
    · exact absurd (if_pos rfl) hne
    · refine ⟨⟨hg, fun hindexed' => ?_⟩, hother⟩
      split_ifs at hne with hsame
      · exact hindexed (hsame ▸ hindexed')
      · exact hne hindexed'
  · rintro ⟨⟨hg, hne⟩, hother⟩
    refine ⟨.inr ⟨hg, fun hindexed => ?_, hother⟩, ?_⟩
    · obtain ⟨rfl, -⟩ := (h.backed hindexed).unique h.tree hg rfl
      exact hne hindexed
    · split_ifs
      · exact fun hnew => hother (Option.some.inj hnew ▸ rfl)
      · exact hne

/-! ## Restarts -/

/-- Keeps one content after the other, each under its number. -/
def putAll (hash : Bytes → String) (s : SmallFiles) : List (Int × Bytes) → Act SmallFiles
  | [] => return s
  | (id, content) :: calls => do
    let kept ← put hash s id content
    putAll hash kept.1 calls

/-- Calls leave those old versions that none of them writes. -/
theorem putAll_left (hhash : ∀ content, IsDigest (hash content)) :
    ∀ {calls : List (Int × Bytes)} {s s' : SmallFiles} {scene scene' : Scene},
      (∀ call ∈ calls, IsInt64 call.1) → Kept hash s scene.disk →
      (putAll hash s calls).run.run scene = (.ok s', scene') →
      s'.directory = s.directory ∧ Kept hash s' scene'.disk
        ∧ ∀ id f, Left hash s' scene'.disk id f ↔ Left hash s scene.disk id f
          ∧ ∀ call ∈ calls, f.path ≠ (fileOf hash s.directory call.1 call.2).path
  | [], s, s', scene, scene', _, h, hrun => by
    obtain ⟨hs, rfl⟩ := Prod.mk.inj hrun
    obtain rfl := Except.ok.inj hs
    exact ⟨rfl, h, fun id f => by simp⟩
  | (id, content) :: calls, s, s', scene, scene', hids, h, hrun => by
    obtain ⟨hid, hids⟩ := List.forall_mem_cons.1 hids
    rw [putAll, run_bind] at hrun
    cases hput : (put hash s id content).run.run scene with
    | mk r middle =>
      rw [hput] at hrun
      cases r with
      | error e => exact nomatch (Prod.mk.inj hrun).1
      | ok made =>
        obtain ⟨hdir, hkept⟩ := put_kept hid (hhash content) h hput
        obtain ⟨hdir', hkept', hleft⟩ := putAll_left hhash hids hkept hrun
        refine ⟨hdir'.trans hdir, hkept', fun id' g => ?_⟩
        rw [hleft, left_put hid (hhash content) h hput, hdir, List.forall_mem_cons, and_assoc]

/-- The digests that are indexed, by their numbers. -/
def digest? (s : SmallFiles) (id : Int) : Option String := (s.files.get? id).map (·.digest)

/-- However the directory is listed, a new manager comes to the same digests. -/
def Survives (hash : Bytes → String) (directory : Path) (s : SmallFiles) (scene : Scene) : Prop :=
  ∀ later : Scene, scene.disk.Relists later.disk →
    ∃ s' scene', (init hash { directory }).run.run later = (.ok s', scene')
      ∧ ∀ id, s'.digest? id = s.digest? id

/-- The index survives if whatever is left has the digest that is indexed. -/
theorem survives_iff (h : Kept hash s scene.disk) : Survives hash s.directory s scene
    ↔ ∀ id f, Left hash s scene.disk id f → s.digest? id = some f.digest := by
  constructor
  · -- the version that is left may be the last one that is listed
    rintro hsurvives id f ⟨hf, -⟩
    have ⟨name, content, hpath, hfind, _⟩ := hf
    have hentry := (Disk.find_ok_iff.1 hfind).2.1
    obtain ⟨d, hrelists, before, hchildren⟩ := Disk.exists_relists_last hentry
    have ht := hrelists.isTree h.tree
    obtain ⟨s', scene', hrun, hsame⟩ := hsurvives { scene with disk := d } hrelists
    obtain ⟨t, after, hfresh, -, -, hlast⟩ :=
      init_fresh hash { scene with disk := d } ht (hrelists.isDirectory h.there)
    obtain rfl := Except.ok.inj (Prod.mk.inj (hrun.symm.trans hfresh)).1
    have hversion : versionOf? hash s.directory d id name = some f :=
      (versionOf_iff ht (h.tree.of_concat hentry).1).2 ⟨hpath, hf.relists hrelists⟩
    rw [← hsame, digest?, hlast, versions]
    simp only [Disk.placeOf_congr hrelists.workplace, hchildren, List.filterMap_append,
      List.filterMap_cons_some hversion, List.filterMap_nil, List.getLast?_concat, Option.map_some]
  · intro hleft later hrelists
    have ht := hrelists.isTree h.tree
    obtain ⟨s', scene', hrun, -, -, hlast⟩ :=
      init_fresh hash later ht (hrelists.isDirectory h.there)
    refine ⟨s', scene', hrun, fun id => ?_⟩
    cases hversion : (versions hash s.directory later.disk id).getLast? with
    | none =>
      have hnone : s.files.get? id = none := by
        by_contra hsome
        obtain ⟨f, hf⟩ := Option.ne_none_iff_exists'.1 hsome
        have hmem := (mem_versions ht).2 ((h.backed hf).relists hrelists)
        rw [List.getLast?_eq_none_iff.1 hversion] at hmem
        exact nomatch hmem
      rw [digest?, hlast, hversion, digest?, hnone]
    | some f =>
      have hf := (backed_relists hrelists).1 ((mem_versions ht).1 (List.mem_of_getLast? hversion))
      rw [digest?, hlast, hversion, Option.map_some]
      by_cases hindexed : s.files.get? id = some f
      · rw [digest?, hindexed, Option.map_some]
      · exact (hleft id f ⟨hf, hindexed⟩).symm

/-- After `init` and calls that succeed, the digests survive a restart in every order of listing
exactly if each version that `init` found and did not index was either written anew by a call under
its very name, or has the digest that is indexed in the end. -/
theorem survives_restart_iff (hhash : ∀ content, IsDigest (hash content))
    (htree : scene.disk.IsTree) {begun : Scene}
    (hinit : (init hash { directory }).run.run scene = (.ok s, begun)) {calls : List (Int × Bytes)}
    (hids : ∀ call ∈ calls, IsInt64 call.1)
    (hputs : (putAll hash s calls).run.run begun = (.ok s', scene')) :
    Survives hash directory s' scene' ↔ ∀ id f, Backed hash directory begun.disk id f →
      s.files.get? id ≠ some f →
      (∀ call ∈ calls, f.path ≠ (fileOf hash directory call.1 call.2).path) →
        s'.digest? id = some f.digest := by
  obtain ⟨rfl, hkept⟩ := init_kept htree hinit
  obtain ⟨hdir, hkept', hleft⟩ := putAll_left hhash hids hkept hputs
  have hsurvives := survives_iff hkept'
  rw [hdir] at hsurvives
  refine hsurvives.trans (forall₂_congr fun id f => ?_)
  rw [hleft, and_imp, Left, and_imp]

/-- What a run comes to can be found out by running. -/
instance decidableRunOk {α : Type} {P : α → Scene → Prop} [∀ a t, Decidable (P a t)] :
    (r : Except Failure α × Scene) → Decidable (∃ a t, r = (.ok a, t) ∧ P a t)
  | (.ok a, t) => decidable_of_iff (P a t)
    ⟨fun h => ⟨a, t, rfl, h⟩, fun ⟨_, _, hr, h⟩ => by cases hr; exact h⟩
  | (.error _, _) => .isFalse fun ⟨_, _, hr, _⟩ => by cases hr

/-- A directory with two files of the number 7, one of them with a sign in its name, and one that is
no small file. -/
def strewnScene : Scene where
  disk := { entries := ⟨[(["f"], .directory),
    (["f", "007.c4ca4238a0b923820dcc509a6f75849b"], .file [49]),
    (["f", "+7.C81E728D9D4C2F636F067F89CC14862C"], .file [50]), (["f", "7"], .file [51])],
    by decide⟩ }

/-- Of the two versions in the directory of `strewnScene`, `init` does not index the first one. It
is left when another version is kept, and has the same digest. -/
theorem survives_restart_strewn : ∃ s begun s' scene',
    (init md5Hex { directory := ⟨"/f"⟩ }).run.run strewnScene = (.ok s, begun)
      ∧ (putAll md5Hex s [(7, [49])]).run.run begun = (.ok s', scene')
      ∧ scene'.disk.children ["f"]
        = ["007.c4ca4238a0b923820dcc509a6f75849b", "7.c4ca4238a0b923820dcc509a6f75849b"]
      ∧ Survives md5Hex ⟨"/f"⟩ s' scene' := by
  have htree : strewnScene.disk.IsTree := by decide +kernel
  have hids : ∀ call ∈ ([(7, [49])] : List (Int × Bytes)), IsInt64 call.1 := by
    simp [IsInt64, int64Min, int64Max]
  have hfirst : identify md5Hex "007.c4ca4238a0b923820dcc509a6f75849b" [49]
      = some (7, "c4ca4238a0b923820dcc509a6f75849b") := by decide +kernel
  have hsecond : identify md5Hex "+7.C81E728D9D4C2F636F067F89CC14862C" [50]
      = some (7, "c81e728d9d4c2f636f067f89cc14862c") := by decide +kernel
  obtain ⟨s, begun, hinit, ⟨hplace, hchildren, hindexed, hentry₁, hentry₂⟩, s', scene', hputs,
      hchildren', hdigest⟩ : ∃ s begun,
      (init md5Hex { directory := ⟨"/f"⟩ }).run.run strewnScene = (.ok s, begun)
      ∧ (begun.disk.placeOf ⟨"/f"⟩ = ["f"]
        ∧ begun.disk.children ["f"]
          = ["007.c4ca4238a0b923820dcc509a6f75849b", "+7.C81E728D9D4C2F636F067F89CC14862C"]
        ∧ s.files.get? 7 = some ⟨(⟨"/f"⟩ : Path) / "+7.C81E728D9D4C2F636F067F89CC14862C",
            "c81e728d9d4c2f636f067f89cc14862c"⟩
        ∧ begun.disk.entry? ["f", "007.c4ca4238a0b923820dcc509a6f75849b"] = some (.file [49])
        ∧ begun.disk.entry? ["f", "+7.C81E728D9D4C2F636F067F89CC14862C"] = some (.file [50]))
      ∧ ∃ s' scene', (putAll md5Hex s [(7, [49])]).run.run begun = (.ok s', scene')
        ∧ scene'.disk.children ["f"]
          = ["007.c4ca4238a0b923820dcc509a6f75849b", "7.c4ca4238a0b923820dcc509a6f75849b"]
        ∧ s'.digest? 7 = some "c4ca4238a0b923820dcc509a6f75849b" := by
    decide +kernel
  refine ⟨s, begun, s', scene', hinit, hputs, hchildren', ?_⟩
  refine (survives_restart_iff isDigest_md5Hex htree hinit hids hputs).2 ?_
  rintro id f ⟨name, content, hpath, hfind, hid⟩ hne -
  have hentry := (Disk.find_ok_iff.1 hfind).2.1
  rw [hplace] at hentry
  have hname := Disk.mem_children.2 ⟨_, hentry⟩
  rw [hchildren, List.mem_pair] at hname
  rcases hname with rfl | rfl
  · obtain rfl : content = [49] := by simpa using hentry.symm.trans hentry₁
    obtain ⟨rfl, hfirst⟩ := Prod.mk.inj (Option.some.inj (hfirst.symm.trans hid))
    rw [hdigest, hfirst]
  · obtain rfl : content = [50] := by simpa using hentry.symm.trans hentry₂
    obtain ⟨rfl, hsecond⟩ := Prod.mk.inj (Option.some.inj (hsecond.symm.trans hid))
    refine absurd (hindexed.trans ?_) hne
    rw [hsecond, ← hpath]

/-- Three versions of the number 7, as calls that were interrupted have left them. -/
def olderScene : Scene where
  disk := { entries := ⟨[(["f"], .directory),
    (["f", "7.c4ca4238a0b923820dcc509a6f75849b"], .file [49]),
    (["f", "7.eccbc87e4b5ce2fe28308fd9f2a7baf3"], .file [51]),
    (["f", "7.c81e728d9d4c2f636f067f89cc14862c"], .file [50])], by decide⟩ }

/-- A content is kept in the place of the last version, and after a restart its number has an older
one. -/
theorem older_version_returns : olderScene.disk.IsTree
    ∧ ∃ s begun, (init md5Hex { directory := ⟨"/f"⟩ }).run.run olderScene = (.ok s, begun)
    ∧ ∃ s' scene', (putAll md5Hex s [(7, [49])]).run.run begun = (.ok s', scene')
      ∧ s'.digest? 7 = some "c4ca4238a0b923820dcc509a6f75849b"
    ∧ ∃ s'' scene'', (init md5Hex { directory := ⟨"/f"⟩ }).run.run scene' = (.ok s'', scene'')
      ∧ s''.digest? 7 = some "eccbc87e4b5ce2fe28308fd9f2a7baf3" := by
  decide +kernel

end SmallFiles

end QueryHost
