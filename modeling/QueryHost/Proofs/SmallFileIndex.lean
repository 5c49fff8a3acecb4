import QueryHost.Proofs.LinkedTrees
import QueryHost.Proofs.SmallFileVersions

/-!
# The index of the small files

On a disk with links, whatever files and directories are in the manager's directory at first, and in
whatever order it is listed, the files that are indexed are there and are what their names say
(`SmallFiles.Run.index_agrees`). An indexed file outlives every removal and every write on behalf of
another number: its name gives its own number, and a file is only removed as invalid if its name
does not fit its content (`SmallFiles.Indexed`).

This is so because a name of the directory stands for a file of its own. The manager does not ask
what a name stands for: it indexes what a symbolic link leads to, and writes to a file of several
names under each of them, so that an entry of the index can lose its file to another one
(`SmallFiles.index_misled_by_links`).
-/

namespace QueryHost

namespace LinkedDisk

/-- What others may do to a disk that leave a directory alone: the path still leads to it, and its
entries and their contents are as they were. The order in which it lists them may be another one. -/
structure LeavesBe (d : LinkedDisk) (p : Path) (d' : LinkedDisk) : Prop where
  tree : d.IsTree → d'.IsTree
  plain : d.IsPlain p → d'.IsPlain p
  place : ∀ {place}, d.placeOf? (.text p) = some place → d'.placeOf? (.text p) = some place
  entries : ∀ {place}, d.placeOf? (.text p) = some place →
    ∀ name, d'.entry? (place ++ [name]) = d.entry? (place ++ [name])
  contents : ∀ {place}, d.placeOf? (.text p) = some place →
    ∀ {name node}, d.entry? (place ++ [name]) = some (.file node) → d'.content node = d.content node

theorem LeavesBe.hasFile {d d' : LinkedDisk} {p : Path} {place : EntryPlace} {name : EntryName}
    {node : Nat} (h : d.LeavesBe p d') (ht' : d'.IsTree) (hf : d.HasFile p place name node) :
    d'.HasFile p place name node := by
  have hfile := (h.entries hf.directory name).trans hf.file
  obtain ⟨hname, hdir⟩ := ht'.proper hfile
  have hplace := h.place hf.directory
  obtain ⟨hfits, -⟩ := locate_ok_iff.1 hf.found
  refine ⟨hplace, locate_ok_iff.2 ⟨hfits, ?_⟩, hfile⟩
  rw [names_entry hname, isAbsolute_entry hname]
  exact resolve_append hdir hname (by simp [hfile]) (placeOf_eq_some_iff.1 hplace)

end LinkedDisk

namespace SmallFiles

open LinkedDisk (HasFile IsPlain PlainAt Steady Grows LeavesBe)

variable {hash : Bytes → String} {directory : Path} {d d' : LinkedDisk} {id : Int} {f : SmallFile}
  {s : SmallFiles} {start scene scene' : SceneOn LinkedDisk} {name : String} {content : Bytes}
  {place : EntryPlace} {node : Nat}

/-- The file is one of the directory, and its name fits its content and gives its number. -/
def Indexed (hash : Bytes → String) (directory : Path) (d : LinkedDisk) (id : Int) (f : SmallFile) :
    Prop :=
  ∃ name place node, f.path = directory / name ∧ IsName name
    ∧ d.HasFile directory place (.text name) node
    ∧ identify hash name (d.content node) = some (id, f.digest)

/-- All files of the index are what it says. -/
structure Sound (hash : Bytes → String) (s : SmallFiles) (d : LinkedDisk) : Prop where
  tree : d.IsTree
  plain : d.IsPlain s.directory
  indexed : ∀ {id f}, s.files.get? id = some f → Indexed hash s.directory d id f

theorem Indexed.grows (h : Indexed hash directory d id f) (hg : d.Grows d') :
    Indexed hash directory d' id f := by
  obtain ⟨name, place, node, hpath, hname, hfile, hid⟩ := h
  refine ⟨name, place, node, hpath, hname, hfile.steady hg.steady (hg.kept hfile.file), ?_⟩
  rwa [LinkedDisk.content, hg.contents]

theorem Sound.grows (h : Sound hash s d) (hg : d.Grows d') : Sound hash s d' :=
  ⟨hg.tree h.tree, h.plain.grows hg, fun hf => (h.indexed hf).grows hg⟩

theorem Sound.leavesBe (h : Sound hash s d) (ho : d.LeavesBe s.directory d') :
    Sound hash s d' := by
  refine ⟨ho.tree h.tree, ho.plain h.plain, fun hf => ?_⟩
  obtain ⟨name, place, node, hpath, hname, hfile, hid⟩ := h.indexed hf
  refine ⟨name, place, node, hpath, hname, ho.hasFile (ho.tree h.tree) hfile, ?_⟩
  rwa [ho.contents hfile.directory hfile.file]

theorem Sound.index (h : Sound hash s d) (hf : Indexed hash s.directory d id f) :
    Sound hash { s with files := s.files.put id f } d := by
  refine ⟨h.tree, h.plain, fun {id' f'} hf' => ?_⟩
  rw [Assoc.get?_put] at hf'
  split_ifs at hf' with hid
  · obtain rfl := Option.some.inj hf'
    exact hid ▸ hf
  · exact h.indexed hf'

/-- A file that no entry of the index is about may be taken away. -/
theorem Sound.remove {name : EntryName} (h : Sound hash s d) (hname : name.IsProper)
    (hfile : d.HasFile s.directory place name node)
    (hother : ∀ id f text, s.files.get? id = some f → name = .text text →
      identify hash text (d.content node) = some (id, f.digest) → f.path ≠ s.directory / text)
    (hok : d.removeFile (s.directory.entry name) = .ok d') : Sound hash s d' := by
  obtain rfl := LinkedDisk.removeFile_ok hfile hname hok
  have hne : place ++ [name] ≠ [] := by simp
  have hsteady := LinkedDisk.steady_erase hfile.file
  refine ⟨h.tree.erase (by simp [hfile.file]), ?_, fun {id f} hf => ?_⟩
  · exact LinkedDisk.isPlain_of_placeOf (hsteady.placeOf hfile.directory)
      ((h.plain.at hfile.directory).erase hne)
  · obtain ⟨text, place', node', hpath, htext, hfile', hid⟩ := h.indexed hf
    refine ⟨text, place', node', hpath, htext, hfile'.steady hsteady ?_, hid⟩
    rw [LinkedDisk.entry_erase hne, if_neg, hfile'.file]
    intro hsame
    obtain ⟨rfl, rfl⟩ := List.append_singleton_inj.1 hsame
    obtain ⟨-, rfl⟩ := hfile.unique hfile'
    exact hother id f text hf rfl hid hpath

/-- An index is about the files of the numbers that it was about, and about the one of a content
that was written. -/
theorem Sound.written (h : Sound hash s d) (hid : IsInt64 id) (hd : IsDigest (hash content))
    (hs : d.Steady d') (ht : d'.IsTree) (hplain : d'.IsPlain s.directory)
    (hown : d'.HasFile s.directory place (.text (fileName id (hash content))) node)
    (hcontent : d'.content node = content)
    (hother : ∀ {text node'}, text ≠ fileName id (hash content) →
      d.HasFile s.directory place (.text text) node' →
        d'.entry? (place ++ [.text text]) = some (.file node')
          ∧ d'.content node' = d.content node') :
    Sound hash { s with files := s.files.put id (fileOf hash s.directory id content) } d' := by
  refine ⟨ht, hplain, fun {id' f} hf => ?_⟩
  rw [Assoc.get?_put] at hf
  split_ifs at hf with hsame
  · obtain rfl := Option.some.inj hf
    refine ⟨_, place, node, rfl, isName_fileName hid hd, hown, ?_⟩
    rw [hcontent, hsame]
    exact identify_fileName hid hd
  · obtain ⟨text, place', node', hpath, htext, hfile, hid'⟩ := h.indexed hf
    obtain rfl : place' = place :=
      Option.some.inj ((hs.placeOf hfile.directory).symm.trans hown.directory)
    have hne : text ≠ fileName id (hash content) := by
      rintro rfl
      exact hsame (identify_number hid' (identify_fileName hid hd))
    obtain ⟨hentry, hkept⟩ := hother hne hfile
    exact ⟨text, place', node', hpath, htext, hfile.steady hs hentry, hkept ▸ hid'⟩

/-- A content that is written under its name is the file of its number, and the files of the other
numbers are as they were. -/
theorem Sound.write (h : Sound hash s d) (hid : IsInt64 id) (hd : IsDigest (hash content))
    (hok : d.write (fileOf hash s.directory id content).path content = .ok d') :
    Sound hash { s with files := s.files.put id (fileOf hash s.directory id content) } d' := by
  have hname := isName_fileName hid hd
  obtain ⟨place, hplace, hdir, hfound, hold | hnew⟩ := LinkedDisk.write_ok h.plain hname hok
  · obtain ⟨node, hentry, rfl⟩ := hold
    have hsteady : d.Steady { d with contents := d.contents.set node content } :=
      ⟨rfl, fun hk => hk, Iff.rfl⟩
    refine h.written hid hd hsteady (h.tree.set node content)
      (LinkedDisk.isPlain_of_placeOf (hsteady.placeOf hplace) ?_)
      ⟨hsteady.placeOf hplace, hsteady.locate hfound, hentry⟩ ?_ fun {text node'} hne hfile => ?_
    · exact ⟨(h.plain.at hplace).no_link, (h.plain.at hplace).single⟩
    · simp [LinkedDisk.content, h.tree.content hentry]
    · have hnode : node ≠ node' := by
        rintro rfl
        have := (h.plain.at hplace).single hfile.file hentry
        simp only [EntryName.text.injEq] at this
        exact hne this
      exact ⟨hfile.file, by simp [LinkedDisk.content, hnode]⟩
  · obtain ⟨hnone, rfl⟩ := hnew
    have hne : place ++ [.text (fileName id (hash content))] ≠ [] := by simp
    have hsteady := LinkedDisk.steady_put hnone d.contents.length (d.contents ++ [content])
    have hproper : (EntryName.text (fileName id (hash content))).IsProper := hname
    have hown := LinkedDisk.entry_put (d := d) hne (.file d.contents.length)
      (d.contents ++ [content]) (place ++ [.text (fileName id (hash content))])
    rw [if_pos rfl] at hown
    refine h.written hid hd hsteady (h.tree.put hproper hdir hnone (by simp) (by simp))
      (LinkedDisk.isPlain_of_placeOf (hsteady.placeOf hplace) ?_)
      ⟨hsteady.placeOf hplace, hsteady.locate hfound, hown⟩ ?_ fun {text node'} hne' hfile => ?_
    · exact (h.plain.at hplace).put hne _ fun name he => (h.tree.content he).ne rfl
    · simp [LinkedDisk.content]
    · rw [LinkedDisk.entry_put hne, if_neg (by simpa using hne'), hfile.file]
      exact ⟨rfl,
        by simp [LinkedDisk.content, List.getElem?_append_left (h.tree.content hfile.file)]⟩

/-- The file of a name that is a text is indexed as the name says, if the content fits it. -/
theorem loadSingle_text (hname : IsName name)
    (hfile : d.HasFile directory place (.text name) node) :
    loadSingle hash directory d (.text name) = (identify hash name (d.content node)).map
      fun (id, digest) => (id, ⟨directory / name, digest⟩) := by
  have hread : FileSystem.read d (directory / name) = .ok (d.content node) := hfile.read hname
  simp [loadSingle, hread, Except.toOption]

theorem Indexed.of_loadSingle {name : EntryName} (hname : name.IsProper)
    (hfile : d.HasFile directory place name node)
    (hload : loadSingle hash directory d name = some (id, f)) : Indexed hash directory d id f := by
  cases name with
  | raw bytes undecodable => cases hload
  | text name =>
    rw [loadSingle_text hname hfile, Option.map_eq_some_iff] at hload
    obtain ⟨⟨id', digest⟩, hid, hf⟩ := hload
    obtain ⟨rfl, rfl⟩ := Prod.mk.inj hf
    exact ⟨name, place, node, rfl, hname, hfile, hid⟩

/-- A name that is listed is indexed, or its file may be removed. -/
theorem load_sound (hash : Bytes → String) : ∀ (names : List EntryName) {s : SmallFiles}
    {scene : SceneOn LinkedDisk}, (∀ name ∈ names, name.IsProper) → Sound hash s scene.disk →
      ∃ s' scene', (load hash s names).run.run scene = (.ok s', scene')
        ∧ s'.directory = s.directory ∧ Sound hash s' scene'.disk
  | [], s, scene, _, h => ⟨s, scene, rfl, rfl, h⟩
  | name :: rest, s, scene, hnames, h => by
    obtain ⟨hname, hrest⟩ := List.forall_mem_cons.1 hnames
    show ∃ s' scene', (Act.disk >>= fun d => _).run.run scene = (.ok s', scene') ∧ _
    rw [Act.run_disk_bind]
    split
    · exact load_sound hash rest hrest h
    · rename_i hisfile
      have hisfile : FileSystem.isFile scene.disk (s.directory.entry name) = true := by
        simpa using hisfile
      obtain ⟨place, node, hfile⟩ := LinkedDisk.hasFile_of_isFile h.plain hname hisfile
      split
      · rename_i hload
        exact load_sound hash rest hrest (h.index (.of_loadSingle hname hfile hload))
      · rename_i hinvalid
        rw [Act.warn, Act.run_report_bind]
        split
        · rename_i hok
          rw [Act.run_setDisk_bind]
          refine load_sound hash rest hrest
            (h.remove hname hfile (fun id f text _ hsame hid => ?_) hok)
          subst hsame
          rw [loadSingle_text hname hfile, hid] at hinvalid
          cases hinvalid
        · exact load_sound hash rest hrest h

/-- `init` indexes files that are there and are what their names say. -/
theorem init_sound {r : Except Failure SmallFiles} (h : Sound hash s scene.disk)
    (hrun : (init hash s).run.run scene = (r, scene')) :
    (r.toOption.getD s).directory = s.directory ∧ Sound hash (r.toOption.getD s) scene'.disk := by
  have hgrown := h.grows (scene.disk.grows_makeDirectories s.directory)
  rw [init, run_bind, Act.run_makeDirectories] at hrun
  generalize FileSystem.makeDirectories scene.disk s.directory = made at hgrown hrun
  obtain ⟨d, failed | made⟩ := made
  · obtain ⟨rfl, rfl⟩ := Prod.mk.inj hrun
    exact ⟨rfl, hgrown⟩
  · simp only [Except.mapError] at hrun
    rw [Act.run_disk_bind] at hrun
    split at hrun
    · obtain ⟨rfl, rfl⟩ := Prod.mk.inj hrun
      exact ⟨rfl, hgrown⟩
    · rename_i names hlist
      have hgrown : Sound hash s { scene with disk := d }.disk := hgrown
      obtain ⟨s', loaded, hload, hdirectory, hsound⟩ :=
        load_sound hash names (LinkedDisk.proper_of_list hgrown.tree hlist) hgrown
      rw [run_bind, hload] at hrun
      obtain ⟨rfl, rfl⟩ := Prod.mk.inj hrun
      exact ⟨hdirectory, hsound⟩

/-- A file that is written under its name, and the removal of the file that had the number before,
leave the files of the other numbers alone. Only the entry of `id` could be about the old file, and
it is about the new one by then. -/
theorem put_sound {r : Except Failure (SmallFiles × SmallFile)} (hid : IsInt64 id)
    (hd : IsDigest (hash content)) (h : Sound hash s scene.disk)
    (hrun : (put hash s id content).run.run scene = (r, scene')) :
    ((r.toOption.map (·.1)).getD s).directory = s.directory
      ∧ Sound hash ((r.toOption.map (·.1)).getD s) scene'.disk := by
  rcases put_cases hrun with ⟨e, -, rfl, rfl⟩ | ⟨d, hwrite, rfl, hdisk⟩
  · exact ⟨rfl, h⟩
  · refine ⟨rfl, ?_⟩
    have hwritten := h.write hid hd hwrite
    rcases hdisk with ⟨old, hold, hmoved, hdisk⟩ | ⟨-, hdisk⟩
    · rw [hdisk]
      cases hremove : FileSystem.removeFile d (.text old.path) with
      | error e => exact hwritten
      | ok d' =>
        obtain ⟨name, _, _, hpath, hname, -, hid'⟩ := h.indexed hold
        have hproper : (EntryName.text name).IsProper := hname
        rw [hpath] at hremove hmoved
        obtain ⟨place, node, hfile⟩ :=
          LinkedDisk.hasFile_of_removeFile hwritten.plain hproper hremove
        refine hwritten.remove hproper hfile (fun id' f text hf hsame hid'' hpath' => ?_) hremove
        obtain rfl := EntryName.text.inj hsame
        obtain rfl := identify_number hid' hid''
        rw [Assoc.get?_put, if_pos rfl] at hf
        exact hmoved (Option.some.inj hf ▸ hpath'.symm)
    · rw [hdisk]
      exact hwritten

/-! ## Runs of calls -/

/-- The managers that calls lead to from a new one and a scene, each with the scene it is in. A call
that fails leaves the manager as it was. Between two calls, others may do what leaves the directory
alone: so it may be listed in another order every time. -/
inductive Run (hash : Bytes → String) (directory : Path) (start : SceneOn LinkedDisk) :
    SmallFiles → SceneOn LinkedDisk → Prop
  | new : Run hash directory start { directory } start
  | init {s : SmallFiles} {scene scene' : SceneOn LinkedDisk} {r : Except Failure SmallFiles}
      (h : Run hash directory start s scene)
      (hrun : (SmallFiles.init hash s).run.run scene = (r, scene')) :
      Run hash directory start (r.toOption.getD s) scene'
  | put {s : SmallFiles} {scene scene' : SceneOn LinkedDisk}
      {r : Except Failure (SmallFiles × SmallFile)} (h : Run hash directory start s scene)
      (id : Int) (hid : IsInt64 id) (content : Bytes)
      (hrun : (SmallFiles.put hash s id content).run.run scene = (r, scene')) :
      Run hash directory start ((r.toOption.map (·.1)).getD s) scene'
  | others {s : SmallFiles} {scene scene' : SceneOn LinkedDisk}
      (h : Run hash directory start s scene) (hbe : scene.disk.LeavesBe directory scene'.disk) :
      Run hash directory start s scene'

theorem Run.sound (hhash : ∀ content, IsDigest (hash content)) (htree : start.disk.IsTree)
    (hplain : start.disk.IsPlain directory) (h : Run hash directory start s scene) :
    s.directory = directory ∧ Sound hash s scene.disk := by
  induction h with
  | new => exact ⟨rfl, htree, hplain, nofun⟩
  | init _ hrun ih =>
    obtain ⟨hdirectory, hsound⟩ := init_sound ih.2 hrun
    exact ⟨hdirectory.trans ih.1, hsound⟩
  | put _ id hid content hrun ih =>
    obtain ⟨hdirectory, hsound⟩ := put_sound hid (hhash content) ih.2 hrun
    exact ⟨hdirectory.trans ih.1, hsound⟩
  | others _ hbe ih => exact ⟨ih.1, ih.2.leavesBe (ih.1 ▸ hbe)⟩

/-- If the directory is plain at first, every indexed file is a regular one directly in it, its name
gives its number and its content has the digest that is kept of it; and it is given for the texts
that are that digest up to case. -/
theorem Run.index_agrees (hhash : ∀ content, IsDigest (hash content)) (htree : start.disk.IsTree)
    (hplain : start.disk.IsPlain directory) (h : Run hash directory start s scene) (id : Int)
    (f : SmallFile) :
    (s.files.get? id = some f → ∃ name number rest place node,
      f.path = directory / name
        ∧ scene.disk.placeOf? (.text directory) = some place
        ∧ scene.disk.entry? (place ++ [.text name]) = some (.file node)
        ∧ scene.disk.find (.text f.path) = .ok (place ++ [.text name], .file node)
        ∧ name.toList = number ++ '.' :: rest ∧ '.' ∉ number ∧ readInt64 number = some id
        ∧ hash (scene.disk.content node) = f.digest)
      ∧ ∀ digest : String, s.get? id digest = some f ↔ s.files.get? id = some f
        ∧ digest.toList.map Char.toLower = f.digest.toList.map Char.toLower := by
  obtain ⟨rfl, hsound⟩ := h.sound hhash htree hplain
  refine ⟨fun hf => ?_, fun digest => ?_⟩
  · obtain ⟨name, place, node, hpath, hname, hfile, hid⟩ := hsound.indexed hf
    obtain ⟨number, rest, htext, hpoint, hnumber, -⟩ := identify_iff.1 hid
    have hproper : (EntryName.text name).IsProper := hname
    refine ⟨name, number, rest, place, node, hpath, hfile.directory, hfile.file, ?_, htext, hpoint,
      hnumber, identify_digest (hhash _) hid⟩
    rw [hpath]
    exact hfile.find hproper
  · rw [get?, Option.filter_eq_some_iff, sameLetters_iff, eq_comm (a := List.map _ digest.toList)]

/-- A name that is the encoding of no text. -/
def rawName : EntryName := .raw [55, 46, 255] (by decide +kernel)

/-- A directory that is reached over a symbolic link, with two files of the number 7, one of them
with a sign in its name, a file that is no small file, one whose name is no text, and a
directory. -/
def strewnStart : SceneOn LinkedDisk where
  disk := {
    entries := ⟨[([.text "d"], .directory), ([.text "f"], .link ⟨false, [.text "d"]⟩),
      ([.text "d", .text "007.c4ca4238a0b923820dcc509a6f75849b"], .file 0),
      ([.text "d", .text "+7.C81E728D9D4C2F636F067F89CC14862C"], .file 1),
      ([.text "d", .text "7"], .file 2), ([.text "d", rawName], .file 3),
      ([.text "d", .text "7.d"], .directory)], by decide⟩
    contents := [[49], [50], [51], [52]] }

def renewedFile : SmallFile :=
  ⟨⟨"/f/7.a87ff679a2f3e71d9181a67b7542122c"⟩, "a87ff679a2f3e71d9181a67b7542122c"⟩

/-- The second file is indexed, and makes way for a new content of its number; what is no small file
is removed, whether or not its name is a text. -/
theorem Run.index_agrees_strewn : ∃ s scene, Run md5Hex ⟨"/f"⟩ strewnStart s scene
    ∧ s.files.get? 7 = some renewedFile
    ∧ (∃ name number rest place node, renewedFile.path = (⟨"/f"⟩ : Path) / name
      ∧ scene.disk.placeOf? (.text ⟨"/f"⟩) = some place
      ∧ scene.disk.entry? (place ++ [.text name]) = some (.file node)
      ∧ scene.disk.find (.text renewedFile.path) = .ok (place ++ [.text name], .file node)
      ∧ name.toList = number ++ '.' :: rest ∧ '.' ∉ number ∧ readInt64 number = some 7
      ∧ md5Hex (scene.disk.content node) = renewedFile.digest)
    ∧ s.get? 7 "A87FF679A2F3E71D9181A67B7542122C" = some renewedFile
    ∧ scene.disk.list ⟨"/f"⟩ = .ok [.text "007.c4ca4238a0b923820dcc509a6f75849b", .text "7.d",
      .text "7.a87ff679a2f3e71d9181a67b7542122c"] := by
  have htree : strewnStart.disk.IsTree := by decide +kernel
  have hplace : strewnStart.disk.placeOf? (.text ⟨"/f"⟩) = some [.text "d"] := by decide +kernel
  have hplain : strewnStart.disk.IsPlain ⟨"/f"⟩ := LinkedDisk.isPlain_of_placeOf hplace
    (LinkedDisk.plainAt_of_toList (by decide +kernel) (by decide +kernel))
  obtain ⟨s, scene, hrun, hfile, hlist⟩ : ∃ s scene, Run md5Hex ⟨"/f"⟩ strewnStart s scene
      ∧ s.files.get? 7 = some renewedFile
      ∧ scene.disk.list ⟨"/f"⟩ = .ok [.text "007.c4ca4238a0b923820dcc509a6f75849b", .text "7.d",
        .text "7.a87ff679a2f3e71d9181a67b7542122c"] :=
    ⟨_, _, (Run.new.init Prod.mk.eta.symm).put 7 ⟨by decide, by decide⟩ [52] Prod.mk.eta.symm,
      by decide +kernel⟩
  obtain ⟨hindexed, hgiven⟩ :=
    Run.index_agrees isDigest_md5Hex htree hplain hrun 7 renewedFile
  exact ⟨s, scene, hrun, hfile, hindexed hfile, (hgiven _).2 ⟨hfile, by decide +kernel⟩, hlist⟩

/-- A symbolic link that bears the name of a small file, and leads to one. -/
def linkedStart : SceneOn LinkedDisk where
  disk := {
    entries := ⟨[([.text "f"], .directory),
      ([.text "f", .text "8.c4ca4238a0b923820dcc509a6f75849b"], .file 0),
      ([.text "f", .text "7.c4ca4238a0b923820dcc509a6f75849b"],
        .link ⟨false, [.text "8.c4ca4238a0b923820dcc509a6f75849b"]⟩)], by decide⟩
    contents := [[49]] }

/-- A file with two names, one of them that of another content. -/
def sharedStart : SceneOn LinkedDisk where
  disk := {
    entries := ⟨[([.text "f"], .directory),
      ([.text "f", .text "7.c4ca4238a0b923820dcc509a6f75849b"], .file 0),
      ([.text "f", .text "8.c81e728d9d4c2f636f067f89cc14862c"], .file 0)], by decide⟩
    contents := [[49]] }

def linkedFile : SmallFile :=
  ⟨⟨"/f/7.c4ca4238a0b923820dcc509a6f75849b"⟩, "c4ca4238a0b923820dcc509a6f75849b"⟩

/-- A symbolic link is indexed, and leads nowhere once the file that it leads to is replaced. A file
is indexed under one of its names, and has another content once that is written under the other. -/
theorem index_misled_by_links :
    (∃ s scene, Run md5Hex ⟨"/f"⟩ linkedStart s scene ∧ s.files.get? 7 = some linkedFile
      ∧ scene.disk.entry? [.text "f", .text "7.c4ca4238a0b923820dcc509a6f75849b"]
        = some (.link ⟨false, [.text "8.c4ca4238a0b923820dcc509a6f75849b"]⟩)
      ∧ scene.disk.find (.text linkedFile.path) = .error (.system .notFound))
    ∧ ∃ s scene, Run md5Hex ⟨"/f"⟩ sharedStart s scene ∧ s.files.get? 7 = some linkedFile
      ∧ scene.disk.read linkedFile.path = .ok [50] ∧ md5Hex [50] ≠ linkedFile.digest :=
  ⟨⟨_, _, (Run.new.init Prod.mk.eta.symm).put 8 ⟨by decide, by decide⟩ [50] Prod.mk.eta.symm,
      by decide +kernel⟩,
    _, _, (Run.new.put 7 ⟨by decide, by decide⟩ [49] Prod.mk.eta.symm).put 8
      ⟨by decide, by decide⟩ [50] Prod.mk.eta.symm, by decide +kernel⟩

end SmallFiles

end QueryHost
