import QueryHost.Proofs.DiskActs
import QueryHost.Proofs.DiskSteps
import QueryHost.Proofs.SmallFileNames

/-!
# Versions of small files

A file of the directory is a version of a number if its name gives the number and fits its content
(`SmallFiles.Backed`). A manager whose index is about such files (`SmallFiles.Agrees`) still is one
when a content is written under its name.
-/

namespace QueryHost

namespace Disk

variable {d d' : Disk} {p : Path} {place goal : Place} {name : String} {e : Entry}

/-- What a path leads to is found again if the directories on its way are there. -/
theorem find_congr (h : d.find p = .ok (place, e)) (hw : d'.workplace = d.workplace)
    (hway : ∀ stop ∈ d.way p, d.entry? stop = some .directory → d'.entry? stop = some .directory)
    (hsame : d'.entry? place = some e) : d'.find p = .ok (place, e) := by
  obtain ⟨⟨hr, rfl⟩, -, hslash⟩ := find_ok_iff.1 h
  exact find_ok_iff.2 ⟨⟨hr.congr hw hway, (placeOf_congr hw p).symm⟩, hsame, hslash⟩

theorem find_put (hfind : d.find p = .ok (place, e)) (hdir : d.entry? goal ≠ some .directory)
    (hne : place ≠ goal) (e' : Entry) : (d.put goal e').find p = .ok (place, e) := by
  have hgoal : goal ≠ [] := by
    rintro rfl
    exact hdir rfl
  refine find_congr hfind rfl (fun stop _ hstop => ?_) ?_
  · rw [entry_put hgoal, if_neg (by rintro rfl; exact hdir hstop)]
    exact hstop
  · rw [entry_put hgoal, if_neg hne]
    exact (find_ok_iff.1 hfind).2.1

/-- To remove a file leaves the other paths as they were. -/
theorem find_erase (ht : d.IsTree) (hfind : d.find p = .ok (place, e))
    (hdir : d.entry? goal ≠ some .directory) (hne : place ≠ goal) :
    (d.erase goal).find p = .ok (place, e) := by
  have hgoal : goal ≠ [] := by
    rintro rfl
    exact hdir rfl
  have hentry : ∀ {k e'}, k ≠ goal → d.entry? k = some e' → entry? (d.erase goal) k = some e' := by
    intro k e' hk he
    rw [entry_erase hgoal, if_neg, he]
    intro hpre
    rw [ht.below hdir hpre hk] at he
    exact nomatch he
  refine find_congr hfind rfl (fun stop _ hstop => hentry ?_ hstop) ?_
  · rintro rfl
    exact hdir hstop
  · exact hentry hne (find_ok_iff.1 hfind).2.1

end Disk

namespace SmallFiles

variable {hash : Bytes → String} {directory : Path} {d d' : Disk} {id : Int} {f : SmallFile}
  {s : SmallFiles} {content : Bytes}

/-- The file that a content is kept in. -/
def fileOf (hash : Bytes → String) (directory : Path) (id : Int) (content : Bytes) : SmallFile :=
  ⟨directory / fileName id (hash content), hash content⟩

/-- What a call to keep a content does on a disk of any kind: it writes the file, and if it can, it
tries to remove the one that is indexed. -/
theorem put_cases {δ : Type} [FileSystem δ] {scene scene' : SceneOn δ}
    {r : Except Failure (SmallFiles × SmallFile)}
    (hrun : (put hash s id content).run.run scene = (r, scene')) :
    (∃ e, FileSystem.write scene.disk (fileOf hash s.directory id content).path content = .error e
      ∧ r = .error (.io ("write small file " ++ (fileOf hash s.directory id content).path.text) e)
      ∧ scene' = scene)
    ∨ ∃ d, FileSystem.write scene.disk (fileOf hash s.directory id content).path content = .ok d
      ∧ r = .ok ({ s with files := s.files.put id (fileOf hash s.directory id content) },
        fileOf hash s.directory id content)
      ∧ ((∃ old, s.files.get? id = some old ∧ old.path ≠ (fileOf hash s.directory id content).path
            ∧ scene'.disk = (FileSystem.removeFile d (.text old.path)).toOption.getD d)
          ∨ (∀ old, s.files.get? id = some old →
              old.path = (fileOf hash s.directory id content).path) ∧ scene'.disk = d) := by
  have hfile : s.directory / (toString id ++ "." ++ hash content)
      = (fileOf hash s.directory id content).path := rfl
  rw [put, run_bind, Act.run_change, hfile] at hrun
  cases hwrite : FileSystem.write scene.disk (fileOf hash s.directory id content).path content with
  | error e =>
    rw [hwrite] at hrun
    obtain ⟨rfl, rfl⟩ := Prod.mk.inj hrun
    exact .inl ⟨e, rfl, rfl, rfl⟩
  | ok d =>
    rw [hwrite] at hrun
    refine .inr ⟨d, rfl, ?_⟩
    simp only [] at hrun
    split at hrun
    · rename_i old hold
      split at hrun
      · rename_i hmoved
        have hmoved : old.path ≠ (fileOf hash s.directory id content).path := by simpa using hmoved
        rw [Act.run_disk_bind] at hrun
        split at hrun
        · rename_i d' hremove
          obtain ⟨rfl, rfl⟩ := Prod.mk.inj hrun
          refine ⟨rfl, .inl ⟨old, hold, hmoved, ?_⟩⟩
          rw [hremove]
          rfl
        · rename_i hremove
          obtain ⟨rfl, rfl⟩ := Prod.mk.inj hrun
          refine ⟨rfl, .inl ⟨old, hold, hmoved, ?_⟩⟩
          cases hd : FileSystem.removeFile d (.text old.path) with
          | error e => rfl
          | ok d' => exact absurd hd (hremove d')
      · rename_i hsame
        obtain ⟨rfl, rfl⟩ := Prod.mk.inj hrun
        refine ⟨rfl, .inr ⟨fun old' hold' => ?_, rfl⟩⟩
        obtain rfl := Option.some.inj (hold.symm.trans hold')
        simpa using hsame
    · rename_i hnone
      obtain ⟨rfl, rfl⟩ := Prod.mk.inj hrun
      refine ⟨rfl, .inr ⟨fun old hold => ?_, rfl⟩⟩
      rw [hnone] at hold
      cases hold

/-- The file is one of the directory, and its name fits its content and gives its number. -/
def Backed (hash : Bytes → String) (directory : Path) (d : Disk) (id : Int) (f : SmallFile) :
    Prop :=
  ∃ name content, f.path = directory / name
    ∧ d.find (directory / name) = .ok (d.placeOf directory ++ [name], .file content)
    ∧ identify hash name content = some (id, f.digest)

theorem Backed.kept (h : Backed hash directory d id f) (hw : d'.workplace = d.workplace)
    (hfind : ∀ name content, f.path = directory / name →
      identify hash name content = some (id, f.digest) →
      d.find (directory / name) = .ok (d.placeOf directory ++ [name], .file content) →
        d'.find (directory / name) = .ok (d.placeOf directory ++ [name], .file content)) :
    Backed hash directory d' id f := by
  obtain ⟨name, content, hpath, hfound, hid⟩ := h
  have hfound' := hfind name content hpath hid hfound
  exact ⟨name, content, hpath, Disk.placeOf_congr hw directory ▸ hfound', hid⟩

/-- All files of the index are what it says. -/
structure Agrees (hash : Bytes → String) (s : SmallFiles) (d : Disk) : Prop where
  tree : d.IsTree
  backed : ∀ {id f}, s.files.get? id = some f → Backed hash s.directory d id f

/-- A content that is written under its name is the file of its number, and the files of the other
numbers are as they were. -/
theorem Agrees.write (h : Agrees hash s d) (hid : IsInt64 id) (hd : IsDigest (hash content))
    (hok : d.write (s.directory / fileName id (hash content)) content = .ok d') :
    Agrees hash
      { s with files := s.files.put id ⟨s.directory / fileName id (hash content), hash content⟩ }
      d' := by
  have hname := isName_fileName hid hd
  have hown := identify_fileName hid hd
  obtain ⟨hr, -, hdir, rfl⟩ := Disk.write_ok_iff.1 hok
  have hplace := Disk.placeOf_join (d := d) (p := s.directory) hname
  generalize fileName id (hash content) = name at *
  have hparent : d.entry? (d.placeOf s.directory) = some .directory :=
    hr.way _ (by simp [Disk.way_join hname])
  rw [hplace] at hdir ⊢
  refine ⟨h.tree.put hname hparent (.inr hdir), fun {id' f} hf => ?_⟩
  rw [Assoc.get?_put] at hf
  split_ifs at hf with hsame
  · obtain rfl := Option.some.inj hf
    subst hsame
    refine ⟨name, content, rfl, Disk.find_ok_iff.2 ⟨⟨?_, hplace.symm⟩, ?_, ?_⟩, hown⟩
    · refine hr.congr rfl fun stop _ hstop => ?_
      rw [Disk.entry_put (by simp), if_neg (by rintro rfl; exact hdir hstop)]
      exact hstop
    · exact (Disk.entry_put (by simp) _ _).trans (if_pos rfl)
    · simp [Path.endsInSlash_join hname]
  · refine (h.backed hf).kept rfl fun name' content' _ hid' hfind => ?_
    refine Disk.find_put hfind hdir (fun heq => hsame ?_) _
    obtain rfl : name' = name := by simpa using heq
    exact identify_number hid' hown

end SmallFiles

end QueryHost
