import QueryHost.Proofs.DiskTrees

/-!
# What an operation does to a tree

Making directories adds directories and nothing else (`Disk.Grows`). A directory is made in one
that is there unless something else has its place (`Disk.makeDirectories_join`), and an entry moves
unless what has its new path does not make way (`Disk.move_ok_iff`). The names in a directory are
those of its entries (`Disk.list_ok_iff`, `Disk.mem_children`).
-/

namespace QueryHost

namespace Path

variable {p : Path} {name : String} {cs : List Char}

theorem mem_of_mem_pieces : ∀ {cs part : List Char}, part ∈ pieces cs → '/' ∉ part ∧ part ⊆ cs
  | [], part, h => by
    obtain rfl : part = [] := by simpa [pieces] using h
    simp
  | c :: cs, part, h => by
    simp only [pieces] at h
    cases hps : pieces cs with
    | nil => exact absurd hps (pieces_ne_nil cs)
    | cons q qs =>
      have hq : '/' ∉ q ∧ q ⊆ cs := mem_of_mem_pieces (hps ▸ List.mem_cons_self)
      have hqs : ∀ r ∈ qs, '/' ∉ r ∧ r ⊆ cs := fun r hr =>
        mem_of_mem_pieces (hps ▸ List.mem_cons_of_mem _ hr)
      rw [hps] at h
      simp only at h
      split_ifs at h with hc
      · rcases List.mem_cons.1 h with rfl | h
        · simp
        · rcases List.mem_cons.1 h with rfl | h
          · exact ⟨hq.1, List.subset_cons_of_subset c hq.2⟩
          · exact ⟨(hqs _ h).1, List.subset_cons_of_subset c (hqs _ h).2⟩
      · rcases List.mem_cons.1 h with rfl | h
        · exact ⟨by simp [hq.1, Ne.symm hc], List.cons_subset_cons c hq.2⟩
        · exact ⟨(hqs _ h).1, List.subset_cons_of_subset c (hqs _ h).2⟩

theorem names_eq_nil (h : p.names = []) (hne : p.text ≠ "") : p.isAbsolute = true := by
  unfold names at h
  unfold isAbsolute
  cases hcs : p.text.toList with
  | nil => exact absurd (String.toList_eq_nil_iff.1 hcs) hne
  | cons c cs =>
    rw [hcs] at h
    simp only [pieces, List.map_eq_nil_iff] at h
    cases hps : pieces cs with
    | nil => exact absurd hps (pieces_ne_nil cs)
    | cons q qs =>
      rw [hps] at h
      simp only at h
      split_ifs at h with hc
      · simp [hc]
      · simp at h

/-- A name on the way that leads neither back nor up can be that of an entry. -/
theorem isName_of_mem_names (h : name ∈ p.names) (hnul : '\x00' ∉ p.text.toList)
    (hsize : name.utf8ByteSize ≤ Disk.maxName) (hself : name ≠ ".") (habove : name ≠ "..") :
    IsName name := by
  unfold Path.names at h
  obtain ⟨part, hpart, rfl⟩ := List.mem_map.1 h
  obtain ⟨hmem, hne⟩ := List.mem_filter.1 hpart
  obtain ⟨hslash, hsub⟩ := mem_of_mem_pieces hmem
  refine ⟨?_, ?_, ?_, hself, habove, hsize⟩
  · simpa [← String.toList_inj] using hne
  · rwa [String.toList_ofList]
  · rw [String.toList_ofList]
    exact fun hin => hnul (hsub hin)

theorem Valid.isName (hv : p.Valid) (h : name ∈ p.names) (hself : name ≠ ".")
    (habove : name ≠ "..") : IsName name :=
  isName_of_mem_names h hv.no_nul (((hv.names name h).resolve_left hself).resolve_left habove) hself
    habove

theorem ancestors_join (h : IsName name) : ∃ above, (p / name).ancestors = p / name :: above := by
  have hcomponents : (p / name).components ≠ [] := by
    unfold components
    rw [names_join h]
    cases p.names with
    | nil => simp [h.ne_self]
    | cons n rest => simp [h.ne_self]
  unfold ancestors
  rw [if_neg (by simpa using hcomponents)]
  exact ⟨_, rfl⟩

end Path

section Directories

variable {δ : Type} {ensure : δ → Path → Except IoFault δ} {R : δ → δ → Prop}

/-- What relates a disk to itself, and to what `ensure` makes of it, relates it to what `foothold`
makes. -/
theorem foothold_rel (hrefl : ∀ d, R d d)
    (hensure : ∀ {d d' : δ} {p : Path}, ensure d p = .ok d' → R d d') :
    ∀ {above missing rest : List Path} {d d' : δ},
      foothold ensure d missing above = .ok (d', rest) → R d d'
  | [], missing, rest, d, d', h => by
    obtain ⟨rfl, -⟩ := Prod.mk.inj (Except.ok.inj h)
    exact hrefl d
  | p :: above, missing, rest, d, d', h => by
    simp only [foothold] at h
    split at h
    · rename_i hok
      obtain ⟨rfl, -⟩ := Prod.mk.inj (Except.ok.inj h)
      exact hensure hok
    · exact foothold_rel hrefl hensure h
    · exact nomatch h

/-- What making one directory does to a disk, and doing so again and again, making all does. -/
theorem makeAll_rel (hrefl : ∀ d, R d d) (htrans : ∀ {a b c : δ}, R a b → R b c → R a c)
    (hensure : ∀ {d d' : δ} {p : Path}, ensure d p = .ok d' → R d d') (d : δ) (p : Path) :
    R d (makeAll ensure d p).1 := by
  have hdescend : ∀ (below : List Path) (d : δ), R d (descend ensure d below).1 := by
    intro below
    induction below with
    | nil => exact hrefl
    | cons p below ih =>
      intro d
      simp only [descend]
      split
      · rename_i hok
        exact htrans (hensure hok) (ih _)
      · exact hrefl d
  unfold makeAll
  split
  · rename_i hok
    exact htrans (foothold_rel hrefl hensure hok) (hdescend _ _)
  · exact hrefl d

end Directories

namespace Disk

variable {d d' d'' : Disk} {p q : Path} {place goal : Place} {name : String} {e : Entry}
  {names : List String}

/-! ## The entries of a directory -/

/-- The names of the entries of a directory, in the order of the disk. -/
def children (d : Disk) (place : Place) : List String :=
  d.entries.keys.filterMap fun k =>
    match k.getLast? with
    | some name => if k.dropLast = place then some name else none
    | none => none

theorem child_eq_some {k : Place} :
    (match k.getLast? with
      | some name => if k.dropLast = place then some name else none
      | none => none) = some name ↔ k = place ++ [name] := by
  rcases List.eq_nil_or_concat k with rfl | ⟨parent, last, rfl⟩
  · simp
  · simp only [List.concat_eq_append, List.getLast?_append, List.getLast?_singleton,
      Option.some_or, List.dropLast_append_cons, List.dropLast_singleton, List.append_nil]
    split_ifs with h
    · simp [h]
    · simp [h]

theorem mem_children : name ∈ d.children place ↔ ∃ e, d.entry? (place ++ [name]) = some e := by
  simp only [children, List.mem_filterMap, child_eq_some, exists_eq_right, entry_concat,
    mem_keys_iff]

theorem IsTree.isName_children (h : d.IsTree) : ∀ name ∈ d.children place, IsName name := by
  intro name hname
  obtain ⟨e, he⟩ := mem_children.1 hname
  exact (h.of_concat he).1

theorem nodup_children (d : Disk) (place : Place) : (d.children place).Nodup := by
  refine List.Nodup.filterMap (fun k k' name hk hk' => ?_) d.entries.nodup_keys
  rw [Option.mem_def, child_eq_some] at hk hk'
  rw [hk, hk']

theorem children_eq_nil :
    d.children place = [] ↔ ∀ name, d.entry? (place ++ [name]) = none := by
  simp only [List.eq_nil_iff_forall_not_mem, mem_children, ← Option.ne_none_iff_exists',
    not_not]

/-- What is no directory has no entries. -/
theorem IsTree.children_of_ne (h : d.IsTree) (hdir : d.entry? place ≠ some .directory) :
    d.children place = [] := by
  refine children_eq_nil.2 fun name => ?_
  by_contra hsome
  obtain ⟨e, he⟩ := Option.ne_none_iff_exists'.1 hsome
  exact hdir (h.of_concat he).2

/-- `list` gives the names of a directory, and fails for what is none. -/
theorem list_ok_iff : d.list p = .ok names
    ↔ d.isDirectory p = true ∧ names = d.children (d.placeOf p) := by
  unfold list
  cases hfind : d.find p with
  | error f =>
    have hdir : d.isDirectory p = false := by simp [isDirectory, hfind]
    simp [hdir, bind, Except.bind]
  | ok found =>
    obtain ⟨place, e⟩ := found
    obtain ⟨⟨-, rfl⟩, -, -⟩ := find_ok_iff.1 hfind
    cases e with
    | file content =>
      have hdir : d.isDirectory p = false := by simp [isDirectory, hfind]
      simp [hdir, bind, Except.bind]
    | directory =>
      have hdir : d.isDirectory p = true := by simp [isDirectory, hfind]
      simp only [hdir, bind, Except.bind, pure, Except.pure, Except.ok.injEq, true_and]
      exact eq_comm

theorem list_of_isDirectory (h : d.isDirectory p = true) :
    d.list p = .ok (d.children (d.placeOf p)) := list_ok_iff.2 ⟨h, rfl⟩

/-- As a file system, the disk lists the same names. -/
theorem fileSystem_list_ok_iff {names : List EntryName} : FileSystem.list d p = .ok names
    ↔ d.isDirectory p = true ∧ names = (d.children (d.placeOf p)).map .text := by
  show (d.list p).map (·.map EntryName.text) = .ok names ↔ _
  cases hlist : d.list p with
  | error e =>
    simp only [Except.map, reduceCtorEq, false_iff, not_and]
    intro hdir
    rw [list_of_isDirectory hdir] at hlist
    exact nomatch hlist
  | ok listed =>
    obtain ⟨hdir, rfl⟩ := list_ok_iff.1 hlist
    simp [Except.map, hdir, eq_comm]

/-- Something lies below a place exactly if the place has entries. -/
theorem IsTree.isOccupied_iff (h : d.IsTree) :
    d.isOccupied place = true ↔ d.children place ≠ [] := by
  simp only [isOccupied, List.any_eq_true, Bool.and_eq_true, List.isPrefixOf_iff_prefix,
    bne_iff_ne, ne_eq, children_eq_nil, not_forall]
  constructor
  · rintro ⟨k, hk, ⟨rest, rfl⟩, hne⟩
    obtain ⟨e, he⟩ := mem_keys_iff.1 hk
    rw [← entry_of_ne_nil (h _ hk).1] at he
    cases rest with
    | nil => simp at hne
    | cons name rest =>
      refine ⟨name, ?_⟩
      rw [List.append_cons] at he
      cases rest with
      | nil => simp_all
      | cons name' rest => simp [h.above (List.cons_ne_nil _ _) he]
  · rintro ⟨name, hname⟩
    obtain ⟨e, he⟩ := Option.ne_none_iff_exists'.1 hname
    exact ⟨place ++ [name], mem_keys_iff.2 ⟨e, entry_concat.symm.trans he⟩,
      List.prefix_append _ _, by simp⟩

/-! ## Making directories -/

/-- Nothing is there but what was there before, and new directories. -/
structure Grows (d d' : Disk) : Prop where
  workplace : d'.workplace = d.workplace
  kept : ∀ {place e}, d.entry? place = some e → d'.entry? place = some e
  made : ∀ {place e}, d'.entry? place = some e → d.entry? place = some e ∨ e = .directory
  tree : d.IsTree → d'.IsTree

theorem Grows.refl (d : Disk) : Grows d d := ⟨rfl, id, .inl, id⟩

theorem Grows.trans (h : Grows d d') (h' : Grows d' d'') : Grows d d'' :=
  ⟨h'.workplace.trans h.workplace, h'.kept ∘ h.kept,
    fun he => (h'.made he).elim h.made .inr, h'.tree ∘ h.tree⟩

/-- Where a path leads to nothing, its last name is that of an entry to be. -/
theorem Reaches.vacant (ht : d.IsTree) (hr : d.Reaches p) (hnone : d.entry? (d.placeOf p) = none) :
    ∃ parent name, d.placeOf p = parent ++ [name] ∧ IsName name
      ∧ d.entry? parent = some .directory := by
  rcases List.eq_nil_or_concat p.names with hnil | ⟨before, last, hnames⟩
  · have hroot : d.placeOf p = [] := by
      rw [placeOf, startOf, Path.names_eq_nil hnil hr.valid.ne_empty, hnil]
      rfl
    simp [hroot] at hnone
  · rw [List.concat_eq_append] at hnames
    have hplace : d.placeOf p = (before.foldl Place.next (d.startOf p)).next last := by
      rw [placeOf, hnames, List.foldl_concat]
    have hdir : d.entry? (before.foldl Place.next (d.startOf p)) = some .directory := by
      refine hr.way _ ?_
      rw [Disk.way, hnames, Place.stops_append]
      simp [Place.stops]
    generalize before.foldl Place.next (d.startOf p) = parent at hplace hdir
    rw [hplace] at hnone ⊢
    have hself : last ≠ "." := by
      rintro rfl
      simp [Place.next, hdir] at hnone
    have habove : last ≠ ".." := by
      rintro rfl
      rw [Place.next, if_neg (by decide), if_pos rfl] at hnone
      rcases List.eq_nil_or_concat parent with rfl | ⟨above, name, rfl⟩
      · simp at hnone
      · rw [List.concat_eq_append] at hdir hnone
        simp [(ht.of_concat hdir).2] at hnone
    have hname : IsName last := hr.valid.isName (by simp [hnames]) hself habove
    exact ⟨parent, last, Place.next_name hname parent, hname, hdir⟩

/-- `makeDirectory` puts a directory where nothing was. -/
theorem makeDirectory_ok_iff : d.makeDirectory p = .ok d' ↔ d.Reaches p
    ∧ d.entry? (d.placeOf p) = none ∧ d' = d.put (d.placeOf p) .directory := by
  unfold makeDirectory
  cases hloc : d.locate p with
  | error f =>
    have hr : ¬d.Reaches p := fun hr => by
      rw [hr.locate] at hloc
      exact nomatch hloc
    simp [hr, bind, Except.bind]
  | ok place =>
    obtain ⟨hr, rfl⟩ := locate_ok_iff.1 hloc
    simp only [bind, Except.bind]
    split_ifs with hsome
    · have hne : d.entry? (d.placeOf p) ≠ none := Option.isSome_iff_ne_none.1 hsome
      simp [hne]
    · have hnone : d.entry? (d.placeOf p) = none := by simpa using hsome
      simp [hr, hnone, eq_comm]

/-- A new directory makes the disk grow (`Grows`). -/
theorem grows_makeDirectory (h : d.makeDirectory p = .ok d') : Grows d d' := by
  obtain ⟨hr, hnone, rfl⟩ := makeDirectory_ok_iff.1 h
  have hne : d.placeOf p ≠ [] := fun hnil => by
    rw [hnil] at hnone
    exact nomatch hnone
  refine ⟨rfl, fun {place e} he => ?_, fun {place e} he => ?_, fun ht => ?_⟩
  · rw [entry_put hne]
    split_ifs with hplace
    · rw [hplace, hnone] at he
      exact nomatch he
    · exact he
  · rw [entry_put hne] at he
    split_ifs at he
    · exact .inr (Option.some.inj he).symm
    · exact .inl he
  · obtain ⟨parent, name, hplace, hname, hdir⟩ := hr.vacant ht hnone
    rw [hplace]
    exact ht.put hname hdir (.inl rfl)

theorem grows_ensureDirectory (h : d.ensureDirectory p = .ok d') : Grows d d' := by
  unfold ensureDirectory at h
  split at h
  · split_ifs at h
    exact Except.ok.inj h ▸ .refl d
  · exact grows_makeDirectory h

theorem grows_makeDirectories (d : Disk) (p : Path) : Grows d (d.makeDirectories p).1 :=
  makeAll_rel (R := Grows) Grows.refl Grows.trans grows_ensureDirectory d p

/-- The only thing that can hinder a directory in another one is a file in its place. -/
theorem ensureDirectory_join (hp : d.isDirectory p = true) (h : IsName name)
    (hsize : (p / name).text.utf8ByteSize < pathEnd)
    (hfile : ∀ content, d.entry? (d.placeOf p ++ [name]) ≠ some (.file content)) :
    ∃ d', d.ensureDirectory (p / name) = .ok d'
      ∧ d'.entry? (d.placeOf p ++ [name]) = some .directory
      ∧ ∀ k, k ≠ d.placeOf p ++ [name] → d'.entry? k = d.entry? k := by
  have hr : d.Reaches (p / name) := .join hp h hsize
  have hplace := placeOf_join (d := d) (p := p) h
  cases hentry : d.entry? (d.placeOf p ++ [name]) with
  | none =>
    have hmake : d.makeDirectory (p / name) = .ok (d.put (d.placeOf p ++ [name]) .directory) :=
      makeDirectory_ok_iff.2 ⟨hr, hplace ▸ hentry, by rw [hplace]⟩
    refine ⟨d.put (d.placeOf p ++ [name]) .directory, by rw [ensureDirectory, hmake], ?_,
      fun k hk => ?_⟩
    · rw [entry_put (by simp), if_pos rfl]
    · rw [entry_put (by simp), if_neg hk]
  | some e =>
    obtain rfl : e = .directory := by
      cases e with
      | file content => exact absurd hentry (hfile content)
      | directory => rfl
    have hdir : d.isDirectory (p / name) = true := isDirectory_iff.2 ⟨hr, hplace ▸ hentry⟩
    have hmake : d.makeDirectory (p / name) = .error (.system .alreadyExists) := by
      simp [makeDirectory, hr.locate, bind, Except.bind, hplace, hentry]
    refine ⟨d, ?_, hentry, fun _ _ => rfl⟩
    rw [ensureDirectory, hmake]
    exact if_pos hdir

/-- The directory is the first that is looked for, and nothing above it has to be made. -/
theorem makeDirectories_join (hp : d.isDirectory p = true) (h : IsName name)
    (hsize : (p / name).text.utf8ByteSize < pathEnd)
    (hfile : ∀ content, d.entry? (d.placeOf p ++ [name]) ≠ some (.file content)) :
    ∃ d', d.makeDirectories (p / name) = (d', .ok ()) ∧ Grows d d'
      ∧ d'.entry? (d.placeOf p ++ [name]) = some .directory
      ∧ ∀ k, k ≠ d.placeOf p ++ [name] → d'.entry? k = d.entry? k := by
  obtain ⟨above, hancestors⟩ := Path.ancestors_join (p := p) h
  obtain ⟨d', hok, hentry, hframe⟩ := ensureDirectory_join hp h hsize hfile
  refine ⟨d', ?_, grows_ensureDirectory hok, hentry, hframe⟩
  simp [makeDirectories, makeAll, hancestors, foothold, hok, descend]

/-! ## Files -/

theorem isPresent_iff : d.isPresent p = true ↔ ∃ e, d.find p = .ok (d.placeOf p, e) := by
  unfold isPresent
  cases hfind : d.find p with
  | error fault => simp [Except.toBool]
  | ok found =>
    obtain ⟨place, e⟩ := found
    obtain ⟨⟨-, rfl⟩, -, -⟩ := find_ok_iff.1 hfind
    simp [Except.toBool]

theorem isFile_iff :
    d.isFile p = true ↔ ∃ content, d.find p = .ok (d.placeOf p, .file content) := by
  unfold isFile
  split
  · rename_i place content h
    obtain ⟨⟨-, rfl⟩, -, -⟩ := find_ok_iff.1 h
    simp [h]
  · rename_i h
    simpa using fun content => h _ content

theorem read_of_find {content : Bytes} (h : d.find p = .ok (place, .file content)) :
    d.read p = .ok content := by
  simp [read, openFile, h, Except.map, bind, Except.bind]

/-- `write` puts a file where no directory was. -/
theorem write_ok_iff {content : Bytes} : d.write p content = .ok d' ↔ d.Reaches p
    ∧ namesFile p = true ∧ d.entry? (d.placeOf p) ≠ some .directory
    ∧ d' = d.put (d.placeOf p) (.file content) := by
  unfold write filePlace
  cases hloc : d.locate p with
  | error f =>
    have hr : ¬d.Reaches p := fun hr => by
      rw [hr.locate] at hloc
      exact nomatch hloc
    simp [hr, bind, Except.bind]
  | ok place =>
    obtain ⟨hr, rfl⟩ := locate_ok_iff.1 hloc
    simp only [bind, Except.bind]
    split_ifs with hno
    · have hno : namesFile p = true → d.entry? (d.placeOf p) = some .directory := by
        simpa [Bool.or_eq_true, ← Bool.not_eq_true, imp_iff_not_or] using hno
      simp only [false_iff]
      exact fun ⟨_, hname, hdir, _⟩ => hdir (hno hname)
    · have hno : namesFile p = true ∧ d.entry? (d.placeOf p) ≠ some .directory := by
        simpa [Bool.or_eq_true, ← Bool.not_eq_true] using hno
      simp [hr, hno, pure, Except.pure, eq_comm]

theorem removeFile_ok_iff : d.removeFile p = .ok d'
    ↔ ∃ content, d.find p = .ok (d.placeOf p, .file content) ∧ d' = d.erase (d.placeOf p) := by
  unfold removeFile
  cases hfind : d.find p with
  | error f => simp [bind, Except.bind]
  | ok found =>
    obtain ⟨place, e⟩ := found
    obtain ⟨⟨-, rfl⟩, -, -⟩ := find_ok_iff.1 hfind
    cases e <;> simp [bind, Except.bind, eq_comm]

theorem removeTree_ok_iff : d.removeTree p = .ok d'
    ↔ d.isDirectory p = true ∧ d' = d.erase (d.placeOf p) := by
  unfold removeTree isDirectory
  cases hfind : d.find p with
  | error f => simp [bind, Except.bind]
  | ok found =>
    obtain ⟨place, e⟩ := found
    obtain ⟨⟨-, rfl⟩, -, -⟩ := find_ok_iff.1 hfind
    cases e <;> simp [bind, Except.bind, eq_comm]

/-! ## Moving -/

/-- What is at a place makes way for an entry: nothing is there, or something of the same kind with
nothing in it. -/
def MakesWay (d : Disk) (goal : Place) : Entry → Prop
  | .file _ => d.entry? goal ≠ some .directory
  | .directory => d.entry? goal = none ∨ d.entry? goal = some .directory ∧ d.children goal = []

instance (goal : Place) : (e : Entry) → Decidable (d.MakesWay goal e)
  | .file _ => inferInstanceAs (Decidable (_ ≠ _))
  | .directory => inferInstanceAs (Decidable (_ ∨ _))

theorem MakesWay.congr (h : d.MakesWay goal e)
    (hsame : ∀ k, goal <+: k → d'.entry? k = d.entry? k) : d'.MakesWay goal e := by
  have hgoal := hsame goal (List.prefix_refl _)
  cases e with
  | file content => exact fun hdir => h (hgoal ▸ hdir)
  | directory =>
    refine h.imp (fun hnone => hgoal.trans hnone) fun ⟨hdir, hnil⟩ => ⟨hgoal.trans hdir, ?_⟩
    rw [children_eq_nil] at hnil ⊢
    exact fun name => (hsame _ (List.prefix_append _ _)).trans (hnil name)

theorem makesWay_congr (h : ∀ k, goal <+: k → d'.entry? k = d.entry? k) :
    d'.MakesWay goal e ↔ d.MakesWay goal e :=
  ⟨fun hway => hway.congr fun k hk => (h k hk).symm, fun hway => hway.congr h⟩

/-- An entry is moved, with all below it, to where it finds nothing that stays (`MakesWay`). -/
theorem move_ok_iff (ht : d.IsTree) (hfind : d.find p = .ok (place, e))
    (hloc : d.locate q = .ok goal) (hapart : ¬place <+: goal) :
    d.move p q = .ok d' ↔ d.MakesWay goal e ∧ d' = d.relocate place goal := by
  have hne : goal ≠ place := fun h => hapart (h ▸ List.prefix_refl _)
  have hpre : place.isPrefixOf goal = false := by
    rw [← Bool.not_eq_true, List.isPrefixOf_iff_prefix]
    exact hapart
  have hok : (Except.ok (d.relocate place goal) : Except IoFault Disk) = .ok d'
      ↔ d' = d.relocate place goal := by rw [Except.ok.injEq, eq_comm]
  unfold move
  simp only [hfind, hloc, bind, Except.bind, hne, hpre, if_false, Bool.false_eq_true]
  cases hgoal : d.entry? goal with
  | none => cases e <;> simp [MakesWay, hgoal, pure, Except.pure, hok]
  | some there =>
    cases e with
    | file content => cases there <;> simp [MakesWay, hgoal, pure, Except.pure, hok]
    | directory =>
      cases there with
      | file content => simp [MakesWay, hgoal]
      | directory =>
        by_cases hocc : d.isOccupied goal = true
        · simp [MakesWay, hgoal, hocc, ht.isOccupied_iff.1 hocc]
        · have hnil : d.children goal = [] := by simpa [ht.isOccupied_iff] using hocc
          simp [MakesWay, hgoal, hocc, hnil, pure, Except.pure, hok]

/-- A move that succeeds leaves the disk as it is, or moves an entry to a place not below itself. -/
theorem move_cases (h : d.move p q = .ok d') : d' = d ∨ ∃ e, d.find p = .ok (d.placeOf p, e)
    ∧ d.Reaches q ∧ ¬d.placeOf p <+: d.placeOf q ∧ d' = d.relocate (d.placeOf p) (d.placeOf q) := by
  unfold move at h
  cases hfind : d.find p with
  | error f => simp [hfind, bind, Except.bind] at h
  | ok found =>
    obtain ⟨place, e⟩ := found
    obtain ⟨⟨-, rfl⟩, -, -⟩ := find_ok_iff.1 hfind
    cases hloc : d.locate q with
    | error f => simp [hfind, hloc, bind, Except.bind] at h
    | ok goal =>
      obtain ⟨hr, rfl⟩ := locate_ok_iff.1 hloc
      simp only [hfind, hloc, bind, Except.bind, pure, Except.pure] at h
      by_cases hsame : d.placeOf q = d.placeOf p
      · rw [if_pos hsame] at h
        exact .inl (Except.ok.inj h).symm
      · rw [if_neg hsame] at h
        by_cases hpre : (d.placeOf p).isPrefixOf (d.placeOf q) = true
        · rw [if_pos hpre] at h
          exact nomatch h
        · rw [if_neg hpre] at h
          refine .inr ⟨e, rfl, hr, mt List.isPrefixOf_iff_prefix.2 hpre, ?_⟩
          split at h
          · exact (Except.ok.inj h).symm
          · exact (Except.ok.inj h).symm
          · exact nomatch h
          · exact nomatch h
          · split_ifs at h
            exact (Except.ok.inj h).symm

end Disk

end QueryHost
