import QueryHost.Disk.Links
import QueryHost.Proofs.AssocRows
import QueryHost.Proofs.DiskActs
import QueryHost.Proofs.DiskSteps

/-!
# Trees with links

Where names lead on a disk with links is a matter of its directories and its symbolic links alone
(`LinkedDisk.Steady`), and the last of them leads on from where the others do
(`LinkedDisk.resolve_concat`). So the path of an entry leads into its directory, if no symbolic link
bears its name (`LinkedDisk.hasFile_of_isFile`), and stays there whatever becomes of other files.
-/

namespace QueryHost

/-- The name can be that of an entry. -/
def EntryName.IsProper : EntryName → Prop
  | text name => IsName name
  | raw bytes _ => bytes.length ≤ Disk.maxName

instance : DecidablePred EntryName.IsProper
  | .text name => inferInstanceAs (Decidable (IsName name))
  | .raw bytes _ => inferInstanceAs (Decidable (bytes.length ≤ Disk.maxName))

namespace EntryName.IsProper

variable {name : EntryName}

theorem ne_self (h : name.IsProper) : name ≠ .text "." := by
  rintro rfl
  exact IsName.ne_self h rfl

theorem ne_above (h : name.IsProper) : name ≠ .text ".." := by
  rintro rfl
  exact IsName.ne_above h rfl

theorem size_le (h : name.IsProper) : name.size ≤ Disk.maxName := by
  cases name with
  | text name => exact IsName.size_le h
  | raw bytes _ => exact h

end EntryName.IsProper

namespace LinkedEntry

/-- The number of a file. -/
def node? : LinkedEntry → Option Nat
  | file node => some node
  | _ => none

/-- Where a symbolic link leads. -/
def target? : LinkedEntry → Option LinkTarget
  | link target => some target
  | _ => none

end LinkedEntry

namespace EntryPlace

/-- Where a name leads from a directory, if it is not that of a symbolic link. -/
def next (place : EntryPlace) (name : EntryName) : EntryPlace :=
  if name = .text "." then place
  else if name = .text ".." then place.dropLast
  else place ++ [name]

theorem next_proper {name : EntryName} (h : name.IsProper) (place : EntryPlace) :
    next place name = place ++ [name] := by
  rw [next, if_neg h.ne_self, if_neg h.ne_above]

end EntryPlace

namespace LinkedDisk

variable {d d' d'' : LinkedDisk} {follow : Bool} {links : Nat} {place goal here : EntryPlace}
  {name : EntryName} {names : List EntryName} {e : LinkedEntry} {p : Path} {node : Nat}

@[simp] theorem entry_nil (d : LinkedDisk) : d.entry? [] = some .directory := rfl

/-! ## Where names lead -/

/-- A stretch of names and one more: the last one is looked up where the others lead, or after the
link that they meet. -/
theorem stretch_concat (name : EntryName) : ∀ (names : List EntryName) (place : EntryPlace),
    d.stretch follow place (names ++ [name]) = match d.stretch true place names with
      | .ok (.arrived here) => d.stretch follow here [name]
      | .ok (.link directory target rest) => .ok (.link directory target (rest ++ [name]))
      | .error e => .error e
  | [], place => rfl
  | first :: names, place => by
    have hon : (follow || !(names ++ [name]).isEmpty) = true := by simp
    rw [List.cons_append, stretch, stretch]
    simp only [hon, Bool.true_or, if_true]
    cases d.entry? place with
    | none => rfl
    | some e =>
      cases e with
      | file | link => rfl
      | directory =>
        simp only []
        split_ifs
        · exact stretch_concat name names place
        · exact stretch_concat name names place.dropLast
        · rfl
        · cases d.entry? (place ++ [first]) with
          | none => exact stretch_concat name names _
          | some e =>
            cases e with
            | file | directory => exact stretch_concat name names _
            | link => rfl

/-- A single name leads on from a directory. Only a symbolic link leads elsewhere, and only if it is
followed. -/
theorem stretch_single {x : Stretch} (h : d.stretch follow place [name] = .ok x) :
    d.entry? place = some .directory
      ∧ (name = .text "." ∨ name = .text ".." ∨ name.size ≤ Disk.maxName)
      ∧ (x = .arrived (place.next name)
        ∨ follow = true ∧ ∃ target, d.entry? (place ++ [name]) = some (.link target)) := by
  rw [stretch] at h
  split at h
  · cases h
  · cases h
  · cases h
  · rename_i hdir
    refine ⟨hdir, ?_⟩
    unfold EntryPlace.next
    simp only [List.isEmpty_nil, Bool.not_true, Bool.or_false] at h
    split_ifs at h ⊢ with hself habove hsize hfollow
    · exact ⟨.inl hself, .inl (Except.ok.inj h).symm⟩
    · exact ⟨.inr (.inl habove), .inl (Except.ok.inj h).symm⟩
    · refine ⟨.inr (.inr (Nat.not_lt.1 hsize)), ?_⟩
      split at h
      · rename_i target hlink
        exact .inr ⟨hfollow, target, hlink⟩
      · exact .inl (Except.ok.inj h).symm
    · refine ⟨.inr (.inr (Nat.not_lt.1 hsize)), .inl ?_⟩
      split at h <;> exact (Except.ok.inj h).symm

/-- Where names lead, the last of them leads from where the others do. Only a symbolic link leads
elsewhere, and only if it is followed. -/
theorem resolve_concat : ∀ {links : Nat} {place : EntryPlace} {names : List EntryName},
    d.resolve follow links place (names ++ [name]) = .ok goal →
      ∃ here, d.resolve true links place names = .ok here ∧ d.entry? here = some .directory
        ∧ (name = .text "." ∨ name = .text ".." ∨ name.size ≤ Disk.maxName)
        ∧ (goal = EntryPlace.next here name
          ∨ follow = true ∧ ∃ target, d.entry? (here ++ [name]) = some (.link target))
  | links, place, names, h => by
    rw [resolve, stretch_concat] at h
    rw [resolve]
    cases hnames : d.stretch true place names with
    | error e =>
      rw [hnames] at h
      cases h
    | ok x =>
      rw [hnames] at h
      cases x with
      | arrived here =>
        simp only [] at h
        cases hname : d.stretch follow here [name] with
        | error e =>
          rw [hname] at h
          cases h
        | ok x =>
          obtain ⟨hdir, hsize, hx⟩ := stretch_single hname
          refine ⟨here, rfl, hdir, hsize, hx.imp_left ?_⟩
          rintro rfl
          rw [hname] at h
          exact (Except.ok.inj h).symm
      | link directory target rest =>
        cases links with
        | zero => cases h
        | succ links =>
          simp only [] at h ⊢
          rw [← List.append_assoc] at h
          exact resolve_concat h

/-- The last of the names leads on, if it is that of no symbolic link. -/
theorem resolve_append (hdir : d.entry? here = some .directory) (hname : name.IsProper)
    (hlink : ∀ target, d.entry? (here ++ [name]) ≠ some (.link target)) :
    ∀ {links : Nat} {place : EntryPlace} {names : List EntryName},
      d.resolve true links place names = .ok here →
        d.resolve follow links place (names ++ [name]) = .ok (here ++ [name])
  | links, place, names, h => by
    rw [resolve] at h
    rw [resolve, stretch_concat]
    cases hnames : d.stretch true place names with
    | error e =>
      rw [hnames] at h
      cases h
    | ok x =>
      rw [hnames] at h
      cases x with
      | arrived here' =>
        obtain rfl := Except.ok.inj h
        have hsingle : d.stretch follow here' [name] = .ok (.arrived (here' ++ [name])) := by
          rw [stretch, hdir]
          simp only [if_neg hname.ne_self, if_neg hname.ne_above,
            if_neg (Nat.not_lt.2 hname.size_le)]
          rfl
        simp only [hsingle]
      | link directory target rest =>
        cases links with
        | zero => cases h
        | succ links =>
          simp only [] at h ⊢
          rw [← List.append_assoc]
          exact resolve_append hdir hname hlink h

/-- The directories stay, and the symbolic links are the same. -/
structure Steady (d d' : LinkedDisk) : Prop where
  workplace : d'.workplace = d.workplace
  directory : ∀ {place}, d.entry? place = some .directory → d'.entry? place = some .directory
  link : ∀ {place target}, d'.entry? place = some (.link target)
    ↔ d.entry? place = some (.link target)

/-- On a disk that is `Steady`, a stretch leads where it led. -/
theorem Steady.stretch (h : Steady d d') {x : Stretch} : ∀ {names : List EntryName}
    {place : EntryPlace}, d.stretch follow place names = .ok x →
      d'.stretch follow place names = .ok x
  | [], place, hx => hx
  | name :: names, place, hx => by
    rw [LinkedDisk.stretch] at hx ⊢
    split at hx
    · cases hx
    · cases hx
    · cases hx
    · rename_i hdir
      rw [h.directory hdir]
      simp only []
      split_ifs at hx ⊢
      · exact h.stretch hx
      · exact h.stretch hx
      all_goals
        split at hx
        · rename_i target hlink
          rw [h.link.2 hlink]
          exact hx
        · rename_i hno
          split
          · exact absurd (h.link.1 ‹_›) (hno _)
          · exact h.stretch hx

theorem Steady.resolve (h : Steady d d') : ∀ {links : Nat} {place : EntryPlace}
    {names : List EntryName}, d.resolve follow links place names = .ok goal →
      d'.resolve follow links place names = .ok goal
  | links, place, names, hgoal => by
    rw [LinkedDisk.resolve] at hgoal ⊢
    cases hx : d.stretch follow place names with
    | error e =>
      rw [hx] at hgoal
      cases hgoal
    | ok x =>
      rw [h.stretch hx]
      rw [hx] at hgoal
      cases x with
      | arrived here => exact hgoal
      | link directory target rest =>
        cases links with
        | zero => cases hgoal
        | succ links => exact h.resolve hgoal

/-- The place that a path leads to, all symbolic links being followed. -/
def placeOf? (d : LinkedDisk) (p : OsPath) : Option EntryPlace :=
  (d.resolve true maxLinks (d.startOf p.isAbsolute) p.names).toOption

theorem placeOf_eq_some_iff {p : OsPath} : d.placeOf? p = some place
    ↔ d.resolve true maxLinks (d.startOf p.isAbsolute) p.names = .ok place := by
  unfold placeOf?
  cases d.resolve true maxLinks (d.startOf p.isAbsolute) p.names <;> simp [Except.toOption]

/-- The text of the path is one that can be looked up. -/
structure Fits (p : OsPath) : Prop where
  no_nul : p.hasNul = false
  ne_empty : p.size ≠ 0
  size_lt : p.size < Disk.pathEnd

theorem locate_ok_iff {p : OsPath} : d.locate follow p = .ok place
    ↔ Fits p ∧ d.resolve follow maxLinks (d.startOf p.isAbsolute) p.names = .ok place := by
  unfold locate
  split_ifs with hnul hempty hsize
  · exact iff_of_false nofun fun ⟨h, _⟩ => absurd hnul (by simp [h.no_nul])
  · exact iff_of_false nofun fun ⟨h, _⟩ => absurd hempty h.ne_empty
  · exact iff_of_false nofun fun ⟨h, _⟩ => absurd hsize (Nat.not_le.2 h.size_lt)
  · have hfits : Fits p := ⟨by simpa using hnul, hempty, Nat.not_le.1 hsize⟩
    cases d.resolve follow maxLinks (d.startOf p.isAbsolute) p.names <;> simp [hfits]

theorem Steady.placeOf (h : Steady d d') {p : OsPath} (hp : d.placeOf? p = some place) :
    d'.placeOf? p = some place := by
  rw [placeOf_eq_some_iff] at hp ⊢
  rw [startOf, h.workplace]
  exact h.resolve hp

theorem Steady.locate (h : Steady d d') {p : OsPath} (hp : d.locate follow p = .ok place) :
    d'.locate follow p = .ok place := by
  rw [locate_ok_iff] at hp ⊢
  rw [startOf, h.workplace]
  exact ⟨hp.1, h.resolve hp.2⟩

/-! ## Trees -/

/-- Every entry has a proper name and lies in a directory, and every file has a content. -/
structure IsTree (d : LinkedDisk) : Prop where
  parent : ∀ {place e}, d.entries.get? place = some e → ∃ directory name,
    place = directory ++ [name] ∧ name.IsProper ∧ d.entry? directory = some .directory
  content : ∀ {place node}, d.entry? place = some (.file node) → node < d.contents.length

theorem entry_of_ne_nil (h : place ≠ []) : d.entry? place = d.entries.get? place := if_neg h

theorem IsTree.proper (h : d.IsTree) (hentry : d.entry? (place ++ [name]) = some e) :
    name.IsProper ∧ d.entry? place = some .directory := by
  rw [entry_of_ne_nil (by simp)] at hentry
  obtain ⟨directory, name', hplace, hproper, hdir⟩ := h.parent hentry
  obtain ⟨rfl, rfl⟩ := List.append_singleton_inj.1 hplace
  exact ⟨hproper, hdir⟩

/-- The directory above a directory. -/
theorem IsTree.above (h : d.IsTree) (hdir : d.entry? place = some .directory) :
    d.entry? place.dropLast = some .directory := by
  rcases List.eq_nil_or_concat place with rfl | ⟨parent, name, rfl⟩
  · rfl
  · rw [List.concat_eq_append] at hdir ⊢
    rw [List.dropLast_concat]
    exact (h.proper hdir).2

theorem entry_put (hne : place ≠ []) (e : LinkedEntry) (contents : List Bytes) (k : EntryPlace) :
    entry? { d with entries := d.entries.put place e, contents } k
      = if k = place then some e else d.entry? k := by
  unfold entry?
  rw [Assoc.get?_put]
  by_cases hk : k = []
  · simp [hk, Ne.symm hne]
  · simp [hk]

theorem entry_erase (hne : place ≠ []) (k : EntryPlace) :
    entry? { d with entries := d.entries.erase place } k
      = if k = place then none else d.entry? k := by
  unfold entry?
  rw [Assoc.get?_erase]
  by_cases hk : k = []
  · simp [hk, Ne.symm hne]
  · simp [hk]

/-- Whether a disk is a tree is seen by its entries. -/
instance : Decidable d.IsTree :=
  decidable_of_iff (∀ e ∈ d.entries.toList, e.1 ≠ [] ∧ (∀ name ∈ e.1.getLast?, name.IsProper)
      ∧ d.entry? e.1.dropLast = some .directory
      ∧ ∀ node ∈ e.2.node?, node < d.contents.length) <| by
    constructor
    · intro h
      refine ⟨fun {place e} he => ?_, fun {place node} he => ?_⟩
      · obtain ⟨hne, hproper, hdir, -⟩ := h _ ((Assoc.mem_toList_iff _ _ _).2 he)
        rcases List.eq_nil_or_concat place with rfl | ⟨parent, name, rfl⟩
        · exact absurd rfl hne
        · simp only [List.concat_eq_append, List.dropLast_concat] at hdir hproper ⊢
          exact ⟨parent, name, rfl, hproper name (by simp), hdir⟩
      · have hne : place ≠ [] := by
          rintro rfl
          cases he
        rw [entry_of_ne_nil hne] at he
        exact (h _ ((Assoc.mem_toList_iff _ _ _).2 he)).2.2.2 node rfl
    · rintro h ⟨place, e⟩ he
      have hget := (Assoc.mem_toList_iff _ _ _).1 he
      obtain ⟨parent, name, rfl, hproper, hdir⟩ := h.parent hget
      refine ⟨by simp, by simpa using hproper, by simpa using hdir, ?_⟩
      intro node hnode
      cases e with
      | file node' =>
        obtain rfl := Option.some.inj hnode
        exact h.content ((entry_of_ne_nil (by simp)).trans hget)
      | directory | link => cases hnode

/-- Where a path leads to nothing, its last name is that of an entry to be. -/
theorem IsTree.vacant (h : d.IsTree) {p : Path} (hplace : d.locate false (.text p) = .ok place)
    (hnone : d.entry? place = none) : ∃ directory name, place = directory ++ [name]
      ∧ name.IsProper ∧ d.entry? directory = some .directory := by
  obtain ⟨hfits, hresolve⟩ := locate_ok_iff.1 hplace
  have hnames : (OsPath.text p).names = p.names.map .text := rfl
  rcases List.eq_nil_or_concat p.names with hnil | ⟨before, last, hlast⟩
  · have hroot : p.isAbsolute = true := Path.names_eq_nil hnil fun hempty =>
      hfits.ne_empty (by simp [OsPath.size, hempty])
    rw [hnames, hnil] at hresolve
    obtain rfl := Except.ok.inj hresolve
    simp [startOf, OsPath.isAbsolute, hroot] at hnone
  · rw [List.concat_eq_append] at hlast
    rw [hnames, hlast, List.map_append] at hresolve
    obtain ⟨here, -, hdir, hsize, rfl | hfollow⟩ := resolve_concat hresolve
    · have hself : last ≠ "." := by
        rintro rfl
        simp [EntryPlace.next, hdir] at hnone
      have habove : last ≠ ".." := by
        rintro rfl
        simp [EntryPlace.next, h.above hdir] at hnone
      have hname : (EntryName.text last).IsProper := by
        have hmem : last ∈ p.names := by simp [hlast]
        refine Path.isName_of_mem_names hmem ?_ ?_ hself habove
        · simpa [OsPath.hasNul] using hfits.no_nul
        · simpa [hself, habove, EntryName.size] using hsize
      exact ⟨here, .text last, EntryPlace.next_proper hname here, hname, hdir⟩
    · exact absurd hfollow.1 (by decide)

/-- A new entry may be put in a directory. -/
theorem IsTree.put (h : d.IsTree) {contents : List Bytes} (hproper : name.IsProper)
    (hdir : d.entry? place = some .directory) (hnone : d.entry? (place ++ [name]) = none)
    (hcontents : d.contents.length ≤ contents.length)
    (hnode : ∀ node, e = .file node → node < contents.length) :
    IsTree { d with entries := d.entries.put (place ++ [name]) e, contents } := by
  have hkept : ∀ {k e'}, d.entry? k = some e' →
      entry? { d with entries := d.entries.put (place ++ [name]) e, contents } k = some e' := by
    intro k e' hk
    rw [entry_put (by simp), if_neg, hk]
    rintro rfl
    rw [hnone] at hk
    cases hk
  refine ⟨fun {k e'} hk => ?_, fun {k node} hk => ?_⟩
  · rw [Assoc.get?_put] at hk
    split_ifs at hk with hsame
    · exact ⟨place, name, hsame, hproper, hkept hdir⟩
    · obtain ⟨directory, name', rfl, hproper', hdir'⟩ := h.parent hk
      exact ⟨directory, name', rfl, hproper', hkept hdir'⟩
  · rw [entry_put (by simp)] at hk
    split_ifs at hk
    · exact hnode node (Option.some.inj hk)
    · exact (h.content hk).trans_le hcontents

/-- What is no directory may be taken away. -/
theorem IsTree.erase (h : d.IsTree) (hdir : d.entry? place ≠ some .directory) :
    IsTree { d with entries := d.entries.erase place } := by
  have hne : place ≠ [] := by
    rintro rfl
    exact hdir rfl
  refine ⟨fun {k e} hk => ?_, fun {k node} hk => ?_⟩
  · rw [Assoc.get?_erase] at hk
    split_ifs at hk
    obtain ⟨directory, name, rfl, hproper, hdir'⟩ := h.parent hk
    refine ⟨directory, name, rfl, hproper, ?_⟩
    rw [entry_erase hne, if_neg, hdir']
    rintro rfl
    exact hdir hdir'
  · rw [entry_erase hne] at hk
    split_ifs at hk
    exact h.content hk

/-- A file may get another content. -/
theorem IsTree.set (h : d.IsTree) (node : Nat) (content : Bytes) :
    IsTree { d with contents := d.contents.set node content } :=
  ⟨h.parent, fun hk => by simpa using h.content hk⟩

/-- Nothing is there but what was there before, and new directories. -/
structure Grows (d d' : LinkedDisk) : Prop where
  workplace : d'.workplace = d.workplace
  contents : d'.contents = d.contents
  kept : ∀ {place e}, d.entry? place = some e → d'.entry? place = some e
  made : ∀ {place e}, d'.entry? place = some e → d.entry? place = some e ∨ e = .directory
  tree : d.IsTree → d'.IsTree

theorem Grows.refl (d : LinkedDisk) : Grows d d := ⟨rfl, rfl, id, .inl, id⟩

theorem Grows.trans (h : Grows d d') (h' : Grows d' d'') : Grows d d'' :=
  ⟨h'.workplace.trans h.workplace, h'.contents.trans h.contents, h'.kept ∘ h.kept,
    fun he => (h'.made he).elim h.made .inr, h'.tree ∘ h.tree⟩

theorem Grows.steady (h : Grows d d') : Steady d d' :=
  ⟨h.workplace, h.kept, ⟨fun he => (h.made he).resolve_right nofun, h.kept⟩⟩

theorem grows_makeDirectory {p : Path} (h : d.makeDirectory p = .ok d') : Grows d d' := by
  unfold makeDirectory at h
  cases hplace : d.locate false (.text p) with
  | error e => simp [hplace, bind, Except.bind] at h
  | ok place =>
    simp only [hplace, bind, Except.bind] at h
    split_ifs at h with hsome
    obtain rfl := Except.ok.inj h
    have hnone : d.entry? place = none := by simpa using hsome
    have hne : place ≠ [] := by
      rintro rfl
      simp at hnone
    refine ⟨rfl, rfl, fun {k e} hk => ?_, fun {k e} hk => ?_, fun ht => ?_⟩
    · rw [entry_put hne, if_neg, hk]
      rintro rfl
      rw [hnone] at hk
      cases hk
    · rw [entry_put hne] at hk
      split_ifs at hk
      · exact .inr (Option.some.inj hk).symm
      · exact .inl hk
    · obtain ⟨directory, name, rfl, hname, hdir⟩ := ht.vacant hplace hnone
      exact ht.put hname hdir hnone le_rfl nofun

theorem grows_ensureDirectory {p : Path} (h : d.ensureDirectory p = .ok d') : Grows d d' := by
  unfold ensureDirectory at h
  split at h
  · split_ifs at h
    exact Except.ok.inj h ▸ .refl d
  · exact grows_makeDirectory h

theorem grows_makeDirectories (d : LinkedDisk) (p : Path) :
    Grows d (FileSystem.makeDirectories d p).1 :=
  makeAll_rel (R := Grows) Grows.refl Grows.trans grows_ensureDirectory d p

/-! ## Plain directories -/

/-- Nothing that lies in the directory is elsewhere too: none of its entries is a symbolic link, and
no two of its names are of one file. -/
structure PlainAt (d : LinkedDisk) (place : EntryPlace) : Prop where
  no_link : ∀ name target, d.entry? (place ++ [name]) ≠ some (.link target)
  single : ∀ {a b node}, d.entry? (place ++ [a]) = some (.file node) →
    d.entry? (place ++ [b]) = some (.file node) → a = b

/-- The directory that a path leads to is plain, and if there is none, any that it will lead to once
directories have been made is. -/
def IsPlain (d : LinkedDisk) (p : Path) : Prop :=
  ∀ d', d.Grows d' → ∀ place, d'.placeOf? (.text p) = some place → d'.PlainAt place

/-- Whether a directory is plain is seen by its entries. -/
theorem plainAt_of_toList
    (hlink : ∀ e ∈ d.entries.toList, e.1.dropLast = place → e.2.target? = none)
    (hsingle : ∀ a ∈ d.entries.toList, ∀ b ∈ d.entries.toList, a.1.dropLast = place →
      b.1.dropLast = place → ∀ node ∈ a.2.node?, b.2.node? = some node → a.1 = b.1) :
    d.PlainAt place := by
  have hmem : ∀ {name e}, d.entry? (place ++ [name]) = some e →
      (place ++ [name], e) ∈ d.entries.toList := by
    intro name e he
    rw [entry_of_ne_nil (by simp)] at he
    exact (Assoc.mem_toList_iff _ _ _).2 he
  refine ⟨fun name target he => ?_, fun {a b node} ha hb => ?_⟩
  · have hnone := hlink _ (hmem he) List.dropLast_concat
    cases hnone
  · have hsame := hsingle _ (hmem ha) _ (hmem hb) List.dropLast_concat List.dropLast_concat node rfl
      rfl
    exact (List.append_singleton_inj.1 hsame).2

theorem IsPlain.at (h : d.IsPlain p) (hp : d.placeOf? (.text p) = some place) : d.PlainAt place :=
  h d (.refl d) place hp

theorem IsPlain.grows (h : d.IsPlain p) (hg : d.Grows d') : d'.IsPlain p :=
  fun d'' hg' => h d'' (hg.trans hg')

/-- New directories make no other entries. -/
theorem Grows.plainAt (hg : d.Grows d') (h : d.PlainAt place) : d'.PlainAt place where
  no_link name target he :=
    (hg.made he).elim (h.no_link name target) nofun
  single ha hb := h.single ((hg.made ha).resolve_right nofun) ((hg.made hb).resolve_right nofun)

/-- It is enough to look at a directory that is there. -/
theorem isPlain_of_placeOf (hp : d.placeOf? (.text p) = some place) (h : d.PlainAt place) :
    d.IsPlain p := by
  intro d' hg place' hp'
  obtain rfl := Option.some.inj (hp'.symm.trans (hg.steady.placeOf hp))
  exact hg.plainAt h

/-- The removal of a file. -/
theorem steady_erase (h : d.entry? place = some (.file node)) :
    d.Steady { d with entries := d.entries.erase place } := by
  have hne : place ≠ [] := by
    rintro rfl
    cases h
  refine ⟨rfl, fun {k} hk => ?_, fun {k target} => ?_⟩
  · rw [entry_erase hne, if_neg, hk]
    rintro rfl
    simp [h] at hk
  · rw [entry_erase hne]
    split_ifs with hsame
    · simp [hsame, h]
    · exact Iff.rfl

theorem PlainAt.erase (h : d.PlainAt place) (hne : goal ≠ []) :
    PlainAt { d with entries := d.entries.erase goal } place where
  no_link name target he := by
    rw [entry_erase hne] at he
    split_ifs at he
    exact h.no_link name target he
  single {a b node} ha hb := by
    rw [entry_erase hne] at ha hb
    split_ifs at ha hb
    exact h.single ha hb

/-- A new file. -/
theorem steady_put (h : d.entry? place = none) (node : Nat) (contents : List Bytes) :
    d.Steady { d with entries := d.entries.put place (.file node), contents } := by
  have hne : place ≠ [] := by
    rintro rfl
    cases h
  refine ⟨rfl, fun {k} hk => ?_, fun {k target} => ?_⟩
  · rw [entry_put hne, if_neg, hk]
    rintro rfl
    simp [h] at hk
  · rw [entry_put hne]
    split_ifs with hsame
    · simp [hsame, h]
    · exact Iff.rfl

/-- A new file with a number of its own keeps a directory plain. -/
theorem PlainAt.put (h : d.PlainAt place) (hne : goal ≠ []) (contents : List Bytes)
    (hnew : ∀ name, d.entry? (place ++ [name]) ≠ some (.file node)) :
    PlainAt { d with entries := d.entries.put goal (.file node), contents } place where
  no_link name target he := by
    rw [entry_put hne] at he
    split_ifs at he
    · cases he
    · exact h.no_link name target he
  single {a b node'} ha hb := by
    rw [entry_put hne] at ha hb
    split_ifs at ha hb with hagoal hbgoal hbgoal
    · exact (List.append_singleton_inj.1 (hagoal.trans hbgoal.symm)).2
    · obtain rfl := LinkedEntry.file.inj (Option.some.inj ha)
      exact absurd hb (hnew b)
    · obtain rfl := LinkedEntry.file.inj (Option.some.inj hb)
      exact absurd ha (hnew a)
    · exact h.single ha hb

/-! ## Files in a directory -/

/-- A file directly in a directory, which the path of its entry leads to. -/
structure HasFile (d : LinkedDisk) (p : Path) (place : EntryPlace) (name : EntryName) (node : Nat) :
    Prop where
  directory : d.placeOf? (.text p) = some place
  found : d.locate true (p.entry name) = .ok (place ++ [name])
  file : d.entry? (place ++ [name]) = some (.file node)

theorem names_entry (hname : name.IsProper) :
    (p.entry name).names = (OsPath.text p).names ++ [name] := by
  cases name with
  | raw bytes h => rfl
  | text name => simp [Path.entry, OsPath.names, Path.names_join hname]

theorem isAbsolute_entry (hname : name.IsProper) : (p.entry name).isAbsolute = p.isAbsolute := by
  cases name with
  | raw bytes h => rfl
  | text name => exact Path.isAbsolute_join hname

theorem endsInSlash_entry (hname : name.IsProper) : (p.entry name).endsInSlash = false := by
  cases name with
  | raw bytes h => rfl
  | text name => exact Path.endsInSlash_join hname

/-- The path of an entry leads into the directory, if no symbolic link bears its name. -/
theorem locate_entry (hname : name.IsProper) (h : d.locate follow (p.entry name) = .ok goal) :
    ∃ place, d.placeOf? (.text p) = some place ∧ d.entry? place = some .directory
      ∧ (goal = place ++ [name]
        ∨ follow = true ∧ ∃ target, d.entry? (place ++ [name]) = some (.link target)) := by
  have hresolve := (locate_ok_iff.1 h).2
  rw [names_entry hname, isAbsolute_entry hname] at hresolve
  obtain ⟨place, hplace, hdir, -, hgoal⟩ := resolve_concat hresolve
  rw [EntryPlace.next_proper hname] at hgoal
  exact ⟨place, placeOf_eq_some_iff.2 hplace, hdir, hgoal⟩

theorem IsPlain.locate_entry (h : d.IsPlain p) (hname : name.IsProper)
    (hgoal : d.locate true (p.entry name) = .ok goal) :
    ∃ place, d.placeOf? (.text p) = some place ∧ d.entry? place = some .directory
      ∧ goal = place ++ [name] := by
  obtain ⟨place, hplace, hdir, hgoal | ⟨-, target, hlink⟩⟩ := LinkedDisk.locate_entry hname hgoal
  · exact ⟨place, hplace, hdir, hgoal⟩
  · exact absurd hlink ((h.at hplace).no_link name target)

theorem find_ok_file {q : OsPath} {node : Nat} (h : d.find q = .ok (place, .file node)) :
    d.locate true q = .ok place ∧ d.entry? place = some (.file node) := by
  unfold find at h
  cases hq : d.locate true q with
  | error e => simp [hq, bind, Except.bind] at h
  | ok place' =>
    simp only [hq, bind, Except.bind] at h
    cases hentry : d.entry? place' with
    | none => simp [hentry] at h
    | some e =>
      rw [hentry] at h
      cases e with
      | directory => simp at h
      | file | link =>
        simp only [] at h
        split_ifs at h
        obtain ⟨rfl, he⟩ := Prod.mk.inj (Except.ok.inj h)
        exact ⟨rfl, he ▸ hentry⟩

theorem HasFile.find (h : d.HasFile p place name node) (hname : name.IsProper) :
    d.find (p.entry name) = .ok (place ++ [name], .file node) := by
  simp [LinkedDisk.find, h.found, bind, Except.bind, h.file, endsInSlash_entry hname]

theorem HasFile.isFile (h : d.HasFile p place name node) (hname : name.IsProper) :
    d.isFile (p.entry name) = true := by
  rw [LinkedDisk.isFile, h.find hname]

/-- What is a regular file by its path is one in the directory. -/
theorem hasFile_of_isFile (h : d.IsPlain p) (hname : name.IsProper)
    (hfile : d.isFile (p.entry name) = true) : ∃ place node, d.HasFile p place name node := by
  unfold isFile at hfile
  split at hfile
  · rename_i goal node hfind
    obtain ⟨hgoal, hentry⟩ := find_ok_file hfind
    obtain ⟨place, hplace, -, rfl⟩ := h.locate_entry hname hgoal
    exact ⟨place, node, hplace, hgoal, hentry⟩
  · cases hfile

theorem HasFile.read {text : String} (h : d.HasFile p place (.text text) node)
    (hname : IsName text) :
    d.read (p / text) = .ok (d.content node) := by
  have hfind : d.find (.text (p / text)) = .ok (place ++ [.text text], .file node) :=
    h.find (show (EntryName.text text).IsProper from hname)
  simp [LinkedDisk.read, hfind, bind, Except.bind]

/-- A file is left where it is by all that leaves the directories, the links and the file. -/
theorem HasFile.steady (h : d.HasFile p place name node) (hs : d.Steady d')
    (hfile : d'.entry? (place ++ [name]) = some (.file node)) : d'.HasFile p place name node :=
  ⟨hs.placeOf h.directory, hs.locate h.found, hfile⟩

theorem HasFile.unique {place' : EntryPlace} {node' : Nat} (h : d.HasFile p place name node)
    (h' : d.HasFile p place' name node') : place' = place ∧ node' = node := by
  obtain rfl := Option.some.inj (h'.directory.symm.trans h.directory)
  have hnode := h'.file.symm.trans h.file
  simp only [Option.some.injEq, LinkedEntry.file.injEq] at hnode
  exact ⟨rfl, hnode⟩

/-- Nothing but a file can be taken away by its path. -/
theorem hasFile_of_removeFile (h : d.IsPlain p) (hname : name.IsProper)
    (hok : d.removeFile (p.entry name) = .ok d') : ∃ place node, d.HasFile p place name node := by
  unfold removeFile at hok
  rw [endsInSlash_entry hname] at hok
  cases hgoal : d.locate false (p.entry name) with
  | error e => simp [hgoal, bind, Except.bind] at hok
  | ok goal =>
    obtain ⟨place, hplace, hdir, rfl | hfollow⟩ := LinkedDisk.locate_entry hname hgoal
    · cases hentry : d.entry? (place ++ [name]) with
      | none => simp [hgoal, bind, Except.bind, hentry] at hok
      | some e =>
        cases e with
        | directory => simp [hgoal, bind, Except.bind, hentry] at hok
        | link target => exact absurd hentry ((h.at hplace).no_link name target)
        | file node =>
          refine ⟨place, node, hplace, ?_, hentry⟩
          obtain ⟨hfits, -⟩ := locate_ok_iff.1 hgoal
          refine locate_ok_iff.2 ⟨hfits, ?_⟩
          rw [names_entry hname, isAbsolute_entry hname]
          exact resolve_append hdir hname (by simp [hentry]) (placeOf_eq_some_iff.1 hplace)
    · exact absurd hfollow.1 (by decide)

/-- Taking a file away takes its name away, and nothing else. -/
theorem removeFile_ok (h : d.HasFile p place name node) (hname : name.IsProper)
    (hok : d.removeFile (p.entry name) = .ok d') :
    d' = { d with entries := d.entries.erase (place ++ [name]) } := by
  unfold removeFile at hok
  rw [endsInSlash_entry hname] at hok
  cases hgoal : d.locate false (p.entry name) with
  | error e => simp [hgoal, bind, Except.bind] at hok
  | ok goal =>
    obtain ⟨place', hplace, -, rfl | hfollow⟩ := LinkedDisk.locate_entry hname hgoal
    · obtain rfl := Option.some.inj (hplace.symm.trans h.directory)
      simpa [hgoal, bind, Except.bind, h.file, eq_comm] using hok
    · exact absurd hfollow.1 (by decide)

/-- A content that is written is that of the file of the name, which is a new one if there was
none. -/
theorem write_ok {text : String} {content : Bytes} (h : d.IsPlain p) (hname : IsName text)
    (hok : d.write (p / text) content = .ok d') :
    ∃ place, d.placeOf? (.text p) = some place ∧ d.entry? place = some .directory
      ∧ d.locate true (.text (p / text)) = .ok (place ++ [.text text])
      ∧ ((∃ node, d.entry? (place ++ [.text text]) = some (.file node)
          ∧ d' = { d with contents := d.contents.set node content })
        ∨ d.entry? (place ++ [.text text]) = none
          ∧ d' = { d with
              entries := d.entries.put (place ++ [.text text]) (.file d.contents.length)
              contents := d.contents ++ [content] }) := by
  unfold write at hok
  cases hgoal : d.locate true (.text (p / text)) with
  | error e => simp [hgoal, bind, Except.bind] at hok
  | ok goal =>
    obtain ⟨place, hplace, hdir, rfl⟩ :=
      h.locate_entry (show (EntryName.text text).IsProper from hname) hgoal
    refine ⟨place, hplace, hdir, rfl, ?_⟩
    simp only [hgoal, bind, Except.bind] at hok
    split_ifs at hok
    split at hok
    · rename_i node hentry
      exact .inl ⟨node, hentry, (Except.ok.inj hok).symm⟩
    · rename_i hentry
      exact .inr ⟨hentry, (Except.ok.inj hok).symm⟩
    · cases hok
    · cases hok

/-- The names that are listed are those of entries. -/
theorem proper_of_list (h : d.IsTree) {names : List EntryName} (hok : d.list p = .ok names) :
    ∀ name ∈ names, name.IsProper := by
  unfold list at hok
  cases hfind : d.find (.text p) with
  | error e => simp [hfind, bind, Except.bind] at hok
  | ok found =>
    obtain ⟨place, e⟩ := found
    cases e with
    | file | link => simp [hfind, bind, Except.bind] at hok
    | directory =>
      simp only [hfind, bind, Except.bind, pure, Except.pure, Except.ok.injEq] at hok
      subst hok
      intro name hmem
      obtain ⟨k, hk, hname⟩ := List.mem_filterMap.1 hmem
      split at hname
      · rename_i last hlast
        obtain ⟨e, he⟩ : ∃ e, d.entries.get? k = some e := by
          rw [← Option.isSome_iff_exists, Option.isSome_iff_ne_none, ne_eq, Assoc.get?_eq_none_iff,
            not_not]
          exact hk
        obtain ⟨directory, name', rfl, hproper, -⟩ := h.parent he
        rw [List.getLast?_concat, Option.some.injEq] at hlast
        obtain rfl := Option.some.inj (Option.ite_none_right_eq_some.1 hname).2
        exact hlast ▸ hproper
      · cases hname

end LinkedDisk

end QueryHost
