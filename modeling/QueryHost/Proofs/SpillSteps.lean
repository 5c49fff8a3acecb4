import QueryHost.Proofs.SpillPlaces

/-!
# Setting spills aside in one store

On ground that is fit for it, the entries of a store are set aside exactly if what was set aside
before makes way for each of them (`Spill.setAside_spec`), and whatever was set aside can be removed
(`Spill.discard_spec`). Both go entry by entry: an entry that moves, or goes, changes nothing for
those with other names, so what hindered one of them before still does.
-/

namespace QueryHost

namespace Spill

variable {d d' d'' : Disk} {place : Place} {store : Path} {stores : List Path} {name : String}
  {names : List String} {e : Entry} {scene : Scene}

/-! ## The paths of a store -/

theorem size_spillIn (store : Path) :
    (spillIn store).text.utf8ByteSize < (wasteIn store).text.utf8ByteSize := by
  have hspill : ("spill" : String).utf8ByteSize = 5 := by decide
  have hwaste : ("spill_gc" : String).utf8ByteSize = 8 := by decide
  have hle := (Path.size_join (p := store) isName_spill).2
  have hge := (Path.size_join (p := store) isName_waste).1
  unfold spillIn wasteIn
  omega

theorem size_spillIn_join (store : Path) (h : IsName name) :
    (spillIn store / name).text.utf8ByteSize ≤ (wasteIn store / name).text.utf8ByteSize := by
  have hlt := size_spillIn store
  have hle := (Path.size_join (p := spillIn store) h).2
  have hge := (Path.size_join (p := wasteIn store) h).1
  omega

/-! ## Results -/

section Results

variable {α β : Type} {r : Except Failure α}

@[simp] theorem isOk_ok (x : α) : (Except.ok x : Except Failure α).isOk = true := rfl

@[simp] theorem isOk_error (f : Failure) : (Except.error f : Except Failure α).isOk = false := rfl

theorem isOk_map {f : α → β} : (r.map f).isOk = r.isOk := by cases r <;> rfl

end Results

/-! ## One store -/

section Store

theorem Ground.spill_fits (h : Ground stores d) (hs : store ∈ stores) :
    (spillIn store).text.utf8ByteSize < Disk.pathEnd :=
  Nat.lt_trans (size_spillIn store) (h.fits store hs).1

theorem Ground.isDirectory_spill (h : Ground stores d) (hs : store ∈ stores)
    (hdir : d.entry? (spillAt (d.placeOf store)) = some .directory) :
    d.isDirectory (spillIn store) = true :=
  Disk.isDirectory_iff.2 ⟨.join (h.directory store hs) isName_spill (h.spill_fits hs),
    placeOf_spillIn d store ▸ hdir⟩

theorem Ground.isDirectory_waste (h : Ground stores d) (hs : store ∈ stores)
    (hdir : d.entry? (wasteAt (d.placeOf store)) = some .directory) :
    d.isDirectory (wasteIn store) = true :=
  Disk.isDirectory_iff.2 ⟨.join (h.directory store hs) isName_waste (h.fits store hs).1,
    placeOf_wasteIn d store ▸ hdir⟩

theorem Ground.ensure_waste (h : Ground stores scene.disk) (hs : store ∈ stores) :
    ∃ d', (ensure (wasteIn store)).run.run scene = (.ok (), { scene with disk := d' })
      ∧ Within (scene.disk.placeOf store) scene.disk d'
      ∧ d'.entry? (wasteAt (scene.disk.placeOf store)) = some .directory
      ∧ ∀ k, k ≠ wasteAt (scene.disk.placeOf store) → d'.entry? k = scene.disk.entry? k := by
  obtain ⟨d', hmade, hgrows, hdir, hframe⟩ := Disk.makeDirectories_join (h.directory store hs)
    isName_waste (h.fits store hs).1 (h.waste_free store hs)
  refine ⟨d', ?_, within_made h.tree hgrows (.inr rfl) hdir hframe, hdir, hframe⟩
  rw [ensure, Act.run_makeDirectories, Disk.fileSystem_makeDirectories, wasteIn, hmade]
  rfl

theorem Ground.ensure_spill (h : Ground stores scene.disk) (hs : store ∈ stores) :
    ∃ d', (ensure (spillIn store)).run.run scene = (.ok (), { scene with disk := d' })
      ∧ Within (scene.disk.placeOf store) scene.disk d'
      ∧ d'.entry? (spillAt (scene.disk.placeOf store)) = some .directory
      ∧ ∀ k, k ≠ spillAt (scene.disk.placeOf store) → d'.entry? k = scene.disk.entry? k := by
  obtain ⟨d', hmade, hgrows, hdir, hframe⟩ := Disk.makeDirectories_join (h.directory store hs)
    isName_spill (h.spill_fits hs) (h.spill_free store hs)
  refine ⟨d', ?_, within_made h.tree hgrows (.inl rfl) hdir hframe, hdir, hframe⟩
  rw [ensure, Act.run_makeDirectories, Disk.fileSystem_makeDirectories, spillIn, hmade]
  rfl

/-! ## Entry by entry -/

/-- An entry moves if what was set aside under its name makes way for it. -/
theorem Ground.move_iff (h : Ground stores d) (hs : store ∈ stores)
    (hplace : place = d.placeOf store) (hspill : d.entry? (spillAt place) = some .directory)
    (hwaste : d.entry? (wasteAt place) = some .directory)
    (he : d.entry? (spillAt place ++ [name]) = some e) :
    d.move (spillIn store / name) (wasteIn store / name) = .ok d'
      ↔ d.MakesWay (wasteAt place ++ [name]) e
        ∧ d' = d.relocate (spillAt place ++ [name]) (wasteAt place ++ [name]) := by
  subst hplace
  have hname := (h.tree.of_concat he).1
  have hfits := (h.fits store hs).2 name (mem_left.2 (.inl ⟨e, he⟩))
  have hsource : d.find (spillIn store / name) = .ok (spillAt (d.placeOf store) ++ [name], e) := by
    refine Disk.find_ok_iff.2 ⟨⟨.join (h.isDirectory_spill hs hspill) hname ?_, ?_⟩, he, ?_⟩
    · exact Nat.lt_of_le_of_lt (size_spillIn_join store hname) hfits
    · rw [Disk.placeOf_join hname, placeOf_spillIn]
    · simp [Path.endsInSlash_join hname]
  have htarget : d.locate (wasteIn store / name) = .ok (wasteAt (d.placeOf store) ++ [name]) := by
    refine Disk.locate_ok_iff.2 ⟨.join (h.isDirectory_waste hs hwaste) hname hfits, ?_⟩
    rw [Disk.placeOf_join hname, placeOf_wasteIn]
  exact Disk.move_ok_iff h.tree hsource htarget fun hpre =>
    not_waste_of_spill ((List.prefix_append _ _).trans hpre) (List.prefix_append _ _)

/-- What was set aside under a name makes way for the entry of that name. -/
def Yields (d : Disk) (place : Place) (name : String) : Prop :=
  ∀ e ∈ d.entry? (spillAt place ++ [name]), d.MakesWay (wasteAt place ++ [name]) e

theorem yields_congr
    (hspill : d'.entry? (spillAt place ++ [name]) = d.entry? (spillAt place ++ [name]))
    (hwaste : ∀ k, wasteAt place ++ [name] <+: k → d'.entry? k = d.entry? k) :
    Yields d' place name ↔ Yields d place name := by
  unfold Yields
  rw [hspill]
  exact forall₂_congr fun e _ => Disk.makesWay_congr hwaste

/-- The given entries of a place were set aside. -/
structure SetAside (place : Place) (names : List String) (d d' : Disk) : Prop where
  within : Within place d d'
  gone : ∀ name ∈ d'.children (spillAt place), name ∈ d.children (spillAt place) ∧ name ∉ names

theorem SetAside.cons (h : SetAside place [name] d d') (h' : SetAside place names d' d'') :
    SetAside place (name :: names) d d'' where
  within := h.within.trans h'.within
  gone other hother := by
    obtain ⟨hmem, hnot⟩ := h'.gone other hother
    obtain ⟨hold, hne⟩ := h.gone other hmem
    exact ⟨hold, fun hin => (List.mem_cons.1 hin).elim (fun heq => hne (heq ▸ .head _)) hnot⟩

theorem setAside_relocate (htree : d.IsTree)
    (hwaste : d.entry? (wasteAt place) = some .directory)
    (he : d.entry? (spillAt place ++ [name]) = some e) :
    SetAside place [name] d (d.relocate (spillAt place ++ [name]) (wasteAt place ++ [name])) where
  within := within_setAside htree (htree.of_concat he).1 hwaste he
  gone other hother := by
    obtain ⟨hold, hne⟩ := children_setAside hother
    exact ⟨hold, mt List.mem_singleton.1 hne⟩

/-- Whether an entry is hindered does not depend on what was set aside under other names. -/
theorem yields_relocate {other : String} (hne : other ≠ name) :
    Yields (d.relocate (spillAt place ++ [name]) (wasteAt place ++ [name])) place other
      ↔ Yields d place other := by
  refine yields_congr ?_ fun k hk => ?_
  · simpa using (entry_setAside_sibling d place hne []).1
  · obtain ⟨more, rfl⟩ := hk
    exact (entry_setAside_sibling d place hne more).2

/-- The entries are moved one after the other. Those that remain are still there to be moved, and
are hindered as they were. -/
theorem moveEntries_spec (hs : store ∈ stores) : ∀ {names : List String} {scene : Scene},
    Ground stores scene.disk → place = scene.disk.placeOf store →
    scene.disk.entry? (spillAt place) = some .directory →
    scene.disk.entry? (wasteAt place) = some .directory →
    names.Nodup → names ⊆ scene.disk.children (spillAt place) →
    (∃ r d', (moveEntries (spillIn store) (wasteIn store) names).run.run scene
        = (r, { scene with disk := d' })
      ∧ (r.isOk = true ↔ ∀ name ∈ names, Yields scene.disk place name)
      ∧ (r.isOk = true → SetAside place names scene.disk d'))
  | [], scene, h, _, _, _, _, _ =>
    ⟨.ok 0, scene.disk, rfl, by simp,
      fun _ => ⟨within_refl h.tree, fun name hname => ⟨hname, List.not_mem_nil⟩⟩⟩
  | name :: rest, scene, h, hplace, hspill, hwaste, hnodup, hsub => by
    obtain ⟨hnew, hnodup⟩ := List.nodup_cons.1 hnodup
    obtain ⟨hname, hsub⟩ := List.cons_subset.1 hsub
    obtain ⟨e, he⟩ := Disk.mem_children.1 hname
    rw [moveEntries, run_bind, Act.run_change]
    cases hmove : scene.disk.move (spillIn store / name) (wasteIn store / name) with
    | error fault =>
      refine ⟨_, scene.disk, rfl, iff_of_false (by simp) fun hall => ?_, by simp⟩
      have hok := (h.move_iff hs hplace hspill hwaste he).2 ⟨hall name List.mem_cons_self e he, rfl⟩
      rw [hmove] at hok
      exact nomatch hok
    | ok moved =>
      obtain ⟨hway, hmoved⟩ := (h.move_iff hs hplace hspill hwaste he).1 hmove
      have hone : SetAside place [name] scene.disk moved :=
        hmoved ▸ setAside_relocate h.tree hwaste he
      have hne : ∀ other ∈ rest, other ≠ name := by
        rintro other hother rfl
        exact hnew hother
      have hrest : rest ⊆ moved.children (spillAt place) := fun other hother => by
        have hsame := (entry_setAside_sibling scene.disk place (hne other hother) []).1
        rw [List.append_nil, ← hmoved] at hsame
        exact Disk.mem_children.2 (hsame ▸ Disk.mem_children.1 (hsub hother))
      have hground : Ground stores { scene with disk := moved }.disk :=
        h.within hs (hplace ▸ hone.within)
      obtain ⟨r, d', hrun, hiff, hset⟩ := moveEntries_spec hs hground
        (hplace.trans (Disk.placeOf_congr hone.within.workplace store).symm)
        (hone.within.spill_stays hspill) (hone.within.waste_stays hwaste) hnodup hrest
      refine ⟨r.map (1 + ·), d', ?_, ?_, fun hr => ?_⟩
      · simp only [run_bind, hrun]
        cases r <;> rfl
      · have hfirst : Yields scene.disk place name := fun e' he' => by
          obtain rfl : e = e' := Option.some.inj (he.symm.trans he')
          exact hway
        rw [isOk_map, hiff, List.forall_mem_cons, and_iff_right hfirst]
        exact forall₂_congr fun other hother => hmoved ▸ yields_relocate (hne other hother)
      · exact hone.cons (hset (isOk_map ▸ hr))

/-- Both directories are there, and nothing is in the one for spills. -/
structure Parked (d : Disk) (place : Place) : Prop where
  spill : d.entry? (spillAt place) = some .directory
  waste : d.entry? (wasteAt place) = some .directory
  empty : d.children (spillAt place) = []

theorem wasteYields_congr
    (hspill : ∀ name, d'.entry? (spillAt place ++ [name]) = d.entry? (spillAt place ++ [name]))
    (hwaste : ∀ name k, wasteAt place ++ [name] <+: k → d'.entry? k = d.entry? k) :
    WasteYields d' place ↔ WasteYields d place := by
  refine forall_congr' fun name => imp_congr ?_ (yields_congr (hspill name) (hwaste name))
  rw [Disk.mem_children, Disk.mem_children, hspill]

/-- Sets aside the entries of a store, if its directory for spills is there at all. -/
def movePresent (store : Path) : Act Nat := do
  if (← Act.disk).isPresent (spillIn store) then moveChildren (spillIn store) (wasteIn store)
  else return 0

/-- `movePresent` moves what is there if the waste yields. -/
theorem movePresent_spec (h : Ground stores scene.disk) (hs : store ∈ stores)
    (hplace : place = scene.disk.placeOf store)
    (hwaste : scene.disk.entry? (wasteAt place) = some .directory) :
    ∃ r d', (movePresent store).run.run scene = (r, { scene with disk := d' })
      ∧ (r.isOk = true ↔ WasteYields scene.disk place)
      ∧ (r.isOk = true → Within place scene.disk d' ∧ d'.children (spillAt place) = []) := by
  cases hspill : scene.disk.entry? (spillAt place) with
  | none =>
    have hempty : scene.disk.children (spillAt place) = [] :=
      h.tree.children_of_ne (by simp [hspill])
    have habsent : scene.disk.isPresent (spillIn store) ≠ true := fun hpresent => by
      obtain ⟨e, hfind⟩ := Disk.isPresent_iff.1 hpresent
      have he := (Disk.find_ok_iff.1 hfind).2.1
      rw [placeOf_spillIn, ← hplace, hspill] at he
      exact nomatch he
    refine ⟨.ok 0, scene.disk, ?_, by simp [WasteYields, hempty],
      fun _ => ⟨within_refl h.tree, hempty⟩⟩
    rw [movePresent, Act.run_disk_bind, if_neg habsent]
    rfl
  | some e =>
    obtain rfl : e = .directory := by
      cases e with
      | directory => rfl
      | file content => exact absurd (hplace ▸ hspill) (h.spill_free store hs content)
    have hdir := h.isDirectory_spill hs (hplace ▸ hspill)
    obtain ⟨hr, he⟩ := Disk.isDirectory_iff.1 hdir
    have hpresent : scene.disk.isPresent (spillIn store) = true :=
      Disk.isPresent_iff.2 ⟨_, Disk.find_ok_iff.2 ⟨⟨hr, rfl⟩, he, fun _ => rfl⟩⟩
    obtain ⟨r, d', hrun, hiff, hset⟩ := moveEntries_spec hs h hplace hspill hwaste
      (scene.disk.nodup_children _) (List.Subset.refl _)
    refine ⟨r, d', ?_, hiff, fun hr => ⟨(hset hr).within, ?_⟩⟩
    · rw [movePresent, Act.run_disk_bind, if_pos hpresent, moveChildren, Act.run_disk_bind,
        Disk.list_of_isDirectory hdir, placeOf_spillIn, ← hplace]
      exact hrun
    · refine List.eq_nil_iff_forall_not_mem.2 fun name hname => ?_
      exact absurd ((hset hr).gone name hname).1 ((hset hr).gone name hname).2

/-- What is done for one store when spills are set aside. -/
def setAside (store : Path) : Act Nat := do
  ensure (wasteIn store)
  let moved ← movePresent store
  ensure (spillIn store)
  return moved

theorem moveAside_cons (store : Path) (rest : List Path) :
    moveAside (store :: rest) = do
      let moved ← setAside store
      return moved + (← moveAside rest) := by
  simp only [moveAside, setAside, movePresent, bind_assoc, pure_bind]
  refine bind_congr fun _ => bind_congr fun d => ?_
  split <;> simp only [pure_bind]

/-- `setAside` sees to the directories before it moves. -/
theorem setAside_spec (h : Ground stores scene.disk) (hs : store ∈ stores)
    (hplace : place = scene.disk.placeOf store) :
    ∃ r d', (setAside store).run.run scene = (r, { scene with disk := d' })
      ∧ (r.isOk = true ↔ WasteYields scene.disk place)
      ∧ (r.isOk = true → Within place scene.disk d' ∧ Parked d' place) := by
  obtain ⟨d₁, hrun₁, hwithin₁, hwaste₁, hframe₁⟩ := h.ensure_waste hs
  rw [← hplace] at hwithin₁ hwaste₁ hframe₁
  have h₁ : Ground stores { scene with disk := d₁ }.disk := h.within hs (hplace ▸ hwithin₁)
  have hplace₁ : place = d₁.placeOf store :=
    hplace.trans (Disk.placeOf_congr hwithin₁.workplace store).symm
  obtain ⟨r, d₂, hrun₂, hiff, hmoved⟩ := movePresent_spec h₁ hs hplace₁ hwaste₁
  have hrun : (setAside store).run.run scene
      = (movePresent store >>= fun moved => ensure (spillIn store) >>= fun _ => pure moved).run.run
        { scene with disk := d₁ } := by
    rw [setAside, run_bind, hrun₁]
  rw [hrun, run_bind, hrun₂]
  have hyields : WasteYields d₁ place ↔ WasteYields scene.disk place := by
    refine wasteYields_congr (fun name => hframe₁ _ fun heq => ?_) fun name k hk => hframe₁ _ ?_
    · simpa [spillAt, wasteAt] using congrArg List.length heq
    · rintro rfl
      simpa using hk.length_le
  cases r with
  | error f =>
    refine ⟨.error f, d₂, rfl, hiff.trans hyields, fun hr => ?_⟩
    simp at hr
  | ok moved =>
    obtain ⟨hwithin₂, hempty⟩ := hmoved rfl
    have h₂ : Ground stores { scene with disk := d₂ }.disk := h₁.within hs (hplace₁ ▸ hwithin₂)
    have hplace₂ : place = d₂.placeOf store :=
      hplace₁.trans (Disk.placeOf_congr hwithin₂.workplace store).symm
    obtain ⟨d₃, hrun₃, hwithin₃, hspill₃, hframe₃⟩ := h₂.ensure_spill hs
    rw [← hplace₂] at hwithin₃ hspill₃ hframe₃
    refine ⟨.ok moved, d₃, ?_, hiff.trans hyields, fun _ => ⟨?_, hspill₃, ?_, ?_⟩⟩
    · simp only [run_bind, hrun₃]
      rfl
    · exact hwithin₁.trans (hwithin₂.trans hwithin₃)
    · exact hwithin₃.waste_stays (hwithin₂.waste_stays hwaste₁)
    · rw [Disk.children_eq_nil] at hempty ⊢
      intro name
      rw [hframe₃ _ (by simp), hempty name]

/-- Removing an entry that was set aside. -/
theorem Ground.remove_eq (h : Ground stores d) (hs : store ∈ stores)
    (hplace : place = d.placeOf store) (hwaste : d.entry? (wasteAt place) = some .directory)
    (hname : name ∈ d.children (wasteAt place)) :
    (if d.isDirectory (wasteIn store / name) then d.removeTree (wasteIn store / name)
      else d.removeFile (wasteIn store / name)) = .ok (d.erase (wasteAt place ++ [name])) := by
  subst hplace
  obtain ⟨e, he⟩ := Disk.mem_children.1 hname
  have hisName := (h.tree.of_concat he).1
  have hfits := (h.fits store hs).2 name (mem_left.2 (.inr ⟨e, he⟩))
  have hr : d.Reaches (wasteIn store / name) := .join (h.isDirectory_waste hs hwaste) hisName hfits
  have hplace : d.placeOf (wasteIn store / name) = wasteAt (d.placeOf store) ++ [name] := by
    rw [Disk.placeOf_join hisName, placeOf_wasteIn]
  rw [← hplace] at he ⊢
  cases e with
  | directory =>
    have hdir := Disk.isDirectory_iff.2 ⟨hr, he⟩
    rw [if_pos hdir]
    exact Disk.removeTree_ok_iff.2 ⟨hdir, rfl⟩
  | file content =>
    have hdir : d.isDirectory (wasteIn store / name) ≠ true := fun hdir => by
      have hboth := he.symm.trans (Disk.isDirectory_iff.1 hdir).2
      exact nomatch hboth
    rw [if_neg hdir]
    refine Disk.removeFile_ok_iff.2 ⟨content, Disk.find_ok_iff.2 ⟨⟨hr, rfl⟩, he, ?_⟩, rfl⟩
    simp [Path.endsInSlash_join hisName]

/-- The given entries that were set aside were removed. -/
structure Discarded (place : Place) (names : List String) (d d' : Disk) : Prop where
  within : Within place d d'
  spill : ∀ k, spillAt place <+: k → d'.entry? k = d.entry? k
  gone : ∀ name ∈ d'.children (wasteAt place), name ∈ d.children (wasteAt place) ∧ name ∉ names

theorem Discarded.cons (h : Discarded place [name] d d') (h' : Discarded place names d' d'') :
    Discarded place (name :: names) d d'' where
  within := h.within.trans h'.within
  spill k hk := (h'.spill k hk).trans (h.spill k hk)
  gone other hother := by
    obtain ⟨hmem, hnot⟩ := h'.gone other hother
    obtain ⟨hold, hne⟩ := h.gone other hmem
    exact ⟨hold, fun hin => (List.mem_cons.1 hin).elim (fun heq => hne (heq ▸ .head _)) hnot⟩

theorem mem_children_erase {other : String} :
    other ∈ (d.erase (wasteAt place ++ [name])).children (wasteAt place)
      ↔ other ∈ d.children (wasteAt place) ∧ other ≠ name := by
  have hpre : wasteAt place ++ [name] <+: wasteAt place ++ [other] ↔ other = name := by
    rw [List.prefix_append_right_inj, List.cons_prefix_cons, eq_comm]
    simp
  rw [Disk.mem_children, Disk.mem_children, Disk.entry_erase (by simp)]
  simp only [hpre]
  split_ifs with hsame <;> simp [hsame]

theorem discarded_erase (htree : d.IsTree) :
    Discarded place [name] d (d.erase (wasteAt place ++ [name])) where
  within := within_discard htree
  spill k hk := by
    rw [Disk.entry_erase (by simp), if_neg fun hpre => ?_]
    exact not_waste_of_spill hk ((List.prefix_append _ _).trans hpre)
  gone other hother := by
    obtain ⟨hold, hne⟩ := mem_children_erase.1 hother
    exact ⟨hold, mt List.mem_singleton.1 hne⟩

/-- `discard` removes the entries it is given. -/
theorem discard_spec (hs : store ∈ stores) : ∀ {names : List String} {scene : Scene},
    Ground stores scene.disk → place = scene.disk.placeOf store →
    scene.disk.entry? (wasteAt place) = some .directory → names.Nodup →
    names ⊆ scene.disk.children (wasteAt place) →
    ∃ n d', (discard (wasteIn store) names).run.run scene = (.ok n, { scene with disk := d' })
      ∧ Discarded place names scene.disk d'
  | [], scene, h, _, _, _, _ =>
    ⟨0, scene.disk, rfl, within_refl h.tree, fun _ _ => rfl,
      fun _ hname => ⟨hname, List.not_mem_nil⟩⟩
  | name :: rest, scene, h, hplace, hwaste, hnodup, hsub => by
    obtain ⟨hnew, hnodup⟩ := List.nodup_cons.1 hnodup
    obtain ⟨hname, hsub⟩ := List.cons_subset.1 hsub
    have hone : Discarded place [name] scene.disk (scene.disk.erase (wasteAt place ++ [name])) :=
      discarded_erase h.tree
    have hrest : rest ⊆ (scene.disk.erase (wasteAt place ++ [name])).children (wasteAt place) :=
      fun other hother => mem_children_erase.2 ⟨hsub hother, fun heq => hnew (heq ▸ hother)⟩
    generalize herased : scene.disk.erase (wasteAt place ++ [name]) = erased at hone hrest
    have hground : Ground stores { scene with disk := erased }.disk :=
      h.within hs (hplace ▸ hone.within)
    obtain ⟨n, d', hrun, hset⟩ := discard_spec hs hground
      (hplace.trans (Disk.placeOf_congr hone.within.workplace store).symm)
      (hone.within.waste_stays hwaste) hnodup hrest
    refine ⟨1 + n, d', ?_, hone.cons hset⟩
    show (Act.disk >>= fun d => _ : Act Nat).run.run _ = _
    rw [Act.run_disk_bind, h.remove_eq hs hplace hwaste hname, herased]
    simp only []
    rw [Act.run_setDisk_bind, run_bind, hrun]
    rfl

end Store

end Spill

end QueryHost
