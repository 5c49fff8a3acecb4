import QueryHost.Proofs.SpillSteps

/-!
# Recovery of spills

A start sets the entries of all stores aside and then removes them. What is done for one store is
no concern of the others, so the start comes to its end, and leaves the directories of all stores
empty, exactly if in each of them what an earlier start has set aside makes way, and no store leads
into the directories of a store (`Spill.init_recovers_iff`). An earlier start that was interrupted
can leave what does not make way (`Spill.init_clashes`).
-/

namespace QueryHost

namespace Spill

variable {d d' : Disk} {place : Place} {store : Path} {stores : List Path} {scene : Scene}

/-! ## All stores -/

/-- What is set aside for one store is no concern of the stores at other places. -/
theorem Ground.wasteYields_iff (h : Ground stores d) (hs : store ∈ stores)
    (hw : Within (d.placeOf store) d d') {other : Path} (ho : other ∈ stores)
    (hne : d.placeOf store ≠ d.placeOf other) :
    WasteYields d' (d.placeOf other) ↔ WasteYields d (d.placeOf other) :=
  wasteYields_congr
    (fun _ => h.elsewhere hs ho hne hw (.inl rfl) (List.prefix_append _ _))
    fun _ _ hk => h.elsewhere hs ho hne hw (.inr rfl) ((List.prefix_append _ _).trans hk)

theorem Ground.parked (h : Ground stores d) (hs : store ∈ stores)
    (hw : Within (d.placeOf store) d d') (hparked : Parked d' (d.placeOf store)) {other : Path}
    (ho : other ∈ stores) (hold : Parked d (d.placeOf other)) : Parked d' (d.placeOf other) := by
  by_cases hsame : d.placeOf store = d.placeOf other
  · exact hsame ▸ hparked
  · have hspill : ∀ {k}, spillAt (d.placeOf other) <+: k → d'.entry? k = d.entry? k :=
      h.elsewhere hs ho hsame hw (.inl rfl)
    have hwaste : ∀ {k}, wasteAt (d.placeOf other) <+: k → d'.entry? k = d.entry? k :=
      h.elsewhere hs ho hsame hw (.inr rfl)
    refine ⟨(hspill (List.prefix_refl _)).trans hold.spill,
      (hwaste (List.prefix_refl _)).trans hold.waste, ?_⟩
    have hempty := hold.empty
    rw [Disk.children_eq_nil] at hempty ⊢
    exact fun name => (hspill (List.prefix_append _ _)).trans (hempty name)

/-- `moveAside` succeeds if the waste of all stores yields, and then parks what they held. -/
theorem moveAside_spec : ∀ {rest : List Path} {scene : Scene}, rest ⊆ stores →
    Ground stores scene.disk →
    ∃ r d', (moveAside rest).run.run scene = (r, { scene with disk := d' })
      ∧ (r.isOk = true ↔ ∀ store ∈ rest, WasteYields scene.disk (scene.disk.placeOf store))
      ∧ (r.isOk = true → d'.workplace = scene.disk.workplace ∧ Ground stores d'
        ∧ (∀ store ∈ stores, Parked scene.disk (scene.disk.placeOf store) →
          Parked d' (scene.disk.placeOf store))
        ∧ ∀ store ∈ rest, Parked d' (scene.disk.placeOf store))
  | [], scene, _, h => ⟨.ok 0, scene.disk, rfl, by simp,
      fun _ => ⟨rfl, h, fun _ _ hp => hp, by simp⟩⟩
  | store :: rest, scene, hsub, h => by
    obtain ⟨hs, hsub⟩ := List.cons_subset.1 hsub
    obtain ⟨r, d₁, hrun₁, hiff₁, hdone₁⟩ := setAside_spec h hs rfl
    rw [moveAside_cons, run_bind, hrun₁]
    cases r with
    | error f =>
      refine ⟨.error f, d₁, rfl, iff_of_false (by simp) fun hall => ?_,
        by simp⟩
      have hok := hiff₁.2 (hall store List.mem_cons_self)
      simp at hok
    | ok moved =>
      obtain ⟨hwithin, hparked⟩ := hdone₁ rfl
      have hyields := hiff₁.1 rfl
      have hplace : ∀ p, d₁.placeOf p = scene.disk.placeOf p := Disk.placeOf_congr hwithin.workplace
      have h₁ : Ground stores { scene with disk := d₁ }.disk := h.within hs hwithin
      obtain ⟨r, d₂, hrun₂, hiff₂, hdone₂⟩ := moveAside_spec hsub h₁
      simp only [hplace] at hiff₂ hdone₂
      refine ⟨r.map (moved + ·), d₂, ?_, ?_, fun hr => ?_⟩
      · simp only [run_bind, hrun₂]
        cases r <;> rfl
      · rw [isOk_map, hiff₂, List.forall_mem_cons, and_iff_right hyields]
        refine forall₂_congr fun other hother => ?_
        by_cases hsame : scene.disk.placeOf store = scene.disk.placeOf other
        · -- the same place once more: nothing is left there to set aside
          have hvacuous : WasteYields d₁ (scene.disk.placeOf other) := by
            simp [WasteYields, (hsame ▸ hparked).empty]
          exact iff_of_true hvacuous (hsame ▸ hyields)
        · exact h.wasteYields_iff hs hwithin (hsub hother) hsame
      · obtain ⟨hw, hground, hstay, hrest⟩ := hdone₂ (isOk_map ▸ hr)
        refine ⟨hw.trans hwithin.workplace, hground, fun other ho hold => ?_,
          List.forall_mem_cons.2 ⟨hstay store hs hparked, hrest⟩⟩
        exact hstay other ho (h.parked hs hwithin hparked ho hold)

/-- Removes what was set aside for a store. -/
def collectFrom (store : Path) : Act Nat := do
  match (← Act.disk).list (wasteIn store) with
  | .ok names => discard (wasteIn store) names
  | .error _ => return 0

theorem collectIn_cons (store : Path) (rest : List Path) :
    collectIn (store :: rest) = do
      let removed ← collectFrom store
      return removed + (← collectIn rest) := by
  simp only [collectIn, collectFrom, bind_assoc]
  refine bind_congr fun d => ?_
  cases d.list (wasteIn store) with
  | ok names => rfl
  | error fault => simp only [pure_bind]

/-- `collectFrom` empties what one store has set aside. -/
theorem collectFrom_spec (h : Ground stores scene.disk) (hs : store ∈ stores)
    (hparked : Parked scene.disk (scene.disk.placeOf store)) :
    ∃ n d', (collectFrom store).run.run scene = (.ok n, { scene with disk := d' })
      ∧ Within (scene.disk.placeOf store) scene.disk d' ∧ Parked d' (scene.disk.placeOf store)
      ∧ d'.children (wasteAt (scene.disk.placeOf store)) = [] := by
  obtain ⟨n, d', hrun, hwithin, hspill, hgone⟩ := discard_spec hs h rfl hparked.waste
    (scene.disk.nodup_children _) (List.Subset.refl _)
  refine ⟨n, d', ?_, hwithin,
    ⟨hwithin.spill_stays hparked.spill, hwithin.waste_stays hparked.waste, ?_⟩, ?_⟩
  · rw [collectFrom, Act.run_disk_bind,
      Disk.list_of_isDirectory (h.isDirectory_waste hs hparked.waste), placeOf_wasteIn]
    exact hrun
  · have hempty := hparked.empty
    rw [Disk.children_eq_nil] at hempty ⊢
    exact fun name => (hspill _ (List.prefix_append _ _)).trans (hempty name)
  · refine List.eq_nil_iff_forall_not_mem.2 fun name hname => ?_
    exact absurd (hgone name hname).1 (hgone name hname).2

theorem Ground.waste_empty (h : Ground stores d) (hs : store ∈ stores)
    (hw : Within (d.placeOf store) d d') (hdone : d'.children (wasteAt (d.placeOf store)) = [])
    {other : Path} (ho : other ∈ stores) (hold : d.children (wasteAt (d.placeOf other)) = []) :
    d'.children (wasteAt (d.placeOf other)) = [] := by
  by_cases hsame : d.placeOf store = d.placeOf other
  · exact hsame ▸ hdone
  · rw [Disk.children_eq_nil] at hold ⊢
    exact fun name =>
      (h.elsewhere hs ho hsame hw (.inr rfl) (List.prefix_append _ _)).trans (hold name)

theorem collectIn_spec : ∀ {rest : List Path} {scene : Scene}, rest ⊆ stores →
    Ground stores scene.disk →
    (∀ store ∈ stores, Parked scene.disk (scene.disk.placeOf store)) →
    ∃ n d', (collectIn rest).run.run scene = (.ok n, { scene with disk := d' })
      ∧ d'.workplace = scene.disk.workplace ∧ Ground stores d'
      ∧ (∀ store ∈ stores, Parked d' (scene.disk.placeOf store))
      ∧ (∀ store ∈ stores, scene.disk.children (wasteAt (scene.disk.placeOf store)) = [] →
        d'.children (wasteAt (scene.disk.placeOf store)) = [])
      ∧ ∀ store ∈ rest, d'.children (wasteAt (scene.disk.placeOf store)) = []
  | [], scene, _, h, hparked =>
    ⟨0, scene.disk, rfl, rfl, h, hparked, fun _ _ hold => hold, by simp⟩
  | store :: rest, scene, hsub, h, hparked => by
    obtain ⟨hs, hsub⟩ := List.cons_subset.1 hsub
    obtain ⟨n, d₁, hrun₁, hwithin, hparked₁, hempty₁⟩ := collectFrom_spec h hs (hparked store hs)
    have hplace : ∀ p, d₁.placeOf p = scene.disk.placeOf p := Disk.placeOf_congr hwithin.workplace
    have h₁ : Ground stores { scene with disk := d₁ }.disk := h.within hs hwithin
    obtain ⟨n', d₂, hrun₂, hw, hground, hparked₂, hstay, hrest⟩ := collectIn_spec hsub h₁
      fun other ho => by
        rw [hplace]
        exact h.parked hs hwithin hparked₁ ho (hparked other ho)
    simp only [hplace] at hparked₂ hstay hrest
    refine ⟨n + n', d₂, ?_, hw.trans hwithin.workplace, hground, hparked₂, fun other ho hold => ?_,
      List.forall_mem_cons.2 ⟨hstay store hs hempty₁, hrest⟩⟩
    · rw [collectIn_cons, run_bind, hrun₁]
      simp only [run_bind, hrun₂]
      rfl
    · exact hstay other ho (h.waste_empty hs hwithin hempty₁ ho hold)

/-- The directories of all stores are there and empty. -/
def Recovered (stores : List Path) (d : Disk) : Prop :=
  ∀ store ∈ stores, d.list (spillIn store) = .ok [] ∧ d.list (wasteIn store) = .ok []

theorem Ground.collect_spec {s : Spill} (h : Ground s.stores scene.disk)
    (hparked : ∀ store ∈ s.stores, Parked scene.disk (scene.disk.placeOf store)) :
    ∃ t, (do let _ ← s.collect : Act Unit).run.run scene = (.ok (), t)
      ∧ Recovered s.stores t.disk := by
  obtain ⟨n, d', hrun, hw, hground, hparked', -, hempty⟩ :=
    collectIn_spec (List.Subset.refl _) h hparked
  have hplace : ∀ p, d'.placeOf p = scene.disk.placeOf p := Disk.placeOf_congr hw
  refine ⟨{ scene with disk := d' }, ?_, fun store hs => ⟨?_, ?_⟩⟩
  · rw [run_bind, collect, hrun]
    rfl
  · have hspill := hground.isDirectory_spill hs (hplace store ▸ (hparked' store hs).spill)
    rw [Disk.list_of_isDirectory hspill, placeOf_spillIn, hplace, (hparked' store hs).empty]
  · have hwaste := hground.isDirectory_waste hs (hplace store ▸ (hparked' store hs).waste)
    rw [Disk.list_of_isDirectory hwaste, placeOf_wasteIn, hplace, hempty store hs]

/-- `init` succeeds if the waste of all stores yields, and then all are `Recovered`. -/
theorem Ground.init_spec {s : Spill} (h : Ground s.stores scene.disk) :
    ((s.init.run.run scene).1.isOk = true
      ↔ ∀ store ∈ s.stores, WasteYields scene.disk (scene.disk.placeOf store))
    ∧ ((s.init.run.run scene).1.isOk = true →
      Recovered s.stores (s.init.run.run scene).2.disk) := by
  obtain ⟨r, d₁, hrun₁, hiff, hdone⟩ := moveAside_spec (List.Subset.refl _) h
  cases r with
  | error f =>
    rw [init, run_bind, hrun₁]
    exact ⟨hiff, fun hr => by simp at hr⟩
  | ok moved =>
    obtain ⟨hw, hground, -, hparked⟩ := hdone rfl
    have hrest : ∀ t : Scene, t.disk = d₁ → ∃ u, (do let _ ← s.collect : Act Unit).run.run t
        = (.ok (), u) ∧ Recovered s.stores u.disk := by
      rintro t rfl
      refine hground.collect_spec fun store hs => ?_
      rw [Disk.placeOf_congr hw]
      exact hparked store hs
    obtain ⟨t, hend, hrecovered⟩ : ∃ t, s.init.run.run scene = (.ok (), t)
        ∧ Recovered s.stores t.disk := by
      rw [init, run_bind, hrun₁]
      simp only []
      split_ifs
      · exact hrest _ rfl
      · exact hrest _ rfl
    rw [hend]
    exact ⟨iff_of_true rfl (hiff.1 rfl), fun _ => hrecovered⟩

theorem empty_above (htree : d.IsTree) {x k : Place} (hempty : d.children x = []) {e : Entry}
    (he : d.entry? k = some e) (hpre : x <+: k) : k = x := by
  obtain ⟨rest, rfl⟩ := hpre
  cases rest with
  | nil => exact List.append_nil x
  | cons name rest =>
    have hnone := Disk.children_eq_nil.1 hempty name
    rw [List.append_cons] at he
    by_cases hrest : rest = []
    · rw [hrest, List.append_nil, hnone] at he
      exact nomatch he
    · rw [htree.above hrest he] at hnone
      exact nomatch hnone

/-- Where all is recovered, no store leads into a directory of a store. -/
theorem Recovered.apart (htree : d.IsTree) (h : Recovered stores d) (hs : store ∈ stores)
    {other : Path} (ho : other ∈ stores) : Apart d (d.placeOf store) other := by
  obtain ⟨hspill, hwaste⟩ := h store hs
  obtain ⟨-, hspillNil⟩ := Disk.list_ok_iff.1 hspill
  obtain ⟨-, hwasteNil⟩ := Disk.list_ok_iff.1 hwaste
  rw [placeOf_spillIn] at hspillNil
  rw [placeOf_wasteIn] at hwasteNil
  obtain ⟨hr, hdir⟩ := Disk.isDirectory_iff.1 (Disk.list_ok_iff.1 (h other ho).1).1
  rw [placeOf_spillIn] at hdir
  have hstop : ∀ stop ∈ d.way other, d.entry? stop = some .directory := fun stop hstop =>
    hr.way stop (by rw [spillIn, Disk.way_join isName_spill]; exact List.mem_append_left _ hstop)
  refine ⟨fun stop hmem => empty_above htree hspillNil.symm (hstop stop hmem),
    fun stop hmem => empty_above htree hwasteNil.symm (hstop stop hmem),
    fun hpre => ?_, fun hpre => ?_⟩
  · have hsame := empty_above htree hspillNil.symm hdir (hpre.trans (List.prefix_append _ _))
    rw [← hsame] at hpre
    simpa [spillAt] using hpre.length_le
  · have hsame := empty_above htree hwasteNil.symm hdir (hpre.trans (List.prefix_append _ _))
    rw [← hsame] at hpre
    simpa [spillAt] using hpre.length_le

theorem isFile_join (h : d.isDirectory store = true) {name : String} (hname : IsName name)
    (hsize : (store / name).text.utf8ByteSize < Disk.pathEnd) {content : Bytes}
    (he : d.entry? (d.placeOf store ++ [name]) = some (.file content)) :
    d.isFile (store / name) = true := by
  rw [← Disk.placeOf_join hname] at he
  refine Disk.isFile_iff.2 ⟨content, Disk.find_ok_iff.2 ⟨⟨.join h hname hsize, rfl⟩, he, ?_⟩⟩
  simp [Path.endsInSlash_join hname]

theorem isOk_iff {r : Except Failure Unit} : r.isOk = true ↔ r = .ok () := by
  cases r <;> simp

/-- With stores that are directories, and room for paths, `init` comes to its end and leaves the
directories of all stores empty exactly if no store leads into them, and what an earlier start has
set aside makes way for what is to be set aside under the same names. -/
theorem init_recovers_iff (s : Spill) (scene : Scene) (htree : scene.disk.IsTree)
    (hstores : ∀ store ∈ s.stores, scene.disk.isDirectory store = true)
    (hfree : ∀ store ∈ s.stores,
      scene.disk.isFile (spillIn store) = false ∧ scene.disk.isFile (wasteIn store) = false)
    (hfits : ∀ store ∈ s.stores, (wasteIn store).text.utf8ByteSize < Disk.pathEnd
      ∧ ∀ name ∈ left scene.disk (scene.disk.placeOf store),
        (wasteIn store / name).text.utf8ByteSize < Disk.pathEnd) :
    (s.init.run.run scene).1 = .ok () ∧ Recovered s.stores (s.init.run.run scene).2.disk
      ↔ (∀ store ∈ s.stores, ∀ other ∈ s.stores, Apart scene.disk (scene.disk.placeOf store) other)
        ∧ ∀ store ∈ s.stores, WasteYields scene.disk (scene.disk.placeOf store) := by
  have hground : (∀ store ∈ s.stores, ∀ other ∈ s.stores,
      Apart scene.disk (scene.disk.placeOf store) other) → Ground s.stores scene.disk := by
    refine fun hapart => ⟨htree, hstores, fun store hs content he => ?_,
      fun store hs content he => ?_, hfits, hapart⟩
    · have hsize := Nat.lt_trans (size_spillIn store) (hfits store hs).1
      have hfile := isFile_join (hstores store hs) isName_spill hsize he
      exact Bool.noConfusion (hfile.symm.trans (hfree store hs).1)
    · have hfile := isFile_join (hstores store hs) isName_waste (hfits store hs).1 he
      exact Bool.noConfusion (hfile.symm.trans (hfree store hs).2)
  constructor
  · rintro ⟨hok, hrecovered⟩
    have hintact : Disk.Intact scene.disk s.stores ⟨""⟩ scene.disk := Disk.intact_self htree
    obtain ⟨htree', hw, -⟩ := keeps_init s (List.Subset.refl _) scene hintact
    have hapart : ∀ store ∈ s.stores, ∀ other ∈ s.stores,
        Apart scene.disk (scene.disk.placeOf store) other := fun store hs other ho => by
      have hafter := (hrecovered.apart htree' hs ho).congr hw.symm
      rwa [Disk.placeOf_congr hw] at hafter
    exact ⟨hapart, (hground hapart).init_spec.1.1 (isOk_iff.2 hok)⟩
  · rintro ⟨hapart, hyields⟩
    obtain ⟨hiff, hrecovered⟩ := (hground hapart).init_spec
    have hok := hiff.2 hyields
    exact ⟨isOk_iff.1 hok, hrecovered hok⟩

/-- A start was interrupted after `q` was set aside, and the blocks of a query of the same name are
left. -/
def clashingScene : Scene where
  disk := { entries := ⟨[(["a"], .directory), (["a", "spill"], .directory),
    (["a", "spill", "q"], .directory), (["a", "spill", "q", "block_0"], .file [120]),
    (["a", "spill_gc"], .directory), (["a", "spill_gc", "q"], .directory),
    (["a", "spill_gc", "q", "old"], .file [121])], by decide⟩ }

theorem init_clashes : clashingScene.disk.IsTree ∧ clashingScene.disk.isDirectory ⟨"/a"⟩ = true
    ∧ clashingScene.disk.isDirectory (spillIn ⟨"/a"⟩) = true
    ∧ clashingScene.disk.isDirectory (wasteIn ⟨"/a"⟩) = true
    ∧ (({ stores := [⟨"/a"⟩] } : Spill).init.run.run clashingScene).1
      = .error (.io "move /a/spill/q to gc" (.system .directoryNotEmpty)) := by
  decide

/-- Two stores, one of them given twice, with entries of the same names that make way. -/
def yieldingScene : Scene where
  disk := { entries := ⟨[(["a"], .directory), (["a", "spill"], .directory),
    (["a", "spill", "q"], .directory), (["a", "spill", "q", "block_0"], .file [120]),
    (["a", "spill", "f"], .file [121]), (["a", "spill_gc"], .directory),
    (["a", "spill_gc", "q"], .directory), (["a", "spill_gc", "f"], .file [122]),
    (["a", "spill_gc", "old"], .directory), (["a", "spill_gc", "old", "x"], .file [123]),
    (["b"], .directory)], by decide⟩ }

theorem init_recovers_iff_yielding : yieldingScene.disk.IsTree
    ∧ (({ stores := [⟨"/a"⟩, ⟨"/b"⟩, ⟨"/a/."⟩] } : Spill).init.run.run yieldingScene).1 = .ok ()
    ∧ Recovered [⟨"/a"⟩, ⟨"/b"⟩, ⟨"/a/."⟩]
      (({ stores := [⟨"/a"⟩, ⟨"/b"⟩, ⟨"/a/."⟩] } : Spill).init.run.run yieldingScene).2.disk := by
  have htree : yieldingScene.disk.IsTree := by decide
  refine ⟨htree, (init_recovers_iff { stores := [⟨"/a"⟩, ⟨"/b"⟩, ⟨"/a/."⟩] } yieldingScene htree
    ?_ ?_ ?_).2 ⟨?_, ?_⟩⟩
  · decide
  · decide
  · decide
  · decide
  · decide

end Spill

end QueryHost
