import QueryHost.Proofs.SparedFiles

/-!
# The directories for spills

Each store has a directory for spills and one for what is set aside from it. What is done for a
store stays within these two (`Spill.Within`): it moves an entry from the first to the second, or
removes one of the second. As long as no store leads into a directory of a store (`Spill.Ground`),
that is no concern of the stores elsewhere (`Spill.Ground.elsewhere`).
-/

namespace QueryHost

namespace Disk

variable {d d' : Disk} {p : Path}

theorem isDirectory_congr (h : d.isDirectory p = true) (hw : d'.workplace = d.workplace)
    (hkept : ∀ stop ∈ d.way p ++ [d.placeOf p],
      d.entry? stop = some .directory → d'.entry? stop = some .directory) :
    d'.isDirectory p = true := by
  obtain ⟨hr, hdir⟩ := isDirectory_iff.1 h
  refine isDirectory_iff.2 ⟨hr.congr hw fun stop hstop => ?_, ?_⟩
  · exact hkept stop (List.mem_append_left _ hstop)
  · rw [placeOf_congr hw]
    exact hkept _ (List.mem_append_right _ (List.mem_singleton_self _)) hdir

end Disk

namespace Spill

variable {d d' d'' : Disk} {place other : Place} {store : Path} {stores : List Path} {name : String}
  {e : Entry} {k : Place}

def spillAt (place : Place) : Place := place ++ ["spill"]
def wasteAt (place : Place) : Place := place ++ ["spill_gc"]

theorem isName_spill : IsName "spill" := Disk.isName_of_scratch _ (by decide)

theorem isName_waste : IsName "spill_gc" := Disk.isName_of_scratch _ (by decide)

theorem placeOf_spillIn (d : Disk) (store : Path) :
    d.placeOf (spillIn store) = spillAt (d.placeOf store) := Disk.placeOf_join isName_spill

theorem placeOf_wasteIn (d : Disk) (store : Path) :
    d.placeOf (wasteIn store) = wasteAt (d.placeOf store) := Disk.placeOf_join isName_waste

theorem not_waste_of_spill (h : spillAt place <+: k) : ¬wasteAt place <+: k := by
  obtain ⟨rest, rfl⟩ := h
  rintro ⟨rest', h⟩
  simp [spillAt, wasteAt] at h

/-- The names in the two directories of a place. -/
def left (d : Disk) (place : Place) : List String :=
  d.children (spillAt place) ++ d.children (wasteAt place)

theorem mem_left : name ∈ left d place ↔ (∃ e, d.entry? (spillAt place ++ [name]) = some e)
    ∨ ∃ e, d.entry? (wasteAt place ++ [name]) = some e := by
  simp only [left, List.mem_append, Disk.mem_children]

/-- What was set aside before makes way for all that is to be set aside. -/
def WasteYields (d : Disk) (place : Place) : Prop :=
  ∀ name ∈ d.children (spillAt place), ∀ e ∈ d.entry? (spillAt place ++ [name]),
    d.MakesWay (wasteAt place ++ [name]) e

instance : Decidable (WasteYields d place) :=
  inferInstanceAs (Decidable (∀ name ∈ _, ∀ e ∈ _, _))

/-! ## What is done for one store -/

/-- Whatever was done was done within the two directories of a place. -/
structure Within (place : Place) (d d' : Disk) : Prop where
  tree : d'.IsTree
  workplace : d'.workplace = d.workplace
  frame : ∀ k, ¬spillAt place <+: k → ¬wasteAt place <+: k → d'.entry? k = d.entry? k
  spill : d'.entry? (spillAt place) = d.entry? (spillAt place)
    ∨ d'.entry? (spillAt place) = some .directory
  waste : d'.entry? (wasteAt place) = d.entry? (wasteAt place)
    ∨ d'.entry? (wasteAt place) = some .directory
  left : left d' place ⊆ left d place

theorem within_refl (h : d.IsTree) : Within place d d :=
  ⟨h, rfl, fun _ _ _ => rfl, .inl rfl, .inl rfl, List.Subset.refl _⟩

theorem Within.trans (h : Within place d d') (h' : Within place d' d'') : Within place d d'' where
  tree := h'.tree
  workplace := h'.workplace.trans h.workplace
  frame k hspill hwaste := (h'.frame k hspill hwaste).trans (h.frame k hspill hwaste)
  spill := by
    rcases h'.spill with h' | h'
    · rw [h']
      exact h.spill
    · exact .inr h'
  waste := by
    rcases h'.waste with h' | h'
    · rw [h']
      exact h.waste
    · exact .inr h'
  left := List.Subset.trans h'.left h.left

theorem Within.spill_stays (h : Within place d d')
    (hdir : d.entry? (spillAt place) = some .directory) :
    d'.entry? (spillAt place) = some .directory := h.spill.elim (fun h => h.trans hdir) id

theorem Within.waste_stays (h : Within place d d')
    (hdir : d.entry? (wasteAt place) = some .directory) :
    d'.entry? (wasteAt place) = some .directory := h.waste.elim (fun h => h.trans hdir) id

/-- One of the two directories was made. -/
theorem within_made (htree : d.IsTree) (hgrows : d.Grows d') {made : Place}
    (hmade : made = spillAt place ∨ made = wasteAt place)
    (hdir : d'.entry? made = some .directory)
    (hframe : ∀ k, k ≠ made → d'.entry? k = d.entry? k) : Within place d d' := by
  have hchild : ∀ parent, parent = spillAt place ∨ parent = wasteAt place → ∀ name,
      d'.entry? (parent ++ [name]) = d.entry? (parent ++ [name]) := by
    intro parent hparent name
    refine hframe _ fun heq => ?_
    have := congrArg List.length heq
    rcases hmade with rfl | rfl <;> rcases hparent with rfl | rfl <;>
      simp [spillAt, wasteAt] at this
  have hplace : ∀ at', at' = spillAt place ∨ at' = wasteAt place →
      d'.entry? at' = d.entry? at' ∨ d'.entry? at' = some .directory := by
    intro at' _
    by_cases heq : at' = made
    · exact .inr (heq ▸ hdir)
    · exact .inl (hframe _ heq)
  refine ⟨hgrows.tree htree, hgrows.workplace, fun k hspill hwaste => hframe k ?_,
    hplace _ (.inl rfl), hplace _ (.inr rfl), fun name hname => ?_⟩
  · rintro rfl
    exact hmade.elim (fun h => hspill (h ▸ List.prefix_refl _))
      fun h => hwaste (h ▸ List.prefix_refl _)
  · rw [mem_left] at hname ⊢
    rwa [hchild _ (.inl rfl), hchild _ (.inr rfl)] at hname

theorem eq_of_sibling {x : Place} {rest : List String} {other : String}
    (h : x ++ [name] <+: x ++ [other] ++ rest) : other = name := by
  rw [List.append_assoc, List.prefix_append_right_inj, List.singleton_append,
    List.cons_prefix_cons] at h
  exact h.1.symm

/-- Only what is at and below the two entries changes. -/
theorem entry_setAside (hspill : ¬spillAt place ++ [name] <+: k)
    (hwaste : ¬wasteAt place ++ [name] <+: k) :
    Disk.entry? (d.relocate (spillAt place ++ [name]) (wasteAt place ++ [name])) k
      = d.entry? k := by
  rw [Disk.entry_relocate (by simp) (by simp), if_neg hwaste, if_neg hspill]

theorem entry_setAside_sibling (d : Disk) (place : Place) {other : String} (hne : other ≠ name)
    (rest : List String) :
    Disk.entry? (d.relocate (spillAt place ++ [name]) (wasteAt place ++ [name]))
        (spillAt place ++ [other] ++ rest) = d.entry? (spillAt place ++ [other] ++ rest)
      ∧ Disk.entry? (d.relocate (spillAt place ++ [name]) (wasteAt place ++ [name]))
        (wasteAt place ++ [other] ++ rest) = d.entry? (wasteAt place ++ [other] ++ rest) := by
  have hspill : spillAt place <+: spillAt place ++ [other] ++ rest := by
    rw [List.append_assoc]
    exact List.prefix_append _ _
  have hwaste : wasteAt place <+: wasteAt place ++ [other] ++ rest := by
    rw [List.append_assoc]
    exact List.prefix_append _ _
  refine ⟨entry_setAside (mt eq_of_sibling hne) fun h => ?_,
    entry_setAside (fun h => ?_) (mt eq_of_sibling hne)⟩
  · exact not_waste_of_spill hspill ((List.prefix_append _ _).trans h)
  · exact not_waste_of_spill ((List.prefix_append _ _).trans h) hwaste

theorem children_setAside {other : String}
    (h : other ∈ (d.relocate (spillAt place ++ [name]) (wasteAt place ++ [name])).children
      (spillAt place)) : other ∈ d.children (spillAt place) ∧ other ≠ name := by
  have hne : other ≠ name := by
    rintro rfl
    obtain ⟨e, he⟩ := Disk.mem_children.1 h
    rw [Disk.entry_relocate (by simp) (by simp), if_neg fun hpre => ?_, if_pos (List.prefix_refl _)]
      at he
    · exact nomatch he
    · exact not_waste_of_spill (List.prefix_append _ _) ((List.prefix_append _ _).trans hpre)
  have hsame := (entry_setAside_sibling d place hne []).1
  rw [List.append_nil] at hsame
  rw [Disk.mem_children, hsame] at h
  exact ⟨Disk.mem_children.2 h, hne⟩

/-- An entry was set aside. -/
theorem within_setAside (htree : d.IsTree) (hname : IsName name)
    (hdir : d.entry? (wasteAt place) = some .directory)
    (hsource : d.entry? (spillAt place ++ [name]) = some e) :
    Within place d (d.relocate (spillAt place ++ [name]) (wasteAt place ++ [name])) := by
  have hapart : ¬spillAt place ++ [name] <+: wasteAt place ++ [name] := fun h =>
    not_waste_of_spill ((List.prefix_append _ _).trans h) (List.prefix_append _ _)
  have hnotSpill : ∀ {k}, ¬spillAt place <+: k → ¬spillAt place ++ [name] <+: k := fun h h' =>
    h ((List.prefix_append _ _).trans h')
  have hnotWaste : ∀ {k}, ¬wasteAt place <+: k → ¬wasteAt place ++ [name] <+: k := fun h h' =>
    h ((List.prefix_append _ _).trans h')
  have hwaste : ¬wasteAt place <+: spillAt place := not_waste_of_spill (List.prefix_refl _)
  have hspill : ¬spillAt place <+: wasteAt place := fun h =>
    not_waste_of_spill h (List.prefix_refl _)
  refine ⟨htree.relocate (by simp) hname hdir hapart, Disk.workplace_relocate _ _ _,
    fun k hspill hwaste => entry_setAside (hnotSpill hspill) (hnotWaste hwaste), .inl ?_, .inl ?_,
    fun other hother => ?_⟩
  · exact entry_setAside (fun h => by simpa using h.length_le) (hnotWaste hwaste)
  · exact entry_setAside (hnotSpill hspill) fun h => by simpa using h.length_le
  · rw [mem_left] at hother ⊢
    by_cases hsame : other = name
    · exact .inl ⟨e, hsame ▸ hsource⟩
    · obtain ⟨hs, hw⟩ := entry_setAside_sibling d place hsame []
      rw [List.append_nil] at hs hw
      rwa [hs, hw] at hother

/-- An entry that was set aside was removed. -/
theorem within_discard (htree : d.IsTree) : Within place d (d.erase (wasteAt place ++ [name])) := by
  have hne : wasteAt place ++ [name] ≠ [] := by simp
  have hkept : ∀ k, ¬wasteAt place ++ [name] <+: k →
      Disk.entry? (d.erase (wasteAt place ++ [name])) k = d.entry? k := fun k hk => by
    rw [Disk.entry_erase hne, if_neg hk]
  have hspill : ∀ {k}, spillAt place <+: k → ¬wasteAt place ++ [name] <+: k := fun h h' =>
    not_waste_of_spill h ((List.prefix_append _ _).trans h')
  refine ⟨htree.erase hne, rfl, fun k _ hwaste => hkept k fun h => hwaste ?_,
    .inl (hkept _ (hspill (List.prefix_refl _))), .inl (hkept _ fun h => ?_),
    fun other hother => ?_⟩
  · exact (List.prefix_append _ _).trans h
  · simpa using h.length_le
  · rw [mem_left] at hother ⊢
    rw [hkept _ (hspill (List.prefix_append _ _)), Disk.entry_erase hne] at hother
    refine hother.imp_right fun ⟨e, he⟩ => ⟨e, ?_⟩
    split_ifs at he
    exact he

/-! ## The stores together -/

/-- No path of a store leads through an entry of the directories of a place, and none ends in them.
-/
structure Apart (d : Disk) (place : Place) (store : Path) : Prop where
  spill : ∀ stop ∈ d.way store, spillAt place <+: stop → stop = spillAt place
  waste : ∀ stop ∈ d.way store, wasteAt place <+: stop → stop = wasteAt place
  spill_end : ¬spillAt place <+: d.placeOf store
  waste_end : ¬wasteAt place <+: d.placeOf store

instance : Decidable (Apart d place store) :=
  decidable_of_iff ((∀ stop ∈ d.way store, spillAt place <+: stop → stop = spillAt place)
      ∧ (∀ stop ∈ d.way store, wasteAt place <+: stop → stop = wasteAt place)
      ∧ ¬spillAt place <+: d.placeOf store ∧ ¬wasteAt place <+: d.placeOf store)
    ⟨fun ⟨a, b, c, d⟩ => ⟨a, b, c, d⟩, fun ⟨a, b, c, d⟩ => ⟨a, b, c, d⟩⟩

/-- The stores are directories with room for their two directories, whose entries can be named, and
no store leads into those of a store. -/
structure Ground (stores : List Path) (d : Disk) : Prop where
  tree : d.IsTree
  directory : ∀ store ∈ stores, d.isDirectory store = true
  spill_free : ∀ store ∈ stores, ∀ content,
    d.entry? (spillAt (d.placeOf store)) ≠ some (.file content)
  waste_free : ∀ store ∈ stores, ∀ content,
    d.entry? (wasteAt (d.placeOf store)) ≠ some (.file content)
  fits : ∀ store ∈ stores, (wasteIn store).text.utf8ByteSize < Disk.pathEnd
    ∧ ∀ name ∈ left d (d.placeOf store), (wasteIn store / name).text.utf8ByteSize < Disk.pathEnd
  apart : ∀ store ∈ stores, ∀ store' ∈ stores, Apart d (d.placeOf store) store'

theorem Apart.congr (h : Apart d place store) (hw : d'.workplace = d.workplace) :
    Apart d' place store := by
  obtain ⟨hspill, hwaste, hspillEnd, hwasteEnd⟩ := h
  constructor <;> simpa only [Disk.way_congr hw, Disk.placeOf_congr hw]

/-- A store that keeps apart from a place stays a directory, whatever is done for the place. -/
theorem Apart.isDirectory (h : Apart d place store) (hw : Within place d d')
    (hdir : d.isDirectory store = true) : d'.isDirectory store = true := by
  refine Disk.isDirectory_congr hdir hw.workplace fun stop hstop hdir => ?_
  rcases List.mem_append.1 hstop with hstop | hstop
  · by_cases hin : spillAt place <+: stop
    · rw [h.spill stop hstop hin] at hdir ⊢
      exact hw.spill_stays hdir
    · by_cases hin' : wasteAt place <+: stop
      · rw [h.waste stop hstop hin'] at hdir ⊢
        exact hw.waste_stays hdir
      · rw [hw.frame stop hin hin', hdir]
  · obtain rfl := List.mem_singleton.1 hstop
    rw [hw.frame _ h.spill_end h.waste_end, hdir]

section Ground

variable {store' : Path}

/-- The directories of different places have nothing in common. -/
theorem Ground.separate (h : Ground stores d) (hs : store ∈ stores) (hs' : store' ∈ stores)
    (hne : d.placeOf store ≠ d.placeOf store') {x y : Place}
    (hx : x = spillAt (d.placeOf store) ∨ x = wasteAt (d.placeOf store))
    (hy : y = spillAt (d.placeOf store') ∨ y = wasteAt (d.placeOf store')) (hk : y <+: k) :
    ¬x <+: k := by
  have hone : ∀ {a b : Path}, a ∈ stores → b ∈ stores → d.placeOf a ≠ d.placeOf b → ∀ {x y : Place},
      (x = spillAt (d.placeOf a) ∨ x = wasteAt (d.placeOf a)) →
      (y = spillAt (d.placeOf b) ∨ y = wasteAt (d.placeOf b)) → ¬x <+: y := by
    intro a b ha hb hab x y hx hy hpre
    have hend : ¬x <+: d.placeOf b := by
      rcases hx with rfl | rfl
      · exact (h.apart a ha b hb).spill_end
      · exact (h.apart a ha b hb).waste_end
    have hsame : x = y := by
      rcases hy with rfl | rfl <;> exact (List.prefix_concat_iff.1 hpre).resolve_right hend
    refine hab ?_
    rcases hx with rfl | rfl <;> rcases hy with rfl | rfl
    · exact List.append_cancel_right hsame
    · simp [spillAt, wasteAt] at hsame
    · simp [spillAt, wasteAt] at hsame
    · exact List.append_cancel_right hsame
  intro hpre
  rcases List.prefix_or_prefix_of_prefix hpre hk with hpre | hpre
  · exact hone hs hs' hne hx hy hpre
  · exact hone hs' hs hne.symm hy hx hpre

/-- What is done for one store leaves the directories of the other places alone. -/
theorem Ground.elsewhere (h : Ground stores d) (hs : store ∈ stores) (hs' : store' ∈ stores)
    (hne : d.placeOf store ≠ d.placeOf store') (hw : Within (d.placeOf store) d d') {y : Place}
    (hy : y = spillAt (d.placeOf store') ∨ y = wasteAt (d.placeOf store')) (hk : y <+: k) :
    d'.entry? k = d.entry? k :=
  hw.frame k (h.separate hs hs' hne (.inl rfl) hy hk) (h.separate hs hs' hne (.inr rfl) hy hk)

theorem Ground.within (h : Ground stores d) (hs : store ∈ stores)
    (hw : Within (d.placeOf store) d d') : Ground stores d' := by
  have hplace : ∀ p, d'.placeOf p = d.placeOf p := Disk.placeOf_congr hw.workplace
  have hfree : ∀ store' ∈ stores, ∀ y,
      y = spillAt (d.placeOf store') ∨ y = wasteAt (d.placeOf store') →
      d'.entry? y = d.entry? y ∨ d'.entry? y = some .directory := by
    intro store' hs' y hy
    by_cases hsame : d.placeOf store = d.placeOf store'
    · rw [← hsame] at hy
      rcases hy with rfl | rfl
      · exact hw.spill
      · exact hw.waste
    · exact .inl (h.elsewhere hs hs' hsame hw hy (List.prefix_refl _))
  refine ⟨hw.tree, fun store' hs' => ?_, fun store' hs' content => ?_, fun store' hs' content => ?_,
    fun store' hs' => ⟨(h.fits store' hs').1, fun name hname => ?_⟩, fun a ha b hb => ?_⟩
  · exact (h.apart store hs store' hs').isDirectory hw (h.directory store' hs')
  · rw [hplace]
    rcases hfree store' hs' _ (.inl rfl) with hy | hy <;> rw [hy]
    · exact h.spill_free store' hs' content
    · simp
  · rw [hplace]
    rcases hfree store' hs' _ (.inr rfl) with hy | hy <;> rw [hy]
    · exact h.waste_free store' hs' content
    · simp
  · refine (h.fits store' hs').2 name ?_
    rw [hplace] at hname
    by_cases hsame : d.placeOf store = d.placeOf store'
    · exact hsame ▸ hw.left (hsame ▸ hname)
    · rw [mem_left] at hname ⊢
      rwa [h.elsewhere hs hs' hsame hw (.inl rfl) (List.prefix_append _ _),
        h.elsewhere hs hs' hsame hw (.inr rfl) (List.prefix_append _ _)] at hname
  · rw [hplace]
    exact (h.apart a ha b hb).congr hw.workplace

end Ground

end Spill

end QueryHost
