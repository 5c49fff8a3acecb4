import QueryHost.Proofs.AssocRows
import QueryHost.Proofs.DiskPaths

/-!
# Trees of entries

On a disk every entry lies in a directory and has a proper name (`Disk.IsTree`). What each
operation does to the entries is known by `entry?`: a put changes one place, an erasure empties all
places below one, and a relocation does so with two and fills one from the other
(`Disk.entry_relocate`). All of them lead from trees to trees.
-/

namespace QueryHost

namespace Disk

variable {d d' d'' : Disk} {place parent source target k : Place} {name : String} {e : Entry}

/-- Every entry has a proper name and lies in a directory. -/
def IsTree (d : Disk) : Prop :=
  ∀ place ∈ d.entries.keys,
    place ≠ [] ∧ (∀ name ∈ place, IsName name) ∧ d.entry? place.dropLast = some .directory

instance : Decidable d.IsTree := inferInstanceAs (Decidable (∀ _ ∈ _, _))

@[simp] theorem entry_nil (d : Disk) : d.entry? [] = some .directory := rfl

theorem entry_of_ne_nil (h : place ≠ []) : d.entry? place = d.entries.get? place := if_neg h

theorem entry_concat : d.entry? (place ++ [name]) = d.entries.get? (place ++ [name]) :=
  entry_of_ne_nil (by simp)

theorem mem_keys_iff : place ∈ d.entries.keys ↔ ∃ e, d.entries.get? place = some e := by
  rw [← Option.isSome_iff_exists, Option.isSome_iff_ne_none, ne_eq, Assoc.get?_eq_none_iff, not_not]
  rfl

/-! ## What the operations do to the entries -/

theorem get?_put (d : Disk) (place : Place) (e : Entry) (k : Place) :
    (d.put place e).entries.get? k = if k = place then some e else d.entries.get? k :=
  Assoc.get?_put _ _ _ _

theorem get?_erase (d : Disk) (place k : Place) :
    (d.erase place).entries.get? k = if place <+: k then none else d.entries.get? k := by
  refine (Assoc.get?_filter_key d.entries (fun k => !place.isPrefixOf k) k).trans ?_
  by_cases h : place <+: k
  · simp [h]
  · simp [h]

theorem get?_foldl_put (f : Place → Place) : ∀ (l : List (Place × Entry)) (d : Disk) (k : Place),
    (l.foldl (fun d e => d.put (f e.1) e.2) d).entries.get? k
      = ((l.reverse.find? fun e => f e.1 = k).map (·.2)).or (d.entries.get? k)
  | [], d, k => by simp
  | a :: l, d, k => by
    rw [List.foldl_cons, get?_foldl_put f l, get?_put, List.reverse_cons, List.find?_append]
    cases l.reverse.find? fun e => f e.1 = k with
    | some e => rfl
    | none =>
      by_cases h : f a.1 = k
      · simp [h]
      · simp [h, Ne.symm h]

/-- What is at a place after a tree was moved: both places are emptied first. -/
theorem get?_relocate (d : Disk) (source target k : Place) :
    (d.relocate source target).entries.get? k
      = if target <+: k then d.entries.get? (source ++ k.drop target.length)
        else if source <+: k then none else d.entries.get? k := by
  refine (get?_foldl_put (fun place => target ++ place.drop source.length) _ _ k).trans ?_
  rw [get?_erase, get?_erase]
  have hkey : ∀ e ∈ (d.entries.toList.filter fun e => source.isPrefixOf e.1).reverse,
      e ∈ d.entries.toList ∧ ∃ rest, e.1 = source ++ rest := by
    intro e he
    simp only [List.mem_reverse, List.mem_filter, List.isPrefixOf_iff_prefix] at he
    obtain ⟨he, rest, hrest⟩ := he
    exact ⟨he, rest, hrest.symm⟩
  generalize hl : (d.entries.toList.filter fun e => source.isPrefixOf e.1).reverse = l at hkey
  cases hfind : l.find? fun e => target ++ e.1.drop source.length = k with
  | some e =>
    obtain ⟨he, rest, hrest⟩ := hkey e (List.mem_of_find?_eq_some hfind)
    have hk : target ++ rest = k := by simpa [hrest] using List.find?_some hfind
    subst hk
    have hmem : (source ++ rest, e.2) ∈ d.entries.toList := hrest ▸ he
    simp [(Assoc.mem_toList_iff _ _ _).1 hmem]
  | none =>
    split_ifs with ht hs <;> try rfl
    obtain ⟨rest, rfl⟩ := ht
    have hnone : d.entries.get? (source ++ rest) = none := by
      by_contra hsome
      obtain ⟨e, he⟩ := Option.ne_none_iff_exists'.1 hsome
      have hmem : (source ++ rest, e) ∈ l := by
        rw [← hl]
        simp [(Assoc.mem_toList_iff _ _ _).2 he]
      exact absurd (List.find?_eq_none.1 hfind _ hmem) (by simp)
    simp [hnone]

theorem entry_put (h : place ≠ []) (e : Entry) (k : Place) :
    entry? (d.put place e) k = if k = place then some e else d.entry? k := by
  unfold entry?
  rw [get?_put]
  by_cases hk : k = []
  · simp [hk, Ne.symm h]
  · simp [hk]

theorem entry_erase (h : place ≠ []) (k : Place) :
    entry? (d.erase place) k = if place <+: k then none else d.entry? k := by
  unfold entry?
  rw [get?_erase]
  by_cases hk : k = []
  · simp [hk, h]
  · simp [hk]

theorem entry_relocate (hs : source ≠ []) (ht : target ≠ []) (k : Place) :
    entry? (d.relocate source target) k
      = if target <+: k then d.entry? (source ++ k.drop target.length)
        else if source <+: k then none else d.entry? k := by
  unfold entry?
  rw [get?_relocate]
  by_cases hk : k = []
  · simp [hk, hs, ht]
  · simp [hk, hs]

theorem entry_relocate_append (hs : source ≠ []) (ht : target ≠ []) (rest : List String) :
    entry? (d.relocate source target) (target ++ rest) = d.entry? (source ++ rest) := by
  rw [entry_relocate hs ht, if_pos (List.prefix_append _ _), List.drop_left]

theorem workplace_relocate (d : Disk) (source target : Place) :
    (d.relocate source target).workplace = d.workplace := by
  have hfold : ∀ (l : List (Place × Entry)) (f : Place → Place) (d : Disk),
      (l.foldl (fun d e => d.put (f e.1) e.2) d).workplace = d.workplace := by
    intro l f
    induction l with
    | nil => exact fun _ => rfl
    | cons a l ih => exact fun d => ih _
  exact hfold _ (fun place => target ++ place.drop source.length) _

/-! ## Trees -/

theorem IsTree.get?_nil (h : d.IsTree) : d.entries.get? [] = none := by
  by_contra hsome
  obtain ⟨e, he⟩ := Option.ne_none_iff_exists'.1 hsome
  exact (h [] (mem_keys_iff.2 ⟨e, he⟩)).1 rfl

theorem IsTree.of_concat (h : d.IsTree) (he : d.entry? (place ++ [name]) = some e) :
    IsName name ∧ d.entry? place = some .directory := by
  obtain ⟨-, hnames, hdir⟩ := h _ (mem_keys_iff.2 ⟨e, entry_concat.symm.trans he⟩)
  exact ⟨hnames name (by simp), by simpa using hdir⟩

/-- A disk is a tree if every entry is in a directory, under a name that can be one. -/
theorem isTree_iff : d.IsTree ↔ d.entries.get? [] = none ∧ ∀ place name e,
    d.entry? (place ++ [name]) = some e → IsName name ∧ d.entry? place = some .directory := by
  refine ⟨fun h => ⟨h.get?_nil, fun _ _ _ => h.of_concat⟩, fun ⟨hnil, h⟩ => ?_⟩
  have hnames : ∀ (place : Place) e, d.entry? place = some e → ∀ name ∈ place, IsName name := by
    intro place
    induction place using List.reverseRecOn with
    | nil => simp
    | append_singleton place last ih =>
      intro e he name hname
      obtain ⟨hlast, hdir⟩ := h place last e he
      rcases List.mem_append.1 hname with hname | hname
      · exact ih _ hdir name hname
      · exact List.mem_singleton.1 hname ▸ hlast
  intro place hplace
  obtain ⟨e, he⟩ := mem_keys_iff.1 hplace
  rcases List.eq_nil_or_concat place with rfl | ⟨place, name, rfl⟩
  · rw [hnil] at he
    exact nomatch he
  · rw [List.concat_eq_append, ← entry_concat] at he
    rw [List.concat_eq_append]
    exact ⟨by simp, hnames _ e he, by simpa using (h place name e he).2⟩

/-- What lies above an entry is a directory. -/
theorem IsTree.above (h : d.IsTree) : ∀ {rest : List String}, rest ≠ [] →
    d.entry? (place ++ rest) = some e → d.entry? place = some .directory := by
  intro rest
  induction rest using List.reverseRecOn generalizing e with
  | nil => exact fun hne _ => absurd rfl hne
  | append_singleton rest last ih =>
    intro _ he
    rw [← List.append_assoc] at he
    have hdir := (h.of_concat he).2
    by_cases hrest : rest = []
    · simpa [hrest] using hdir
    · exact ih hrest hdir

/-- What lies below something that is no directory is nothing. -/
theorem IsTree.below (h : d.IsTree) (hdir : d.entry? place ≠ some .directory) (hk : place <+: k)
    (hne : k ≠ place) : d.entry? k = none := by
  obtain ⟨rest, rfl⟩ := hk
  by_contra hsome
  obtain ⟨e, he⟩ := Option.ne_none_iff_exists'.1 hsome
  exact hdir (h.above (by simpa using hne) he)

/-- To put an entry into a directory keeps a tree, unless it takes the place of a directory. -/
theorem IsTree.put (h : d.IsTree) (hname : IsName name) (hdir : d.entry? place = some .directory)
    (he : e = .directory ∨ d.entry? (place ++ [name]) ≠ some .directory) :
    (d.put (place ++ [name]) e).IsTree := by
  refine isTree_iff.2 ⟨?_, fun place' name' e' he' => ?_⟩
  · rw [get?_put, if_neg (by simp), h.get?_nil]
  · have hne : place ++ [name] ≠ [] := by simp
    rw [entry_put hne] at he'
    rw [entry_put hne]
    split_ifs at he' with hsame
    · obtain ⟨rfl, rfl⟩ : place' = place ∧ name' = name := by simpa using hsame
      exact ⟨hname, by simpa using hdir⟩
    · obtain ⟨hname', hdir'⟩ := h.of_concat he'
      refine ⟨hname', ?_⟩
      split_ifs with hparent
      · rw [hparent] at hdir'
        rw [he.resolve_right (not_not.2 hdir')]
      · exact hdir'

theorem IsTree.erase (h : d.IsTree) (hne : place ≠ []) : (d.erase place).IsTree := by
  refine isTree_iff.2 ⟨?_, fun place' name' e' he' => ?_⟩
  · rw [get?_erase, h.get?_nil, ite_self]
  · rw [entry_erase hne] at he'
    split_ifs at he' with hpre
    obtain ⟨hname', hdir'⟩ := h.of_concat he'
    refine ⟨hname', ?_⟩
    rw [entry_erase hne, if_neg fun hpre' => hpre (hpre'.trans (List.prefix_append _ _))]
    exact hdir'

/-- To move an entry into a directory that is not below it keeps a tree. -/
theorem IsTree.relocate (h : d.IsTree) (hs : source ≠ []) (hname : IsName name)
    (hdir : d.entry? parent = some .directory) (hapart : ¬source <+: parent ++ [name]) :
    (d.relocate source (parent ++ [name])).IsTree := by
  have ht : parent ++ [name] ≠ [] := by simp
  refine isTree_iff.2 ⟨?_, fun place' name' e' he' => ?_⟩
  · rw [get?_relocate, if_neg (by simp), h.get?_nil, ite_self]
  by_cases hbelow : parent ++ [name] <+: place'
  · obtain ⟨rest, rfl⟩ := hbelow
    rw [List.append_assoc, entry_relocate_append hs ht, ← List.append_assoc] at he'
    rw [entry_relocate_append hs ht]
    exact h.of_concat he'
  · rw [entry_relocate hs ht, if_neg hbelow]
    by_cases hsame : parent ++ [name] = place' ++ [name']
    · obtain ⟨rfl, rfl⟩ : parent = place' ∧ name = name' := by simpa using hsame
      refine ⟨hname, ?_⟩
      rw [if_neg fun hpre => hapart (hpre.trans (List.prefix_append _ _)), hdir]
    · have htarget : ¬parent ++ [name] <+: place' ++ [name'] := fun hpre =>
        (List.prefix_concat_iff.1 hpre).elim hsame hbelow
      rw [entry_relocate hs ht, if_neg htarget] at he'
      split_ifs at he' with hsource
      obtain ⟨hname', hdir'⟩ := h.of_concat he'
      refine ⟨hname', ?_⟩
      rw [if_neg fun hpre => hsource (hpre.trans (List.prefix_append _ _)), hdir']

end Disk

end QueryHost
