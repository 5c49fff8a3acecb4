import QueryHost.Proofs.DiskActs
import QueryHost.Proofs.DiskPaths

/-!
# Where scratch paths lie

Without its `.` and `..`, a path is a list of names below the root, or below a directory so many
levels above the one of the process (`Path.landing`). A joined path lands where its right side leads
from where its left side lands (`Path.landing_join`).

Temporary files, spilled blocks and loads get paths that are made of the scratch directory of a
store and a text of the caller (`ScratchPath.eq_join`), and nothing is asked of the text. So a text
that leads down gives a path in the directory, one that is an absolute path or climbs may lead
anywhere, and where it leads is known exactly (`ScratchPath.within_iff`). The texts that lead down
are all that stay inside whatever the stores are (`Path.within_everywhere_iff`).
-/

namespace QueryHost

/-! ## Landings -/

/-- Where the names of a path begin. -/
inductive Origin where
  | root
  /-- So many levels above the directory that relative paths start from. -/
  | above (levels : Nat)
  deriving DecidableEq, Repr

/-- Nothing lies above the root. -/
def Origin.climb : Origin → Nat → Origin
  | root, _ => root
  | above m, n => above (m + n)

/-- A path without `.` and `..`. -/
structure Landing where
  origin : Origin
  names : List String
  deriving DecidableEq, Repr

namespace Landing

variable {l base part : Landing} {name : String} {levels : Nat}

/-- The directory so many levels above. -/
def up (l : Landing) (levels : Nat) : Landing where
  origin := l.origin.climb (levels - l.names.length)
  names := l.names.take (l.names.length - levels)

def down (l : Landing) (names : List String) : Landing := { l with names := l.names ++ names }

/-- Where one name of a path leads. -/
def next (l : Landing) (name : String) : Landing :=
  if name = "." then l else if name = ".." then l.up 1 else l.down [name]

/-- Where a path leads from a directory. -/
def follow (base part : Landing) : Landing :=
  match part.origin with
  | .root => part
  | .above levels => (base.up levels).down part.names

/-- The path lies strictly below the other one. -/
def IsBelow (l base : Landing) : Prop :=
  l.origin = base.origin ∧ base.names <+: l.names ∧ l.names ≠ base.names

instance : Decidable (l.IsBelow base) := inferInstanceAs (Decidable (_ ∧ _))

theorem follow_above (h : part.origin = .above levels) :
    base.follow part = (base.up levels).down part.names := by
  rw [follow, h]

theorem follow_root (h : part.origin = .root) : base.follow part = part := by
  rw [follow, h]

/-! ### Up and down -/

@[simp] theorem climb_zero (o : Origin) : o.climb 0 = o := by cases o <;> rfl

theorem climb_climb (o : Origin) (m n : Nat) : (o.climb m).climb n = o.climb (m + n) := by
  cases o with
  | root => rfl
  | above k => simp [Origin.climb, Nat.add_assoc]

@[simp] theorem up_zero (l : Landing) : l.up 0 = l := by simp [up]

@[simp] theorem down_nil (l : Landing) : l.down [] = l := by simp [down]

theorem down_down (l : Landing) (names rest : List String) :
    (l.down names).down rest = l.down (names ++ rest) := by
  simp [down]

theorem up_up (l : Landing) (m n : Nat) : (l.up m).up n = l.up (m + n) := by
  simp only [up, List.length_take, List.take_take, climb_climb, Landing.mk.injEq]
  constructor
  · congr 1
    omega
  · congr 1
    omega

theorem up_one (h : l.names ≠ []) : l.up 1 = { l with names := l.names.dropLast } := by
  have hpos := List.length_pos_iff.2 h
  simp only [up, List.dropLast_eq_take, Nat.sub_eq_zero_of_le hpos, climb_zero]

/-- Going up takes back what was gone down. -/
theorem up_down {names : List String} (h : names ≠ []) (l : Landing) :
    (l.down names).up 1 = l.down names.dropLast := by
  rw [up_one (by simp [down, h]), down, down, List.dropLast_append_of_ne_nil h]

/-! ### Where names lead -/

theorem next_above (l : Landing) : l.next ".." = l.up 1 := rfl

theorem next_name (hself : name ≠ ".") (habove : name ≠ "..") (l : Landing) :
    l.next name = l.down [name] := by
  rw [next, if_neg hself, if_neg habove]

theorem next_root (h : l.origin = .root) (name : String) : (l.next name).origin = .root := by
  unfold next
  split_ifs <;> simp [up, down, h, Origin.climb]

/-- One name more leads one step further. -/
theorem follow_next (base : Landing) (h : part.origin = .above levels) (name : String) :
    ∃ levels', (part.next name).origin = .above levels'
      ∧ base.follow (part.next name) = (base.follow part).next name := by
  rcases eq_or_ne name "." with rfl | hself
  · exact ⟨levels, h, rfl⟩
  rcases eq_or_ne name ".." with rfl | habove
  · rw [next_above, next_above, follow_above h]
    by_cases hpart : part.names = []
    · have hup : (part.up 1).origin = .above (levels + 1) := by simp [up, hpart, h, Origin.climb]
      have hnames : (part.up 1).names = [] := by simp [up, hpart]
      refine ⟨levels + 1, hup, ?_⟩
      rw [follow_above hup, hnames, hpart, down_nil, down_nil, up_up]
    · have hup : (part.up 1).origin = .above levels := by rw [up_one hpart, h]
      refine ⟨levels, hup, ?_⟩
      rw [follow_above hup, up_down hpart, up_one hpart]
  · rw [next_name hself habove, next_name hself habove]
    have hdown : (part.down [name]).origin = .above levels := h
    refine ⟨levels, hdown, ?_⟩
    rw [follow_above hdown, follow_above h, down_down]
    rfl

theorem foldl_next (base : Landing) (names : List String) :
    ∃ levels, (names.foldl next ⟨.above 0, []⟩).origin = .above levels
      ∧ names.foldl next base = base.follow (names.foldl next ⟨.above 0, []⟩) := by
  induction names using List.reverseRecOn with
  | nil => exact ⟨0, rfl, by simp [follow]⟩
  | append_singleton names last ih =>
    obtain ⟨levels, horigin, hfold⟩ := ih
    obtain ⟨levels', horigin', hfollow⟩ := follow_next base horigin last
    refine ⟨levels', ?_, ?_⟩
    · rw [List.foldl_concat, horigin']
    · rw [List.foldl_concat, List.foldl_concat, hfollow, hfold]

theorem foldl_next_root (names : List String) : ∀ {l : Landing}, l.origin = .root →
    (names.foldl next l).origin = .root := by
  induction names with
  | nil => exact id
  | cons name names ih => exact fun h => ih (next_root h name)

/-- A text stays below the directory that it starts from if it takes back by name what it has
climbed, and names something more. -/
theorem follow_isBelow_iff (h : part.origin = .above levels) : (base.follow part).IsBelow base
    ↔ (base.origin = .root ∨ levels ≤ base.names.length)
      ∧ base.names.drop (base.names.length - levels) <+: part.names
      ∧ part.names ≠ base.names.drop (base.names.length - levels) := by
  have horigin : base.origin.climb (levels - base.names.length) = base.origin
      ↔ base.origin = .root ∨ levels ≤ base.names.length := by
    cases base.origin with
    | root => simp [Origin.climb]
    | above k => simp [Origin.climb, Nat.sub_eq_zero_iff_le]
  have hsplit := List.take_append_drop (base.names.length - levels) base.names
  rw [follow_above h]
  simp only [IsBelow, up, down, horigin]
  refine and_congr_right fun _ => ?_
  generalize base.names.take (base.names.length - levels) = kept at hsplit ⊢
  generalize base.names.drop (base.names.length - levels) = lost at hsplit ⊢
  rw [← hsplit, List.prefix_append_right_inj, Ne, List.append_right_inj]

end Landing

namespace Path

variable {p : Path} {name part : String}

/-- Where a path lies, by its names alone. -/
def landing (p : Path) : Landing :=
  p.names.foldl Landing.next ⟨if p.isAbsolute then .root else .above 0, []⟩

theorem landing_absolute (h : p.isAbsolute = true) : p.landing.origin = .root := by
  rw [landing, h]
  exact Landing.foldl_next_root _ rfl

theorem landing_relative (h : p.isAbsolute = false) :
    p.landing = p.names.foldl Landing.next ⟨.above 0, []⟩ := by
  rw [landing, h]
  rfl

theorem join_absolute (h : (Path.mk part).isAbsolute = true) : p / part = ⟨part⟩ := if_pos h

theorem landing_join (p : Path) (part : String) :
    (p / part).landing = p.landing.follow (Path.mk part).landing := by
  cases h : (Path.mk part).isAbsolute with
  | true => rw [join_absolute h, Landing.follow_root (landing_absolute h)]
  | false =>
    obtain ⟨levels, -, hfold⟩ := Landing.foldl_next p.landing (Path.mk part).names
    rw [landing_relative h, ← hfold, landing, names_join_relative h, isAbsolute_join_relative h,
      List.foldl_append]
    rfl

theorem landing_plain (hslash : '/' ∉ part.toList) (hne : part ≠ "") (hself : part ≠ ".")
    (habove : part ≠ "..") : (Path.mk part).landing = ⟨.above 0, [part]⟩ := by
  rw [landing_relative (isAbsolute_of_no_slash hslash), names_of_no_slash hslash hne]
  exact Landing.next_name hself habove _

theorem landing_name (h : IsName name) : (Path.mk name).landing = ⟨.above 0, [name]⟩ :=
  landing_plain h.no_slash h.ne_empty h.ne_self h.ne_above

theorem landing_join_name (h : IsName name) : (p / name).landing = p.landing.down [name] := by
  rw [landing_join, landing_name h, Landing.follow_above rfl, Landing.up_zero]

/-- What comes between a path and a text that is joined to it. -/
def separator (p : Path) : String := if p.text = "" ∨ p.endsInSlash then "" else "/"

theorem text_join_separator (h : (Path.mk part).isAbsolute = false) :
    (p / part).text = p.text ++ p.separator ++ part := by
  rw [text_join_relative h, separator]
  split_ifs <;> simp

theorem separator_join (h : (Path.mk part).isAbsolute = false) :
    (p / part).separator = (Path.mk part).separator := by
  have htext := text_join_separator (p := p) h
  by_cases hpart : part = ""
  · subst hpart
    have hends : (p / "").text = "" ∨ (p / "").endsInSlash := by
      by_cases hp : p.text = "" ∨ p.endsInSlash
      · have hsame : (p / "").text = p.text := by
          rw [htext, separator, if_pos hp, String.append_empty, String.append_empty]
        rwa [endsInSlash, hsame]
      · right
        rw [endsInSlash, htext, separator, if_neg hp, String.append_empty, String.toList_append]
        simp
    rw [separator, if_pos hends]
    rfl
  · have hend : (p / part).endsInSlash = (Path.mk part).endsInSlash := by
      have hne : part.toList ≠ [] := by simpa using hpart
      rw [endsInSlash, htext, String.toList_append, List.getLast?_append_of_ne_nil _ hne]
      rfl
    have hne : (p / part).text ≠ "" := by
      rw [htext]
      simp [hpart]
    simp [separator, hend, hne, hpart]

/-- Two texts are joined to a path as if they were joined before. -/
theorem join_join (p : Path) (a b : String) : p / a / b = p / (Path.mk a / b).text := by
  cases hb : (Path.mk b).isAbsolute with
  | true =>
    rw [join_absolute hb, join_absolute hb]
    exact (join_absolute hb).symm
  | false =>
    have hab := isAbsolute_join_relative (p := ⟨a⟩) hb
    cases ha : (Path.mk a).isAbsolute with
    | true =>
      rw [join_absolute ha]
      exact (join_absolute (hab.trans ha)).symm
    | false =>
      have hbefore : (Path.mk (Path.mk a / b).text).isAbsolute = false := hab.trans ha
      have htext : (p / a / b).text = (p / (Path.mk a / b).text).text := by
        rw [text_join_separator hb, text_join_separator hbefore, text_join_separator hb,
          text_join_separator ha, separator_join ha]
        simp only [String.append_assoc]
      exact congrArg Path.mk htext

end Path

/-! ## Paths that are given -/

/-- The managers of temporary files that calls lead to. One that could not be made ready stays as it
was. -/
inductive TmpFiles.Reachable (stores : List Path) : TmpFiles → Prop
  | new : Reachable stores { stores }
  | init {t : TmpFiles} {scene scene' : Scene} {r : Except Failure TmpFiles}
      (h : Reachable stores t) (hrun : t.init.run.run scene = (r, scene')) :
      Reachable stores (r.toOption.getD t)
  | newPath {t : TmpFiles} (h : Reachable stores t) (owner : String) :
      Reachable stores (t.newPath owner).1

/-- The paths in the scratch directories `sub` of stores that are given for a text of the caller. -/
inductive ScratchPath (stores : List Path) : (sub : String) → (part : String) → Path → Prop
  | file {t : TmpFiles} {owner : String} {p : Path} (ht : TmpFiles.Reachable stores t)
      (h : (t.newPath owner).2 = .ok p) :
      ScratchPath stores "tmp" (owner ++ "_" ++ toString t.turn) p
  | spill {s : Spill} {query : String} {p : Path} (hs : s.stores = stores)
      (h : (s.nextDirectory query).2 = .ok p) : ScratchPath stores "spill" query p
  | load {l : LoadPaths} {database label : String} {scene scene' : Scene} {p : Path}
      (hl : l.stores = stores)
      (h : (l.allocate database label).2.run.run scene = (.ok p, scene')) :
      ScratchPath stores "mini_download" (Path.mk database / label).text p

namespace TmpFiles

variable {stores : List Path} {t t' : TmpFiles} {scene scene' : Scene} {directory : Path}

theorem resetAll_mem : ∀ {stores usable : List Path} {scene scene' : Scene},
    (resetAll stores).run.run scene = (.ok usable, scene') →
      ∀ directory ∈ usable, ∃ store ∈ stores, directory = store / "tmp"
  | [], usable, scene, scene', hrun => by
    obtain ⟨hr, -⟩ := Prod.mk.inj hrun
    obtain rfl := Except.ok.inj hr
    simp
  | store :: rest, usable, scene, scene', hrun => by
    have hrest : ∀ {usable : List Path} {scene scene' : Scene},
        (resetAll rest).run.run scene = (.ok usable, scene') →
          ∀ directory ∈ usable, ∃ store' ∈ store :: rest, directory = store' / "tmp" := by
      intro usable scene scene' hrun directory hmem
      obtain ⟨store', hstore, heq⟩ := resetAll_mem hrun directory hmem
      exact ⟨store', List.mem_cons_of_mem _ hstore, heq⟩
    rw [resetAll, run_bind, Act.run_attempt] at hrun
    simp only [] at hrun
    split at hrun
    · rw [run_bind] at hrun
      cases htail : (resetAll rest).run.run
          { scene with disk := (reset scene.disk (store / "tmp")).1 } with
      | mk r after =>
        rw [htail] at hrun
        cases r with
        | error e => cases (Prod.mk.inj hrun).1
        | ok tail =>
          obtain ⟨hr, -⟩ := Prod.mk.inj hrun
          obtain rfl := Except.ok.inj hr
          refine List.forall_mem_cons.2 ⟨⟨store, List.mem_cons_self, rfl⟩, hrest htail⟩
    · rw [Act.warn, Act.run_report_bind] at hrun
      exact hrest hrun

/-- The directories that could be reset are all that changes. -/
theorem init_eq (hrun : t.init.run.run scene = (.ok t', scene')) : ∃ usable after,
    (resetAll t.stores).run.run scene = (.ok usable, after)
      ∧ t' = { t with directories := usable } := by
  rw [init, run_bind] at hrun
  cases hreset : (resetAll t.stores).run.run scene with
  | mk r after =>
    rw [hreset] at hrun
    cases r with
    | error e => cases (Prod.mk.inj hrun).1
    | ok usable =>
      simp only [] at hrun
      split at hrun
      · cases (Prod.mk.inj hrun).1
      · obtain ⟨hr, -⟩ := Prod.mk.inj hrun
        exact ⟨usable, after, rfl, (Except.ok.inj hr).symm⟩

theorem init_directories (hrun : t.init.run.run scene = (.ok t', scene')) :
    t'.stores = t.stores
      ∧ ∀ directory ∈ t'.directories, ∃ store ∈ t.stores, directory = store / "tmp" := by
  obtain ⟨usable, after, hreset, rfl⟩ := init_eq hrun
  exact ⟨rfl, resetAll_mem hreset⟩

theorem Reachable.directories (h : Reachable stores t) : t.stores = stores
    ∧ ∀ directory ∈ t.directories, ∃ store ∈ stores, directory = store / "tmp" := by
  induction h with
  | new => exact ⟨rfl, by simp⟩
  | @init t scene scene' r _ hrun ih =>
    cases r with
    | error e => exact ih
    | ok t' =>
      obtain ⟨hstores, hdirectories⟩ := init_directories hrun
      rw [ih.1] at hstores hdirectories
      exact ⟨hstores, hdirectories⟩
  | @newPath t _ owner ih =>
    unfold TmpFiles.newPath
    split
    · exact ih
    · exact ih

end TmpFiles

/-- Scratch paths are made of a store, its directory and the caller's text. -/
theorem ScratchPath.eq_join {stores : List Path} {sub part : String} {p : Path}
    (h : ScratchPath stores sub part p) : ∃ store ∈ stores, p = store / sub / part := by
  cases h with
  | @file t owner p ht h =>
    unfold TmpFiles.newPath at h
    split at h
    · cases h
    · rename_i directory hturn
      obtain ⟨store, hstore, rfl⟩ := ht.directories.2 directory (List.mem_of_getElem? hturn)
      exact ⟨store, hstore, (Except.ok.inj h).symm⟩
  | @spill s query p hs h =>
    unfold Spill.nextDirectory at h
    split at h
    · cases h
    · rename_i store hturn
      exact ⟨store, hs ▸ List.mem_of_getElem? hturn, (Except.ok.inj h).symm⟩
  | @load l database label scene scene' p hl h =>
    unfold LoadPaths.allocate at h
    split at h
    · cases h
    · rename_i store hturn
      rw [run_bind] at h
      cases hmade : (LoadPaths.create (LoadPaths.rootIn store / database / label)).run.run
          scene with
      | mk r after =>
        rw [hmade] at h
        cases r with
        | error e => cases (Prod.mk.inj h).1
        | ok made =>
          obtain rfl := Except.ok.inj (Prod.mk.inj h).1
          exact ⟨store, hl ▸ List.mem_of_getElem? hturn, Path.join_join _ _ _⟩

/-! ## What stays inside -/

namespace Path

variable {p store : Path} {stores : List Path} {sub part : String} {levels : Nat}

/-- The path lies strictly below a directory `sub` of one of the stores. -/
def Within (stores : List Path) (sub : String) (p : Path) : Prop :=
  ∃ store ∈ stores, p.landing.IsBelow (store / sub).landing

instance : Decidable (p.Within stores sub) := inferInstanceAs (Decidable (∃ _ ∈ _, _))

theorem isBelow_join_iff (hsub : IsName sub) (h : (Path.mk part).landing.origin = .above levels) :
    (store / sub / part).landing.IsBelow (store / sub).landing
      ↔ (store.landing.origin = .root ∨ levels ≤ store.landing.names.length + 1)
        ∧ (store.landing.names ++ [sub]).drop (store.landing.names.length + 1 - levels)
          <+: (Path.mk part).landing.names
        ∧ (Path.mk part).landing.names
          ≠ (store.landing.names ++ [sub]).drop (store.landing.names.length + 1 - levels) := by
  rw [landing_join _ part, landing_join_name hsub, Landing.follow_isBelow_iff h]
  simp only [Landing.down, List.length_append, List.length_singleton]

/-- A text that leads further down, or only leaves the directory to come back by its name. -/
def LeadsDown (sub part : String) : Prop :=
  ((Path.mk part).landing.origin = .above 0 ∧ (Path.mk part).landing.names ≠ [])
    ∨ (Path.mk part).landing.origin = .above 1
      ∧ [sub] <+: (Path.mk part).landing.names ∧ (Path.mk part).landing.names ≠ [sub]

instance : Decidable (LeadsDown sub part) := inferInstanceAs (Decidable (_ ∨ _))

theorem LeadsDown.isBelow (hsub : IsName sub) (h : LeadsDown sub part) (store : Path) :
    (store / sub / part).landing.IsBelow (store / sub).landing := by
  rcases h with ⟨horigin, hne⟩ | ⟨horigin, hback, hne⟩
  · refine (isBelow_join_iff hsub horigin).2 ⟨.inr (Nat.zero_le _), ?_⟩
    have hdrop : (store.landing.names ++ [sub]).drop (store.landing.names.length + 1 - 0) = [] := by
      simp
    rw [hdrop]
    exact ⟨List.nil_prefix, hne⟩
  · refine (isBelow_join_iff hsub horigin).2 ⟨.inr (Nat.le_add_left _ _), ?_⟩
    have hdrop : (store.landing.names ++ [sub]).drop (store.landing.names.length + 1 - 1)
        = [sub] := by simp
    rw [hdrop]
    exact ⟨hback, hne⟩

/-- A single name leads down. -/
theorem leadsDown_of_plain (hslash : '/' ∉ part.toList) (hne : part ≠ "") (hself : part ≠ ".")
    (habove : part ≠ "..") : LeadsDown sub part := by
  exact .inl (by simp [landing_plain hslash hne hself habove])

/-- The texts that stay in the directory of every store are those that lead down. -/
theorem within_everywhere_iff (hsub : IsName sub) (part : String) :
    (∀ stores : List Path, (∀ store ∈ stores, store.text ≠ "") →
      ∀ store ∈ stores, (store / sub / part).Within stores sub) ↔ LeadsDown sub part := by
  constructor
  · intro h
    have hstore : ∀ name, IsName name →
        ((⟨name⟩ : Path) / sub / part).landing.IsBelow ((⟨name⟩ : Path) / sub).landing := by
      intro name hname
      obtain ⟨goal, hgoal, hbelow⟩ := h [⟨name⟩]
        (List.forall_mem_singleton.2 hname.ne_empty) ⟨name⟩ (List.mem_singleton_self _)
      rwa [List.mem_singleton.1 hgoal] at hbelow
    have ha : IsName "a" := by decide
    have hb : IsName "b" := by decide
    cases horigin : (Path.mk part).landing.origin with
    | root =>
      have hbelow := (hstore "a" ha).1
      rw [landing_join _ part, Landing.follow_root horigin, horigin, landing_join_name hsub,
        landing_name ha] at hbelow
      cases hbelow
    | above levels =>
      obtain ⟨hlevels, hback, hne⟩ := (isBelow_join_iff hsub horigin).1 (hstore "a" ha)
      obtain ⟨-, hback', -⟩ := (isBelow_join_iff hsub horigin).1 (hstore "b" hb)
      rw [landing_name ha] at hlevels hback hne
      rw [landing_name hb] at hback'
      rcases levels with _ | _ | _ | levels
      · exact .inl ⟨horigin, hne⟩
      · exact .inr ⟨horigin, hback, hne⟩
      · obtain ⟨rest, hrest⟩ := hback
        obtain ⟨rest', hrest'⟩ := hback'
        rw [← hrest] at hrest'
        simp at hrest'
      · simp at hlevels
  · intro h stores _ store hstore
    exact ⟨store, hstore, h.isBelow hsub store⟩

end Path

/-- The files of an owner whose name has no slash lie in a directory for temporary files. -/
theorem TmpFiles.Reachable.newPath_within {stores : List Path} {t : TmpFiles} {owner : String}
    {p : Path} (ht : Reachable stores t) (howner : '/' ∉ owner.toList)
    (h : (t.newPath owner).2 = .ok p) : p.Within stores "tmp" := by
  obtain ⟨store, hstore, rfl⟩ := (ScratchPath.file ht h).eq_join
  have hturn : '/' ∉ (toString t.turn).toList := by
    intro hslash
    rw [Nat.toString_eq_repr, Nat.repr_eq_ofList_toDigits, String.toList_ofList] at hslash
    exact absurd (Nat.isDigit_of_mem_toDigits (by decide) (by decide) hslash) (by decide)
  have hslash : '/' ∉ (owner ++ "_" ++ toString t.turn).toList := by
    rw [String.toList_append, String.toList_append, List.mem_append, List.mem_append, not_or,
      not_or]
    exact ⟨⟨howner, by decide⟩, hturn⟩
  have hmark : ∀ text : String, '_' ∉ text.toList → owner ++ "_" ++ toString t.turn ≠ text := by
    rintro text hno rfl
    exact hno (by simp [String.toList_append])
  have hplain : Path.LeadsDown "tmp" (owner ++ "_" ++ toString t.turn) :=
    Path.leadsDown_of_plain hslash (hmark "" (by decide)) (hmark "." (by decide))
      (hmark ".." (by decide))
  exact ⟨store, hstore, hplain.isBelow (by decide) store⟩

/-- Where a path lies that is given for a text of the caller: below the directory of a store exactly
if the text leads there from the directory of the store whose turn it was, and always if it leads
down. -/
theorem ScratchPath.within_iff {stores : List Path} {sub part : String} {p : Path}
    (h : ScratchPath stores sub part p) :
    (∃ store ∈ stores, p = store / sub / part
        ∧ (p.Within stores sub ↔ ∃ goal ∈ stores,
          ((store / sub).landing.follow (Path.mk part).landing).IsBelow (goal / sub).landing))
      ∧ (Path.LeadsDown sub part → p.Within stores sub) := by
  obtain ⟨store, hstore, rfl⟩ := h.eq_join
  have hsub : IsName sub := by cases h <;> decide
  refine ⟨⟨store, hstore, rfl, ?_⟩, fun hdown => ⟨store, hstore, hdown.isBelow hsub store⟩⟩
  rw [Path.Within, Path.landing_join]

/-- A text that leaves the directory and comes back by its name. -/
theorem ScratchPath.within_iff_returning :
    (∃ store ∈ ([⟨"/a"⟩, ⟨"b"⟩] : List Path),
        (⟨"b/spill/../spill/q"⟩ : Path) = store / "spill" / "../spill/q")
      ∧ (⟨"b/spill/../spill/q"⟩ : Path).Within [⟨"/a"⟩, ⟨"b"⟩] "spill" := by
  have hpath : ScratchPath [⟨"/a"⟩, ⟨"b"⟩] "spill" "../spill/q" ⟨"b/spill/../spill/q"⟩ :=
    .spill (s := { stores := [⟨"/a"⟩, ⟨"b"⟩], turn := 3 }) rfl (by decide)
  obtain ⟨⟨store, hstore, heq, -⟩, hwithin⟩ := hpath.within_iff
  exact ⟨⟨store, hstore, heq⟩, hwithin (by decide)⟩

/-- Nothing is asked of the texts: each of the managers gives a path outside of the only store. -/
theorem scratch_paths_escape :
    (∃ t, TmpFiles.Reachable [⟨"/a"⟩] t
        ∧ (t.newPath "../../outside").2 = .ok ⟨"/a/tmp/../../outside_0"⟩)
      ∧ (({ stores := [⟨"/a"⟩] } : Spill).nextDirectory "../../outside").2
        = .ok ⟨"/a/spill/../../outside"⟩
      ∧ ((({ stores := [⟨"/a"⟩] } : LoadPaths).allocate ".." "../outside").2.run.run {}).1
        = .ok ⟨"/a/mini_download/../../outside"⟩
      ∧ ¬(⟨"/a/tmp/../../outside_0"⟩ : Path).Within [⟨"/a"⟩] "tmp"
      ∧ ¬(⟨"/a/spill/../../outside"⟩ : Path).Within [⟨"/a"⟩] "spill"
      ∧ ¬(⟨"/a/mini_download/../../outside"⟩ : Path).Within [⟨"/a"⟩] "mini_download" := by
  have hrun : ({ stores := [⟨"/a"⟩] } : TmpFiles).init.run.run {} = (_, _) := Prod.mk.eta.symm
  refine ⟨⟨_, .init .new hrun, ?_⟩, ?_⟩
  · decide
  · decide

end QueryHost
