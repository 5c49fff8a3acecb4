import Mathlib.Data.List.DropRight
import Mathlib.Data.List.Nodup
import QueryHost.Proofs.Calls
import QueryHost.Proofs.ScratchPaths
import QueryHost.Proofs.SmallFileNames

/-!
# Names of temporary files

The last name on the path of a temporary file ends in an underscore and the number of the path
(`Path.IsNumbered`), whatever the owner is called and wherever the file goes. The digits that follow
the last underscore are those of the number, so a path has no other (`Path.IsNumbered.unique`).
Numbers are given by turns, and making the directories new does not begin them again. So before the
turns come round no path is given twice (`TmpFiles.paths_differ`).
-/

namespace QueryHost

/-! ## Numbered names -/

/-- The number that the digits at the end of a text have. -/
def endingNumber (text : String) : Nat :=
  Nat.ofDigitChars 10 (text.toList.rtakeWhile Char.isDigit) 0

theorem endingNumber_numbered (stem : String) (n : Nat) :
    endingNumber (stem ++ "_" ++ toString n) = n := by
  have hdigits : ∀ c ∈ (Nat.toDigits 10 n).reverse, c.isDigit = true :=
    fun c hc => isDigit_of_mem_toDigits (List.mem_reverse.1 hc)
  have hends : (stem ++ "_" ++ toString n).toList.rtakeWhile Char.isDigit
      = Nat.toDigits 10 n := by
    have htext : (stem ++ "_" ++ toString n).toList.reverse
        = (Nat.toDigits 10 n).reverse ++ '_' :: stem.toList.reverse := by
      simp [String.toList_append]
    have hmark : ('_' :: stem.toList.reverse).takeWhile Char.isDigit = [] := rfl
    rw [List.rtakeWhile, htext, List.takeWhile_append_of_pos hdigits, hmark, List.append_nil,
      List.reverse_reverse]
  rw [endingNumber, hends, Nat.ofDigitChars_ten_toDigits]

namespace Path

variable {p : Path} {m n : Nat} {owner : String}

/-- The last name of the path is a text with the number after an underscore. -/
def IsNumbered (p : Path) (n : Nat) : Prop :=
  ∃ stem : String, p.names.getLast? = some (stem ++ "_" ++ toString n)

theorem IsNumbered.unique (hm : p.IsNumbered m) (hn : p.IsNumbered n) : m = n := by
  obtain ⟨stem, hstem⟩ := hm
  obtain ⟨stem', hstem'⟩ := hn
  have hsame := Option.some.inj (hstem.symm.trans hstem')
  rw [← endingNumber_numbered stem m, hsame, endingNumber_numbered]

/-- What a text without a slash is appended to ends up in the last piece with it. -/
theorem pieces_append_of_no_slash {ending : List Char} (hslash : '/' ∉ ending) :
    ∀ cs : List Char, ∃ before stem, pieces (cs ++ ending) = before ++ [stem ++ ending]
  | [] => ⟨[], [], pieces_of_no_slash hslash⟩
  | c :: cs => by
    obtain ⟨before, stem, heq⟩ := pieces_append_of_no_slash hslash cs
    rw [List.cons_append, pieces, heq]
    by_cases hc : c = '/'
    · refine ⟨[] :: before, stem, ?_⟩
      cases before <;> simp [hc]
    · cases before with
      | nil => exact ⟨[], c :: stem, by simp [hc]⟩
      | cons piece before => exact ⟨(c :: piece) :: before, stem, by simp [hc]⟩

theorem isNumbered_part (owner : String) (n : Nat) :
    (Path.mk (owner ++ "_" ++ toString n)).IsNumbered n := by
  have hslash : '/' ∉ '_' :: Nat.toDigits 10 n := by
    simp only [List.mem_cons, not_or]
    exact ⟨by decide, fun h => absurd (isDigit_of_mem_toDigits h) (by decide)⟩
  obtain ⟨before, stem, heq⟩ := pieces_append_of_no_slash hslash owner.toList
  have htext : (owner ++ "_" ++ toString n).toList = owner.toList ++ '_' :: Nat.toDigits 10 n := by
    simp [String.toList_append]
  refine ⟨String.ofList stem, ?_⟩
  rw [names, htext, heq, List.filter_append, List.map_append, List.getLast?_append]
  simp [← String.toList_inj, String.toList_append]

/-- The last name does not change when a relative part is joined to a path, and stays the only one
when an absolute one is. -/
theorem IsNumbered.join (h : (Path.mk owner).IsNumbered n) (p : Path) :
    (p / owner).IsNumbered n := by
  obtain ⟨stem, hstem⟩ := h
  cases habsolute : (Path.mk owner).isAbsolute with
  | true => exact ⟨stem, by rw [join_absolute habsolute, hstem]⟩
  | false =>
    refine ⟨stem, ?_⟩
    rw [names_join_relative habsolute, List.getLast?_append, hstem, Option.some_or]

/-- A last name that is not the directory itself counts among the components. -/
theorem getLast?_components {name : String} (h : p.names.getLast? = some name) (hne : name ≠ ".") :
    p.components.getLast? = some name := by
  have hkept : (name != ".") = true := bne_iff_ne.2 hne
  unfold components
  cases hnames : p.names with
  | nil => simp [hnames] at h
  | cons first rest =>
    rw [hnames, List.getLast?_cons] at h
    cases hrest : rest.getLast? with
    | none =>
      obtain rfl := List.getLast?_eq_none_iff.1 hrest
      obtain rfl : first = name := Option.some.inj h
      simp [hne]
    | some last =>
      obtain rfl : last = name := by simpa [hrest] using h
      obtain ⟨before, rfl⟩ := List.getLast?_eq_some_iff.1 hrest
      simp [List.filter_append, hkept]

/-- The number of a path is told by its components. -/
theorem IsNumbered.of_components {q : Path} (hp : p.IsNumbered m) (hq : q.IsNumbered n)
    (h : p.components = q.components) : m = n := by
  have hlast : ∀ {p : Path} {n : Nat}, p.IsNumbered n →
      ∃ stem, p.components.getLast? = some (stem ++ "_" ++ toString n) := by
    rintro p n ⟨stem, hstem⟩
    refine ⟨stem, getLast?_components hstem fun hself => ?_⟩
    have hmark : '_' ∈ (".").toList := by simp [← hself, String.toList_append]
    exact absurd hmark (by decide)
  obtain ⟨stem, hstem⟩ := hlast hp
  obtain ⟨stem', hstem'⟩ := hlast hq
  have hsame := Option.some.inj (hstem.symm.trans (h ▸ hstem'))
  rw [← endingNumber_numbered stem m, hsame, endingNumber_numbered]

end Path

/-! ## Paths of a run -/

namespace TmpFiles

/-- What can be asked of the manager: to make the directories new, in a scene that may be any, and
for a path. -/
inductive Call where
  | init (scene : Scene)
  | newPath (owner : String)

variable {t : TmpFiles} {paths stores : List Path} {calls : List Call}

/-- What a call leaves, and the path that it gives. A manager that could not be made ready stays as
it was. -/
def call (t : TmpFiles) : Call → TmpFiles × Option Path
  | .init scene => ((t.init.run.run scene).1.toOption.getD t, none)
  | .newPath owner => ((t.newPath owner).1, (t.newPath owner).2.toOption)

/-- The paths that a run of calls on a new manager gives, in their order. -/
def given (stores : List Path) (calls : List Call) : List Path :=
  (callAll call { stores } calls).2.filterMap id

/-- The next path will have the next number, and each that was given has its own. -/
structure Numbers (t : TmpFiles) (paths : List Path) : Prop where
  turn : t.turn = paths.length % word64Count
  numbered : ∀ (k : Nat) (p : Path), paths[k]? = some p → p.IsNumbered (k % word64Count)

theorem turn_init (t : TmpFiles) (scene : Scene) :
    ((t.init.run.run scene).1.toOption.getD t).turn = t.turn := by
  rcases h : t.init.run.run scene with ⟨f | t', scene'⟩
  · rfl
  · obtain ⟨usable, -, -, rfl⟩ := init_eq h
    rfl

theorem newPath_cases (t : TmpFiles) (owner : String) :
    t.newPath owner = (t, .error .notInitialized)
      ∨ ∃ p, t.newPath owner = ({ t with turn := (t.turn + 1) % word64Count }, .ok p)
        ∧ p.IsNumbered t.turn := by
  unfold newPath
  split
  · exact .inl rfl
  · exact .inr ⟨_, rfl, (Path.isNumbered_part owner t.turn).join _⟩

theorem Numbers.concat (h : Numbers t paths) {p : Path} (hp : p.IsNumbered t.turn) :
    Numbers { t with turn := (t.turn + 1) % word64Count } (paths ++ [p]) where
  turn := by simp [h.turn]
  numbered k q hk := by
    rcases Nat.lt_or_ge k paths.length with hlt | hge
    · rw [List.getElem?_append_left hlt] at hk
      exact h.numbered k q hk
    · rw [List.getElem?_append_right hge, List.getElem?_singleton] at hk
      split at hk
      · obtain rfl := Option.some.inj hk
        obtain rfl : k = paths.length := by omega
        exact h.turn ▸ hp
      · cases hk

theorem Numbers.call (h : Numbers t paths) (c : Call) :
    Numbers (t.call c).1 (paths ++ (t.call c).2.toList) := by
  cases c with
  | init scene => exact ⟨by simpa [TmpFiles.call, turn_init] using h.turn,
      by simpa [TmpFiles.call] using h.numbered⟩
  | newPath owner =>
    simp only [TmpFiles.call]
    rcases t.newPath_cases owner with heq | ⟨p, heq, hp⟩
    · rw [heq]
      simpa [Except.toOption] using h
    · rw [heq]
      exact h.concat hp

theorem numbers_given (stores : List Path) (calls : List Call) :
    Numbers (callAll call { stores } calls).1 (given stores calls) := by
  have hstep : ∀ (t : TmpFiles) (bs : List (Option Path)) (c : Call), Numbers t (bs.filterMap id) →
      Numbers (t.call c).1 ((bs ++ [(t.call c).2]).filterMap id) := by
    intro t bs c h
    have hcall := h.call c
    cases hgiven : (t.call c).2 <;> simpa [hgiven] using hcall
  have hrun := callAll_history (R := fun t bs => Numbers t (bs.filterMap id)) hstep calls { stores }
    [] ⟨rfl, by simp⟩
  simpa [given] using hrun

/-- As long as the turns have not come round, the paths that are given differ, also by their
components alone. -/
theorem paths_differ (hcount : (given stores calls).length ≤ word64Count) :
    (given stores calls).Nodup ∧ ((given stores calls).map Path.components).Nodup := by
  have hcomponents : ((given stores calls).map Path.components).Nodup := by
    rw [List.Nodup, List.pairwise_map, List.pairwise_iff_getElem]
    intro i j hi hj hlt hsame
    have hnumbered := (numbers_given stores calls).numbered
    have heq := (hnumbered i _ (List.getElem?_eq_getElem hi)).of_components
      (hnumbered j _ (List.getElem?_eq_getElem hj)) hsame
    rw [Nat.mod_eq_of_lt (by omega), Nat.mod_eq_of_lt (by omega)] at heq
    omega
  exact ⟨hcomponents.of_map, hcomponents⟩

/-- Owners that look like numbered ones, that have a slash or are an absolute path, and directories
that are made new in between. -/
def confusableCalls : List Call :=
  [.newPath "q", .init {}, .newPath "q", .newPath "q_0", .init {}, .newPath "/b/tmp/q_0",
    .newPath "q_0/_3"]

theorem paths_differ_confusable :
    (given [⟨"/a"⟩, ⟨"b"⟩] confusableCalls).map (·.text)
        = ["/a/tmp/q_0", "b/tmp/q_0_1", "/b/tmp/q_0_2", "b/tmp/q_0/_3_3"]
      ∧ (given [⟨"/a"⟩, ⟨"b"⟩] confusableCalls).Nodup := by
  have hgiven : (given [⟨"/a"⟩, ⟨"b"⟩] confusableCalls).map (·.text)
      = ["/a/tmp/q_0", "b/tmp/q_0_1", "/b/tmp/q_0_2", "b/tmp/q_0/_3_3"] := by decide +kernel
  have hcount : (given [⟨"/a"⟩, ⟨"b"⟩] confusableCalls).length ≤ word64Count := by
    rw [← List.length_map (·.text), hgiven]
    decide
  exact ⟨hgiven, (paths_differ hcount).1⟩

end TmpFiles

end QueryHost
