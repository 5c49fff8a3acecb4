import Mathlib.Data.List.Infix
import Mathlib.Data.String.Basic
import QueryHost.Disk.Tree

/-!
# Where paths lead

The names on a path say where it leads (`Disk.placeOf`), and it is located there exactly if the
places on its way are directories (`Disk.locate_ok_iff`), whatever else becomes of the disk
(`Disk.Reaches.congr`). A path joined with the name of an entry leads to the entry of that name in
the directory that the path leads to (`Disk.placeOf_join`, `Disk.Reaches.join`).
-/

namespace QueryHost

/-- A text that can be the name of an entry of a directory. -/
structure IsName (name : String) : Prop where
  ne_empty : name ≠ ""
  no_slash : '/' ∉ name.toList
  no_nul : '\x00' ∉ name.toList
  ne_self : name ≠ "."
  ne_above : name ≠ ".."
  size_le : name.utf8ByteSize ≤ Disk.maxName

instance : DecidablePred IsName := fun name =>
  decidable_of_iff (name ≠ "" ∧ '/' ∉ name.toList ∧ '\x00' ∉ name.toList ∧ name ≠ "." ∧ name ≠ ".."
      ∧ name.utf8ByteSize ≤ Disk.maxName)
    ⟨fun ⟨a, b, c, d, e, f⟩ => ⟨a, b, c, d, e, f⟩, fun ⟨a, b, c, d, e, f⟩ => ⟨a, b, c, d, e, f⟩⟩

namespace Path

/-! ## Joining -/

section Pieces

variable {a b cs : List Char}

theorem pieces_ne_nil : ∀ cs : List Char, pieces cs ≠ []
  | [] => by simp [pieces]
  | c :: cs => by
    simp only [pieces]
    split
    · simp
    · split_ifs <;> simp

theorem pieces_append_slash : ∀ a : List Char, pieces (a ++ '/' :: b) = pieces a ++ pieces b
  | [] => by
    simp only [List.nil_append, pieces]
    split
    · rename_i h
      exact absurd h (pieces_ne_nil b)
    · rename_i h
      simp [h]
  | c :: a => by
    simp only [List.cons_append, pieces, pieces_append_slash a]
    cases h : pieces a with
    | nil => exact absurd h (pieces_ne_nil a)
    | cons p ps => simp only [List.cons_append]; split_ifs <;> rfl

theorem pieces_of_no_slash : ∀ {cs : List Char}, '/' ∉ cs → pieces cs = [cs]
  | [], _ => rfl
  | c :: cs, h => by
    obtain ⟨hc, hcs⟩ := not_or.1 (mt List.mem_cons.2 h)
    simp [pieces, pieces_of_no_slash hcs, Ne.symm hc]

end Pieces

variable {p : Path} {name part : String}

theorem isAbsolute_of_no_slash (h : '/' ∉ part.toList) : (Path.mk part).isAbsolute = false := by
  rw [isAbsolute, beq_eq_false_iff_ne]
  exact fun hhead => h (List.mem_of_head? hhead)

theorem isAbsolute_name (h : IsName name) : (Path.mk name).isAbsolute = false :=
  isAbsolute_of_no_slash h.no_slash

theorem text_join_relative (h : (Path.mk part).isAbsolute = false) : (p / part).text
    = if p.text = "" ∨ p.endsInSlash then p.text ++ part else p.text ++ "/" ++ part := by
  show (p.join part).text = _
  unfold join
  rw [h]
  simp only [Bool.false_eq_true, if_false, Bool.or_eq_true, String.isEmpty_iff]
  split_ifs <;> rfl

theorem text_join (h : IsName name) : (p / name).text
    = if p.text = "" ∨ p.endsInSlash then p.text ++ name else p.text ++ "/" ++ name :=
  text_join_relative (isAbsolute_name h)

/-- To join a relative path appends its names. -/
theorem names_join_relative (h : (Path.mk part).isAbsolute = false) :
    (p / part).names = p.names ++ (Path.mk part).names := by
  unfold names
  rw [text_join_relative h]
  split_ifs with hp
  · rcases hp with hp | hp
    · simp [hp, pieces]
    · obtain ⟨cs, hcs⟩ : ∃ cs, p.text.toList = cs ++ ['/'] := by
        simp only [endsInSlash, beq_iff_eq] at hp
        exact List.getLast?_eq_some_iff.1 hp
      rw [String.toList_append, hcs, List.append_assoc, List.singleton_append,
        pieces_append_slash, pieces_append_slash]
      simp [pieces]
  · have htext : (p.text ++ "/" ++ part).toList = p.text.toList ++ '/' :: part.toList := by
      simp [String.toList_append]
    rw [htext, pieces_append_slash]
    simp

theorem names_of_no_slash (h : '/' ∉ part.toList) (hne : part ≠ "") :
    (Path.mk part).names = [part] := by
  have hlist : part.toList ≠ [] := by simpa using hne
  simp [names, pieces_of_no_slash h, hlist]

theorem names_join (h : IsName name) : (p / name).names = p.names ++ [name] := by
  rw [names_join_relative (isAbsolute_name h), names_of_no_slash h.no_slash h.ne_empty]

theorem text_join_ne_empty (h : IsName name) : (p / name).text ≠ "" := by
  intro hempty
  have hnames := names_join (p := p) h
  rw [names, hempty] at hnames
  simp [pieces] at hnames

theorem isAbsolute_join_relative (h : (Path.mk part).isAbsolute = false) :
    (p / part).isAbsolute = p.isAbsolute := by
  have hpart : part.toList.head? ≠ some '/' := by simpa [isAbsolute] using h
  unfold isAbsolute
  rw [text_join_relative h]
  split_ifs with hp
  · by_cases hempty : p.text = ""
    · simpa [hempty] using hpart
    · rw [String.toList_append, List.head?_append_of_ne_nil _ (by simpa using hempty)]
  · obtain ⟨hempty, -⟩ := not_or.1 hp
    rw [String.toList_append, String.toList_append, List.append_assoc,
      List.head?_append_of_ne_nil _ (by simpa using hempty)]

theorem isAbsolute_join (h : IsName name) : (p / name).isAbsolute = p.isAbsolute :=
  isAbsolute_join_relative (isAbsolute_name h)

theorem endsInSlash_join (h : IsName name) : (p / name).endsInSlash = false := by
  have hne : name.toList ≠ [] := by simpa using h.ne_empty
  have hlast : ((p / name).text.toList.getLast?) = name.toList.getLast? := by
    rw [text_join h]
    split_ifs
    · rw [String.toList_append, List.getLast?_append_of_ne_nil _ hne]
    · rw [String.toList_append, List.getLast?_append_of_ne_nil _ hne]
  rw [endsInSlash, hlast, beq_eq_false_iff_ne]
  exact fun hslash => h.no_slash (List.mem_of_getLast? hslash)

theorem mem_join {c : Char} (h : IsName name) (hc : c ≠ '/') :
    c ∈ (p / name).text.toList ↔ c ∈ p.text.toList ∨ c ∈ name.toList := by
  rw [text_join h]
  split_ifs <;> simp [String.toList_append, hc]

theorem size_join (h : IsName name) :
    p.text.utf8ByteSize + name.utf8ByteSize ≤ (p / name).text.utf8ByteSize
      ∧ (p / name).text.utf8ByteSize ≤ p.text.utf8ByteSize + 1 + name.utf8ByteSize := by
  have hslash : ("/" : String).utf8ByteSize = 1 := by decide
  rw [text_join h]
  split_ifs
  · rw [String.utf8ByteSize_append]
    omega
  · rw [String.utf8ByteSize_append, String.utf8ByteSize_append]
    omega

/-- A path that can be looked up, if the directories on its way are there. -/
structure Valid (p : Path) : Prop where
  no_nul : '\x00' ∉ p.text.toList
  ne_empty : p.text ≠ ""
  size_lt : p.text.utf8ByteSize < Disk.pathEnd
  names : ∀ name ∈ p.names, name = "." ∨ name = ".." ∨ name.utf8ByteSize ≤ Disk.maxName

theorem Valid.join (hp : p.Valid) (h : IsName name)
    (hsize : (p / name).text.utf8ByteSize < Disk.pathEnd) : (p / name).Valid where
  no_nul hnul := ((mem_join h (by decide)).1 hnul).elim hp.no_nul h.no_nul
  ne_empty := text_join_ne_empty h
  size_lt := hsize
  names n hn := by
    rw [names_join h] at hn
    rcases List.mem_append.1 hn with hn | hn
    · exact hp.names n hn
    · obtain rfl := List.mem_singleton.1 hn
      exact .inr (.inr h.size_le)

theorem Valid.of_join (hv : (p / name).Valid) (h : IsName name) (hp : p.text ≠ "") : p.Valid where
  no_nul hnul := hv.no_nul ((mem_join h (by decide)).2 (.inl hnul))
  ne_empty := hp
  size_lt := by
    have := (size_join (p := p) h).1
    have := hv.size_lt
    omega
  names n hn := hv.names n (by rw [names_join h]; exact List.mem_append_left _ hn)

end Path

/-! ## Where names lead -/

namespace Place

/-- Where a name leads from a directory. -/
def next (place : Place) (name : String) : Place :=
  if name = "." then place else if name = ".." then place.dropLast else place ++ [name]

/-- The places where names are looked up, one after the other. -/
def stops (place : Place) : List String → List Place
  | [] => []
  | name :: rest => place :: stops (place.next name) rest

theorem next_name {name : String} (h : IsName name) (place : Place) :
    place.next name = place ++ [name] := by
  rw [next, if_neg h.ne_self, if_neg h.ne_above]

theorem stops_append (place : Place) : ∀ names rest : List String,
    stops place (names ++ rest) = stops place names ++ stops (names.foldl next place) rest
  | [], _ => rfl
  | name :: names, rest => by
    simp only [List.cons_append, stops, List.foldl_cons, stops_append (place.next name) names]

end Place

namespace Disk

variable {d d' : Disk} {p : Path} {place target : Place} {name : String} {e : Entry}

def startOf (d : Disk) (p : Path) : Place := if p.isAbsolute then [] else d.workplace

/-- Where a path leads, by its names alone. -/
def placeOf (d : Disk) (p : Path) : Place := p.names.foldl Place.next (d.startOf p)

/-- The places that have to be directories on the way of a path. -/
def way (d : Disk) (p : Path) : List Place := Place.stops (d.startOf p) p.names

/-- All is there to look up where the path leads. -/
structure Reaches (d : Disk) (p : Path) : Prop where
  valid : p.Valid
  way : ∀ stop ∈ d.way p, d.entry? stop = some .directory

theorem enter_ok_iff : d.enter place name = .ok target ↔ d.entry? place = some .directory
    ∧ (name = "." ∨ name = ".." ∨ name.utf8ByteSize ≤ maxName) ∧ target = place.next name := by
  unfold enter Place.next
  split <;> rename_i h
  · simp [h]
  · simp [h]
  · split_ifs with h1 h2 h3
    · simp [h, h1, eq_comm]
    · simp [h, h2, eq_comm]
    · have hlong : ¬name.utf8ByteSize ≤ maxName := by omega
      simp [h1, h2, hlong]
    · have hshort : name.utf8ByteSize ≤ maxName := by omega
      simp [h, hshort, eq_comm]

/-- `walk` arrives if everything on its way is a directory and no name is too long. -/
theorem walk_ok_iff : ∀ {names : List String} {place : Place}, d.walk place names = .ok target
    ↔ (∀ stop ∈ place.stops names, d.entry? stop = some .directory)
      ∧ (∀ name ∈ names, name = "." ∨ name = ".." ∨ name.utf8ByteSize ≤ maxName)
      ∧ target = names.foldl Place.next place
  | [], place => by simp [walk, Place.stops, eq_comm]
  | name :: rest, place => by
    simp only [walk]
    cases hnext : d.enter place name with
    | error f =>
      simp only [reduceCtorEq, Place.stops, List.forall_mem_cons, false_iff]
      rintro ⟨⟨hdir, -⟩, ⟨hname, -⟩, -⟩
      have hok := enter_ok_iff.2 ⟨hdir, hname, rfl⟩
      rw [hnext] at hok
      exact nomatch hok
    | ok next =>
      obtain ⟨hdir, hname, rfl⟩ := enter_ok_iff.1 hnext
      simp only [walk_ok_iff, Place.stops, List.forall_mem_cons, List.foldl_cons, hdir, hname,
        true_and]

/-- `locate` gives the place of a path that `Reaches` one. -/
theorem locate_ok_iff : d.locate p = .ok place ↔ d.Reaches p ∧ place = d.placeOf p := by
  have hstart : (if p.isAbsolute then [] else d.workplace) = d.startOf p := rfl
  unfold locate
  rw [hstart]
  split_ifs with hnul hempty hlong
  · have : ¬p.Valid := fun h => h.no_nul (by simpa using hnul)
    simp [mt Reaches.valid this]
  · have : ¬p.Valid := fun h => h.ne_empty (by simpa using hempty)
    simp [mt Reaches.valid this]
  · have : ¬p.Valid := fun h => absurd h.size_lt (Nat.not_lt.2 hlong)
    simp [mt Reaches.valid this]
  · split <;> rename_i hwalk
    · obtain ⟨hway, hnames, htarget⟩ := walk_ok_iff.1 hwalk
      have hreach : d.Reaches p :=
        ⟨⟨by simpa using hnul, by simpa using hempty, Nat.not_le.1 hlong, hnames⟩, hway⟩
      simp [hreach, placeOf, htarget, eq_comm]
    · simp only [reduceCtorEq, false_iff]
      rintro ⟨hreach, -⟩
      rw [walk_ok_iff.2 ⟨hreach.way, hreach.valid.names, rfl⟩] at hwalk
      exact nomatch hwalk

theorem Reaches.locate (h : d.Reaches p) : d.locate p = .ok (d.placeOf p) :=
  locate_ok_iff.2 ⟨h, rfl⟩

/-- `find` gives what is at the place; behind a slash, only a directory. -/
theorem find_ok_iff : d.find p = .ok (place, e) ↔ (d.Reaches p ∧ place = d.placeOf p)
    ∧ d.entry? place = some e ∧ (p.endsInSlash → e = .directory) := by
  unfold find
  cases hloc : d.locate p with
  | error f =>
    simp only [bind, Except.bind, reduceCtorEq, ← locate_ok_iff, hloc, false_and]
  | ok q =>
    rw [← locate_ok_iff, hloc]
    simp only [bind, Except.bind, Except.ok.injEq]
    split <;> rename_i hentry
    · simp only [reduceCtorEq, false_iff]
      rintro ⟨rfl, he, -⟩
      rw [hentry] at he
      exact nomatch he
    · split_ifs with hslash
      · simp only [false_iff]
        rintro ⟨rfl, he, hdir⟩
        rw [hentry, hdir hslash] at he
        exact nomatch he
      · simp only [Except.ok.injEq, Prod.mk.injEq]
        constructor
        · rintro ⟨rfl, rfl⟩
          exact ⟨rfl, hentry, fun h => absurd h hslash⟩
        · rintro ⟨rfl, he, -⟩
          rw [hentry] at he
          exact ⟨rfl, Option.some.inj he⟩
    · simp only [Except.ok.injEq, Prod.mk.injEq]
      constructor
      · rintro ⟨rfl, rfl⟩
        exact ⟨rfl, hentry, fun _ => rfl⟩
      · rintro ⟨rfl, he, -⟩
        rw [hentry] at he
        exact ⟨rfl, Option.some.inj he⟩

/-- A path is a directory if one is at its place. -/
theorem isDirectory_iff :
    d.isDirectory p = true ↔ d.Reaches p ∧ d.entry? (d.placeOf p) = some .directory := by
  have hfind : d.isDirectory p = true ↔ ∃ place, d.find p = .ok (place, .directory) := by
    unfold isDirectory
    split
    · rename_i place h
      simp [h]
    · rename_i h
      simpa using h
  rw [hfind]
  simp only [find_ok_iff]
  constructor
  · rintro ⟨place, ⟨hreach, rfl⟩, he, -⟩
    exact ⟨hreach, he⟩
  · rintro ⟨hreach, he⟩
    exact ⟨_, ⟨hreach, rfl⟩, he, fun _ => trivial⟩

/-! ## Entries of a directory -/

theorem startOf_join (h : IsName name) : d.startOf (p / name) = d.startOf p := by
  rw [startOf, startOf, Path.isAbsolute_join h]

theorem placeOf_join (h : IsName name) : d.placeOf (p / name) = d.placeOf p ++ [name] := by
  rw [placeOf, startOf_join h, Path.names_join h, List.foldl_concat, Place.next_name h, placeOf]

theorem way_join (h : IsName name) : d.way (p / name) = d.way p ++ [d.placeOf p] := by
  rw [way, startOf_join h, Path.names_join h, Place.stops_append]
  rfl

theorem Reaches.join (hp : d.isDirectory p = true) (h : IsName name)
    (hsize : (p / name).text.utf8ByteSize < pathEnd) : d.Reaches (p / name) := by
  obtain ⟨hreach, hdir⟩ := isDirectory_iff.1 hp
  refine ⟨hreach.valid.join h hsize, ?_⟩
  rw [way_join h]
  intro stop hstop
  rcases List.mem_append.1 hstop with hstop | hstop
  · exact hreach.way stop hstop
  · exact List.mem_singleton.1 hstop ▸ hdir

theorem Reaches.of_join (hr : d.Reaches (p / name)) (h : IsName name) (hp : p.text ≠ "") :
    d.isDirectory p = true := by
  have hway := hr.way
  rw [way_join h] at hway
  refine isDirectory_iff.2 ⟨⟨hr.valid.of_join h hp, fun stop hstop => ?_⟩, ?_⟩
  · exact hway stop (List.mem_append_left _ hstop)
  · exact hway _ (List.mem_append_right _ (List.mem_singleton_self _))

/-! ## What a path depends on -/

theorem placeOf_congr (h : d'.workplace = d.workplace) (p : Path) : d'.placeOf p = d.placeOf p := by
  rw [placeOf, placeOf, startOf, startOf, h]

theorem way_congr (h : d'.workplace = d.workplace) (p : Path) : d'.way p = d.way p := by
  rw [way, way, startOf, startOf, h]

theorem Reaches.congr (hr : d.Reaches p) (h : d'.workplace = d.workplace)
    (hway : ∀ stop ∈ d.way p, d.entry? stop = some .directory → d'.entry? stop = some .directory) :
    d'.Reaches p := by
  refine ⟨hr.valid, ?_⟩
  rw [way_congr h]
  exact fun stop hstop => hway stop hstop (hr.way stop hstop)

end Disk

end QueryHost
