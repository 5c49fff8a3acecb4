import QueryHost.Proofs.DiskPaths
import QueryHost.Proofs.WrittenNumbers
import QueryHost.Storage.SmallFiles

/-!
# The names of small files

What a name says of a file is read from the text before its first point and the one after it
(`SmallFiles.identify_iff`). The name under which a content is kept gives back its number and its
digest (`SmallFiles.identify_fileName`), and it can be that of an entry, whatever the digest is as
long as it has the form of one.
-/

namespace QueryHost

/-! ## Numbers -/

section Numbers

variable {id : Int} {c : Char}

theorem toList_toString (id : Int) : (toString id).toList
    = if 0 ≤ id then Nat.toDigits 10 id.toNat else '-' :: Nat.toDigits 10 (-id).toNat := by
  rw [Int.toString_eq_repr, Int.repr_eq_if]
  split_ifs <;> simp [Nat.repr_eq_ofList_toDigits]

theorem mem_toString (h : c ∈ (toString id).toList) : c.isDigit = true ∨ c = '-' := by
  rw [toList_toString] at h
  split_ifs at h
  · exact .inl (isDigit_of_mem_toDigits h)
  · rcases List.mem_cons.1 h with h | h
    · exact .inr h
    · exact .inl (isDigit_of_mem_toDigits h)

/-- A number is read back from its text. -/
theorem readInt_toString (id : Int) : readInt (toString id).toList = some id := by
  rw [readInt_eq_some_iff, toList_toString]
  split_ifs with hid
  · have hplain := Signed.plain (digits_toDigits id.toNat)
    rwa [Int.toNat_of_nonneg hid] at hplain
  · have hminus := Signed.minus (digits_toDigits (-id).toNat)
    rwa [Int.toNat_of_nonneg (by omega), Int.neg_neg] at hminus

/-- The words of 64 bits. -/
def IsInt64 (n : Int) : Prop := int64Min ≤ n ∧ n ≤ int64Max

theorem readInt64_toString (h : IsInt64 id) : readInt64 (toString id).toList = some id := by
  rw [readInt64, readInt_toString]
  simp [h.1, h.2]

theorem length_toString (h : IsInt64 id) : (toString id).toList.length ≤ 20 := by
  obtain ⟨hlow, hhigh⟩ := h
  simp only [int64Min, int64Max] at hlow hhigh
  rw [toList_toString]
  split_ifs
  · exact ((Nat.length_toDigits_le_iff (by decide) (by decide)).2 (by omega : _ < 10 ^ 19)).trans
      (by decide)
  · exact Nat.succ_le_succ
      ((Nat.length_toDigits_le_iff (by decide) (by decide)).2 (by omega : _ < 10 ^ 19))

end Numbers

/-! ## Digests -/

/-- The form of a digest: 32 lowercase hexadecimal digits. -/
def IsDigest (text : String) : Prop :=
  text.toList.length = 32 ∧ ∀ c ∈ text.toList, c ∈ "0123456789abcdef".toList

theorem IsDigest.map_toLower {digest : String} (h : IsDigest digest) :
    digest.toList.map Char.toLower = digest.toList := by
  have hlower : ("0123456789abcdef".toList.all fun c => c.toLower == c) = true := by decide
  have hsame : ∀ c ∈ digest.toList, c.toLower = c := fun c hc =>
    eq_of_beq (List.all_eq_true.1 hlower c (h.2 c hc))
  exact (List.map_congr_left hsame).trans (List.map_id _)

section Hexadecimal

theorem length_hexField : ∀ width n : Nat, (hexField width n).length = width
  | 0, _ => rfl
  | width + 1, n => by simp [hexField, length_hexField width]

theorem mem_hexField {c : Char} : ∀ {width n : Nat}, c ∈ hexField width n →
    c ∈ "0123456789abcdef".toList
  | width + 1, n, h => by
    have hdigit : ∀ d < 16, (if d < 10 then Char.ofNat (48 + d) else Char.ofNat (87 + d))
        ∈ "0123456789abcdef".toList := by decide
    simp only [hexField, List.mem_append, List.mem_singleton] at h
    rcases h with h | rfl
    · exact mem_hexField h
    · exact hdigit (n % 16) (Nat.mod_lt n (by decide))

theorem length_leastBytes : ∀ count n : Nat, (MD5.leastBytes count n).length = count
  | 0, _ => rfl
  | count + 1, n => by simp [MD5.leastBytes, length_leastBytes count]

theorem isDigest_md5Hex (message : Bytes) : IsDigest (md5Hex message) := by
  constructor
  · simp [md5Hex, hexBytes, MD5.digest, List.length_flatMap, length_hexField, length_leastBytes]
  · intro c hc
    simp only [md5Hex, hexBytes, String.toList_ofList, List.mem_flatMap] at hc
    obtain ⟨byte, -, hc⟩ := hc
    exact mem_hexField hc

end Hexadecimal

namespace SmallFiles

variable {hash : Bytes → String} {name digest : String} {content : Bytes} {id : Int}

/-! ## What a name says -/

/-- A text is split at its first point. -/
theorem splitAtPoint_iff : ∀ {cs before after : List Char},
    splitAtPoint cs = some (before, after) ↔ cs = before ++ '.' :: after ∧ '.' ∉ before
  | [], before, after => by simp [splitAtPoint]
  | c :: cs, before, after => by
    simp only [splitAtPoint]
    split_ifs with hc
    · subst hc
      cases before with
      | nil => simp
      | cons b before =>
        simp only [Option.some.injEq, Prod.mk.injEq, List.nil_eq, reduceCtorEq, false_and,
          false_iff]
        rintro ⟨h, hpoint⟩
        exact hpoint ((List.cons.inj h).1 ▸ List.mem_cons_self)
    · simp only [Option.map_eq_some_iff, Prod.exists, Prod.mk.injEq]
      constructor
      · rintro ⟨before', after', h, rfl, rfl⟩
        obtain ⟨rfl, hpoint⟩ := splitAtPoint_iff.1 h
        exact ⟨rfl, by simp [hpoint, Ne.symm hc]⟩
      · rintro ⟨h, hpoint⟩
        cases before with
        | nil => exact absurd (List.cons.inj h).1 hc
        | cons b before =>
          obtain ⟨rfl, rfl⟩ := List.cons.inj h
          have hrest : splitAtPoint (before ++ '.' :: after) = some (before, after) :=
            splitAtPoint_iff.2 ⟨rfl, fun hmem => hpoint (.tail _ hmem)⟩
          exact ⟨before, after, hrest, rfl, rfl⟩

theorem sameLetters_iff {a b : String} :
    sameLetters a b = true ↔ a.toList.map Char.toLower = b.toList.map Char.toLower := by
  simp [sameLetters]

theorem identify_iff : identify hash name content = some (id, digest)
    ↔ ∃ number rest, name.toList = number ++ '.' :: rest ∧ '.' ∉ number ∧ readInt64 number = some id
      ∧ (hash content).toList.map Char.toLower = rest.map Char.toLower
      ∧ digest = String.ofList (rest.map Char.toLower) := by
  simp only [identify, bind, Option.bind_eq_some_iff, Prod.exists, splitAtPoint_iff,
    Option.ite_none_right_eq_some, sameLetters_iff, String.toList_ofList, Option.some.injEq,
    Prod.mk.injEq]
  constructor
  · rintro ⟨number, rest, ⟨hname, hpoint⟩, id', hid, hsame, rfl, rfl⟩
    exact ⟨number, rest, hname, hpoint, hid, hsame, rfl⟩
  · rintro ⟨number, rest, hname, hpoint, hid, hsame, rfl⟩
    exact ⟨number, rest, ⟨hname, hpoint⟩, id, hid, hsame, rfl, rfl⟩

theorem identify_number {content' : Bytes} {id' : Int} {digest' : String}
    (h : identify hash name content = some (id, digest))
    (h' : identify hash name content' = some (id', digest')) : id = id' := by
  obtain ⟨number, rest, hname, hpoint, hid, -⟩ := identify_iff.1 h
  obtain ⟨number', rest', hname', hpoint', hid', -⟩ := identify_iff.1 h'
  have hsplit := splitAtPoint_iff.2 ⟨hname, hpoint⟩
  rw [splitAtPoint_iff.2 ⟨hname', hpoint'⟩] at hsplit
  simp only [Option.some.injEq, Prod.mk.injEq] at hsplit
  rw [hsplit.1, hid] at hid'
  exact Option.some.inj hid'

theorem identify_digest (hd : IsDigest (hash content))
    (h : identify hash name content = some (id, digest)) : hash content = digest := by
  obtain ⟨number, rest, -, -, -, hsame, rfl⟩ := identify_iff.1 h
  rw [← hsame, hd.map_toLower, String.ofList_toList]

/-! ## The name of a content -/

/-- The name of the file with a number and a digest. -/
def fileName (id : Int) (digest : String) : String := toString id ++ "." ++ digest

theorem toList_fileName :
    (fileName id digest).toList = (toString id).toList ++ '.' :: digest.toList := by
  simp [fileName, String.toList_append]

theorem identify_fileName (hid : IsInt64 id) (hd : IsDigest (hash content)) :
    identify hash (fileName id (hash content)) content = some (id, hash content) := by
  refine identify_iff.2 ⟨_, _, toList_fileName, ?_, readInt64_toString hid, rfl, ?_⟩
  · intro hpoint
    rcases mem_toString hpoint with h | h
    · exact absurd h (by decide)
    · exact absurd h (by decide)
  · rw [hd.map_toLower, String.ofList_toList]

theorem mem_fileName {c : Char} (hd : IsDigest digest) (h : c ∈ (fileName id digest).toList) :
    c.isDigit = true ∨ c ∈ "-.0123456789abcdef".toList := by
  rw [toList_fileName, List.mem_append, List.mem_cons] at h
  rcases h with h | rfl | h
  · rcases mem_toString h with h | rfl
    · exact .inl h
    · exact .inr (by decide)
  · exact .inr (by decide)
  · have hsub : "0123456789abcdef".toList ⊆ "-.0123456789abcdef".toList := by decide
    exact .inr (hsub (hd.2 c h))

/-- The name that a content is kept under can be that of an entry. -/
theorem isName_fileName (hid : IsInt64 id) (hd : IsDigest digest) :
    IsName (fileName id digest) := by
  have hlength : 33 ≤ (fileName id digest).toList.length
      ∧ (fileName id digest).toList.length ≤ 53 := by
    have := length_toString hid
    simp only [toList_fileName, List.length_append, List.length_cons, hd.1]
    omega
  have hsize : ∀ cs : List Char, String.utf8Len cs ≤ 4 * cs.length := by
    intro cs
    induction cs with
    | nil => simp
    | cons c cs ih =>
      have := c.utf8Size_le_four
      simp only [String.utf8Len_cons, List.length_cons]
      omega
  constructor
  · rintro h
    simp [h] at hlength
  · intro h
    exact (mem_fileName hd h).elim (by decide) (by decide)
  · intro h
    exact (mem_fileName hd h).elim (by decide) (by decide)
  · rintro h
    simp [h] at hlength
  · rintro h
    simp [h] at hlength
  · have := hsize (fileName id digest).toList
    rw [String.utf8Len_toList] at this
    simp only [Disk.maxName]
    omega

end SmallFiles

end QueryHost
