import QueryHost.Proofs.SmallFileNames
import QueryHost.Proofs.WrittenNumbers
import QueryHost.UniqueId

/-!
# The texts of ids

A hexadecimal field holds the last digits of a number, so two fields that follow each other without
a gap are one field of both widths (`hexField_append`). The groups in the text of an id do: the
first three are the digits of its first word, the other two those of its second. Reading them back
gives the words (`UniqueId.read?_text`), and ids of words that differ have texts that differ.
-/

namespace QueryHost

/-! ## Fields -/

section Fields

variable {width n : Nat}

theorem hexValue?_hexDigit (n : Nat) : hexValue? (hexDigit n) = some (n % 16) := by
  have hdigit : ∀ d < 16, hexValue? (if d < 10 then Char.ofNat (48 + d) else Char.ofNat (87 + d))
      = some d := by decide
  exact hdigit (n % 16) (Nat.mod_lt n (by decide))

theorem readDigits_hexField : ∀ width n : Nat,
    readDigits 16 hexValue? (hexField width n) = some (n % 16 ^ width)
  | 0, n => by rw [Nat.pow_zero, Nat.mod_one]; rfl
  | width + 1, n => by
    rw [hexField, readDigits_concat, readDigits_hexField width, hexValue?_hexDigit]
    refine congrArg some ?_
    rw [Nat.pow_succ', Nat.mod_mul, Nat.add_comm]

/-- The digits of a field go on with those of the one below it. -/
theorem hexField_append (high : Nat) : ∀ low n : Nat,
    hexField high (n / 16 ^ low) ++ hexField low n = hexField (high + low) n
  | 0, n => by simp [hexField]
  | low + 1, n => by
    have hdiv : n / 16 ^ (low + 1) = n / 16 / 16 ^ low := by
      rw [Nat.pow_succ', Nat.div_div_eq_div_mul]
    rw [hexField, hdiv, ← List.append_assoc, hexField_append high low, ← Nat.add_assoc, hexField]

theorem dash_not_mem_hexField : '-' ∉ hexField width n :=
  fun h => absurd (mem_hexField h) (by decide)

end Fields

namespace UniqueId

variable {id : UniqueId}

/-! ## Reading an id -/

/-- The groups of a text, between its dashes. -/
def groups (text : String) : List (List Char) := text.toList.splitOn '-'

/-- The id of five groups of digits: three for the first word, two for the second. -/
def ofGroups? : List (List Char) → Option UniqueId
  | [a, b, c, d, e] => do
    let hi ← readDigits 16 hexValue? (a ++ b ++ c)
    let lo ← readDigits 16 hexValue? (d ++ e)
    return ⟨wrapInt64 hi, wrapInt64 lo⟩
  | _ => none

def read? (text : String) : Option UniqueId := ofGroups? (groups text)

/-- The halves are signed words of 64 bits. -/
structure IsWords (id : UniqueId) : Prop where
  hi : IsInt64 id.hi
  lo : IsInt64 id.lo

theorem word_lt (n : Int) : word n < 16 ^ 16 := by
  simp only [word, word64Count]
  omega

/-- A word that is read as unsigned and then as signed again is what it was. -/
theorem wrapInt64_word (n : Int) : wrapInt64 (word n) = wrapInt64 n := by
  have hword : ((word n : Nat) : Int) = n % (word64Count : Nat) :=
    Int.toNat_of_nonneg (Int.emod_nonneg n (by decide))
  rw [wrapInt64, hword, Int.emod_bmod, wrapInt64]

theorem IsWords.wrap (h : id.IsWords) : (⟨wrapInt64 id.hi, wrapInt64 id.lo⟩ : UniqueId) = id := by
  rw [wrapInt64_eq_self h.hi.1 h.hi.2, wrapInt64_eq_self h.lo.1 h.lo.2]

/-! ## Texts -/

theorem groups_text (id : UniqueId) : groups id.text
    = [hexField 8 (word id.hi / 16 ^ 8), hexField 4 (word id.hi / 16 ^ 4), hexField 4 (word id.hi),
      hexField 4 (word id.lo / 16 ^ 12), hexField 12 (word id.lo)] := by
  have hchars : id.text.toList = ['-'].intercalate
      [hexField 8 (word id.hi / 16 ^ 8), hexField 4 (word id.hi / 16 ^ 4), hexField 4 (word id.hi),
        hexField 4 (word id.lo / 16 ^ 12), hexField 12 (word id.lo)] := by
    simp [text, chars, List.intercalate]
  rw [groups, hchars]
  refine List.splitOn_intercalate '-' (fun group hgroup => ?_) (by simp)
  simp only [List.mem_cons, List.not_mem_nil, or_false] at hgroup
  rcases hgroup with rfl | rfl | rfl | rfl | rfl <;> exact dash_not_mem_hexField

theorem read?_text (id : UniqueId) : read? id.text = some ⟨wrapInt64 id.hi, wrapInt64 id.lo⟩ := by
  have hhi : hexField 8 (word id.hi / 16 ^ 8) ++ hexField 4 (word id.hi / 16 ^ 4)
      ++ hexField 4 (word id.hi) = hexField 16 (word id.hi) := by
    have hdiv : word id.hi / 16 ^ 8 = word id.hi / 16 ^ 4 / 16 ^ 4 :=
      (Nat.div_div_eq_div_mul _ (16 ^ 4) (16 ^ 4)).symm
    rw [hdiv, hexField_append, hexField_append]
  have hlo : hexField 4 (word id.lo / 16 ^ 12) ++ hexField 12 (word id.lo)
      = hexField 16 (word id.lo) := hexField_append 4 12 _
  rw [read?, groups_text, ofGroups?, hhi, hlo, readDigits_hexField, readDigits_hexField,
    Nat.mod_eq_of_lt (word_lt _), Nat.mod_eq_of_lt (word_lt _)]
  simp [wrapInt64_word]

/-- A text has 36 characters, in five groups of lowercase hexadecimal digits. The groups are enough
to know the id. -/
theorem text_tells (h : id.IsWords) :
    id.text.length = 36
      ∧ (groups id.text).map List.length = [8, 4, 4, 4, 12]
      ∧ (∀ group ∈ groups id.text, ∀ c ∈ group, c ∈ "0123456789abcdef".toList)
      ∧ read? id.text = some id
      ∧ ∀ other : UniqueId, other.IsWords → other.text = id.text → other = id := by
  have hread : ∀ {id : UniqueId}, id.IsWords → read? id.text = some id := fun h => by
    rw [read?_text, h.wrap]
  refine ⟨?_, ?_, ?_, hread h, fun other hother htext => ?_⟩
  · rw [← String.length_toList, text, String.toList_ofList, chars]
    simp only [List.length_append, List.length_cons, length_hexField]
  · simp only [groups_text, List.map_cons, List.map_nil, length_hexField]
  · rw [groups_text]
    intro group hgroup c hc
    simp only [List.mem_cons, List.not_mem_nil, or_false] at hgroup
    rcases hgroup with rfl | rfl | rfl | rfl | rfl <;> exact mem_hexField hc
  · refine Option.some.inj ?_
    rw [← hread hother, htext, hread h]

/-- The least word and the one with all bits set. -/
theorem text_tells_extremes :
    (⟨int64Min, -1⟩ : UniqueId).IsWords
      ∧ (⟨int64Min, -1⟩ : UniqueId).text = "80000000-0000-0000-ffff-ffffffffffff"
      ∧ read? "80000000-0000-0000-ffff-ffffffffffff" = some ⟨int64Min, -1⟩ := by
  have hwords : (⟨int64Min, -1⟩ : UniqueId).IsWords :=
    ⟨⟨by decide, by decide⟩, ⟨by decide, by decide⟩⟩
  have htext : (⟨int64Min, -1⟩ : UniqueId).text = "80000000-0000-0000-ffff-ffffffffffff" := by
    decide
  obtain ⟨-, -, -, hread, -⟩ := text_tells hwords
  exact ⟨hwords, htext, htext ▸ hread⟩

end UniqueId

end QueryHost
