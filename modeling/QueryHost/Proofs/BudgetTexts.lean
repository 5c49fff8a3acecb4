import QueryHost.Proofs.HalvedBudgets
import QueryHost.Proofs.WrittenNumbers

/-!
# What a budget may be written as

Every text is either a budget, of bytes that a signed word holds, or an invalid value of the config
that it was read for. A text without a percent sign or a multiple at its end is a budget exactly if
it is empty or a signed number that may have the letter for bytes after it, and of the negative
numbers only the one that stands for no budget (`resolveBudget_reads`).
-/

namespace QueryHost

variable {cs : List Char} {c : Char} {physical : Int} {b : Budget}

/-- The characters at the end of a text that ask for more than whole bytes. -/
def multipleUnits : List Char := ['%', 'k', 'K', 'm', 'M', 'g', 'G', 't', 'T']

/-- The text without the letter for bytes, if it ends in one. -/
def withoutByteUnit (cs : List Char) : List Char :=
  if cs.getLast? = some 'b' ∨ cs.getLast? = some 'B' then cs.dropLast else cs

/-! ## Units -/

theorem eq_of_toLower_eq {l : Char} (h : c.toLower = l) : c = l ∨ c = l.toUpper := by
  subst h
  unfold Char.toLower
  split_ifs with hc
  · have hlow := UInt32.le_iff_toNat_le.1 hc.1
    have hhigh := UInt32.le_iff_toNat_le.1 hc.2
    have hlower : (c.val + ('a'.val - 'A'.val)).toNat = c.val.toNat + 32 :=
      Nat.mod_eq_of_lt (Nat.lt_of_le_of_lt (Nat.add_le_add_right hhigh 32) (by decide))
    right
    apply Char.ext
    unfold Char.toUpper
    rw [dif_pos]
    · simp [UInt32.add_assoc]
    · exact ⟨UInt32.le_iff_toNat_le.2 (Nat.le_trans (Nat.add_le_add_right hlow 32) hlower.ge),
        UInt32.le_iff_toNat_le.2 (Nat.le_trans hlower.le (Nat.add_le_add_right hhigh 32))⟩
  · exact .inl rfl

/-- A text that asks for whole bytes ends in the letter for them, or in no letter, or is no budget.
-/
theorem splitUnit_byte (h : ∀ c ∈ cs.getLast?, c ∉ multipleUnits) :
    splitUnit cs = some (withoutByteUnit cs, .byte)
      ∨ splitUnit cs = none ∧ withoutByteUnit cs = cs
        ∧ ∃ c, cs.getLast? = some c ∧ c.isAlpha = true := by
  unfold splitUnit withoutByteUnit
  cases hlast : cs.getLast? with
  | none => simp
  | some c =>
    have hc := h c hlast
    simp only [multipleUnits, List.mem_cons, List.not_mem_nil, not_or] at hc
    simp only [Option.some.injEq]
    rw [if_neg hc.1]
    by_cases hb : c = 'b' ∨ c = 'B'
    · rcases hb with rfl | rfl <;> exact .inl rfl
    rw [if_neg hb]
    split_ifs with halpha
    · exact .inl rfl
    · refine .inr ⟨?_, rfl, c, rfl, by simpa using halpha⟩
      split
      · next hlower => exact absurd (eq_of_toLower_eq hlower) hb
      · next hlower => exact absurd (eq_of_toLower_eq hlower) (by simp_all)
      · next hlower => exact absurd (eq_of_toLower_eq hlower) (by simp_all)
      · next hlower => exact absurd (eq_of_toLower_eq hlower) (by simp_all)
      · next hlower => exact absurd (eq_of_toLower_eq hlower) (by simp_all)
      · rfl

theorem getLast?_trim (hlast : cs.getLast? = some c) (hc : isBlank c = false) :
    (trim cs).getLast? = some c := by
  obtain ⟨front, rfl⟩ := List.getLast?_eq_some_iff.1 hlast
  have hstops : (front ++ [c]).dropWhile isBlank = front.dropWhile isBlank ++ [c] := by
    rw [List.dropWhile_append]
    split_ifs with hfront
    · rw [List.dropWhile_cons_of_neg (by simp [hc]), List.isEmpty_iff.1 hfront, List.nil_append]
    · rfl
  rw [trim, hstops, List.reverse_append, List.reverse_singleton, List.singleton_append,
    List.dropWhile_cons_of_neg (by simp [hc]), List.reverse_cons, List.getLast?_concat]

theorem not_isBlank_of_isAlpha (h : c.isAlpha = true) : isBlank c = false := by
  have hrange : 65 ≤ c.toNat ∧ c.toNat ≤ 90 ∨ 97 ≤ c.toNat ∧ c.toNat ≤ 122 := by
    rcases Bool.or_eq_true_iff.1 h with hcase | hcase
    · exact .inl (of_decide_eq_true hcase)
    · obtain ⟨hlow, hhigh⟩ := Bool.and_eq_true_iff.1 hcase
      exact .inr ⟨of_decide_eq_true hlow, of_decide_eq_true hhigh⟩
  simp only [isBlank, blankRanges, List.any_cons, List.any_nil, Bool.or_eq_false_iff,
    Bool.and_eq_false_iff, decide_eq_false_iff_not, and_true]
  omega

theorem not_isAlpha_digitChar {d : Nat} (h : d < 10) : (Nat.digitChar d).isAlpha = false := by
  have hall : ∀ d < 10, (Nat.digitChar d).isAlpha = false := by decide
  exact hall d h

/-! ## Whole bytes -/

/-- `wholeBytes` reads the signed numbers from -1 on, and takes -1 for none. -/
theorem wholeBytes_eq_some_iff {bytes : Int} :
    wholeBytes cs = some bytes
      ↔ ∃ v, Signed cs v ∧ -1 ≤ v ∧ v ≤ int64Max ∧ bytes = if v = -1 then 0 else v := by
  unfold wholeBytes
  rw [Option.bind_eq_some_iff]
  refine exists_congr fun v => ?_
  rw [readInt64_eq_some_iff]
  simp only [int64Min]
  constructor
  · rintro ⟨⟨hv, -, hhigh⟩, hbytes⟩
    split_ifs at hbytes with hnone hneg
    · exact ⟨hv, by omega, hhigh, by rw [if_pos hnone, Option.some.inj hbytes]⟩
    · exact ⟨hv, by omega, hhigh, by rw [if_neg hnone, Option.some.inj hbytes]⟩
  · rintro ⟨hv, hlow, hhigh, rfl⟩
    refine ⟨⟨hv, by omega, hhigh⟩, ?_⟩
    split_ifs with hnone hneg
    · rfl
    · omega
    · rfl

theorem budgetOf?_eq (hcs : cs ≠ []) :
    budgetOf? cs physical = (splitUnit cs).bind fun split =>
      (unitBytes split.1 physical split.2).map fun bytes => ⟨bytes, split.2 == .percent⟩ := by
  unfold budgetOf?
  rw [if_neg (by simpa using hcs)]
  cases splitUnit cs with
  | none => rfl
  | some split => cases h : unitBytes split.1 physical split.2 <;> simp [h]

/-- Of the texts that ask for whole bytes, these are budgets. -/
theorem budgetOf?_byte_iff (h : ∀ c ∈ cs.getLast?, c ∉ multipleUnits) :
    budgetOf? cs physical = some b
      ↔ (cs = [] ∧ b = ⟨0, false⟩)
        ∨ ∃ v, Signed (trim (withoutByteUnit cs)) v ∧ -1 ≤ v ∧ v ≤ int64Max
          ∧ b = ⟨if v = -1 then 0 else v, false⟩ := by
  by_cases hcs : cs = []
  · subst hcs
    have hno : ∀ v, ¬Signed (trim (withoutByteUnit [])) v := fun v hv => by
      obtain ⟨d, -, hlast⟩ := hv.exists_last
      exact absurd hlast (by simp [withoutByteUnit, trim])
    simp [budgetOf?, hno, eq_comm]
  rw [budgetOf?_eq hcs]
  simp only [hcs, false_and, false_or]
  rcases splitUnit_byte h with hsplit | ⟨hsplit, hwhole, c, hlast, halpha⟩
  · rw [hsplit, Option.bind_some, Option.map_eq_some_iff]
    simp only [unitBytes, wholeBytes_eq_some_iff]
    constructor
    · rintro ⟨bytes, ⟨v, hv, hlow, hhigh, rfl⟩, rfl⟩
      exact ⟨v, hv, hlow, hhigh, rfl⟩
    · rintro ⟨v, hv, hlow, hhigh, rfl⟩
      exact ⟨_, ⟨v, hv, hlow, hhigh, rfl⟩, rfl⟩
  · rw [hsplit, hwhole]
    refine iff_of_false (by simp) ?_
    rintro ⟨v, hv, -⟩
    obtain ⟨d, hd, hdigit⟩ := hv.exists_last
    rw [getLast?_trim hlast (not_isBlank_of_isAlpha halpha)] at hdigit
    obtain rfl := Option.some.inj hdigit
    simp [not_isAlpha_digitChar hd] at halpha

/-! ## Ranges -/

theorem Binary64.bytes?_range {m : Binary64} {bytes : Int} (h : m.bytes? = some bytes) :
    0 ≤ bytes ∧ bytes ≤ int64Max := by
  refine ⟨Binary64.bytes?_nonneg h, ?_⟩
  unfold Binary64.bytes? at h
  split_ifs at h with hlt
  obtain rfl := Option.some.inj h
  simp only [int64Max]
  omega

theorem scaledBytes_range {value : Binary64} {shift : Nat} {bytes : Int}
    (h : scaledBytes value shift = some bytes) : 0 ≤ bytes ∧ bytes ≤ int64Max := by
  unfold scaledBytes at h
  obtain ⟨product, -, h⟩ := Option.bind_eq_some_iff.1 h
  exact Binary64.bytes?_range h

theorem percentOf_range {value : Binary64} {bytes : Int} (hphysical : 0 ≤ physical)
    (h : percentOf value physical = some bytes) : 0 ≤ bytes ∧ bytes ≤ int64Max := by
  unfold percentOf at h
  simp only [if_pos hphysical] at h
  obtain ⟨product, -, h⟩ := Option.bind_eq_some_iff.1 h
  exact Binary64.bytes?_range h

/-- What `unitBytes` gives is no less than zero and a signed word. -/
theorem unitBytes_range {number : List Char} {u : BudgetUnit} {bytes : Int}
    (hphysical : 0 ≤ physical) (h : unitBytes number physical u = some bytes) :
    0 ≤ bytes ∧ bytes ≤ int64Max := by
  cases u with
  | byte =>
    obtain ⟨v, -, hlow, hhigh, rfl⟩ := wholeBytes_eq_some_iff.1 h
    split_ifs with hv
    · exact ⟨Int.le_refl 0, by decide⟩
    · exact ⟨by omega, hhigh⟩
  | scaled shift =>
    obtain ⟨numeral, -, h⟩ := Option.bind_eq_some_iff.1 h
    obtain ⟨value, -, h⟩ := Option.bind_eq_some_iff.1 h
    exact scaledBytes_range h
  | percent =>
    obtain ⟨numeral, -, h⟩ := Option.bind_eq_some_iff.1 h
    obtain ⟨value, -, h⟩ := Option.bind_eq_some_iff.1 h
    exact percentOf_range hphysical h

theorem budget_range (hphysical : 0 ≤ physical) (h : budgetOf? cs physical = some b) :
    0 ≤ b.bytes ∧ b.bytes ≤ int64Max := by
  rcases budgetOf?_cases h with ⟨-, rfl⟩ | ⟨number, u, bytes, -, hbytes, rfl⟩
  · exact ⟨Int.le_refl 0, by decide⟩
  · exact unitBytes_range hphysical hbytes

theorem resolveBudget_cases (name spec : String) (mem : MemInfo) :
    (∃ b, budgetOf? (trim spec.toList) mem.physical = some b
        ∧ resolveBudget name spec mem = .ok b)
      ∨ budgetOf? (trim spec.toList) mem.physical = none
        ∧ resolveBudget name spec mem = .error (.invalidConfig name
          ("invalid memory spec '" ++ String.ofList (trim spec.toList) ++ "'")) := by
  unfold resolveBudget
  cases h : budgetOf? (trim spec.toList) mem.physical with
  | none => exact .inr ⟨rfl, by simp only [h]⟩
  | some b => exact .inl ⟨b, rfl, by simp only [h]⟩

/-- Whatever the text, it is a budget within the range of a signed word, and a percentage exactly if
it ends in a percent sign, or an invalid value. Which texts for whole bytes are budgets is known
exactly: the empty one, and a signed number that is not below the one for no budget. -/
theorem resolveBudget_reads (name spec : String) (mem : MemInfo) (hphysical : 0 ≤ mem.physical) :
    let cs := trim spec.toList
    ((∃ b, resolveBudget name spec mem = .ok b ∧ 0 ≤ b.bytes ∧ b.bytes ≤ int64Max
          ∧ (b.isPercent = true ↔ cs.getLast? = some '%'))
        ∨ resolveBudget name spec mem
          = .error (.invalidConfig name ("invalid memory spec '" ++ String.ofList cs ++ "'")))
      ∧ ((∀ c ∈ cs.getLast?, c ∉ multipleUnits) → ∀ b,
        resolveBudget name spec mem = .ok b
          ↔ (cs = [] ∧ b = ⟨0, false⟩)
            ∨ ∃ v, Signed (trim (withoutByteUnit cs)) v ∧ -1 ≤ v ∧ v ≤ int64Max
              ∧ b = ⟨if v = -1 then 0 else v, false⟩) := by
  intro cs
  refine ⟨?_, fun hbyte b => resolveBudget_ok_iff.trans (budgetOf?_byte_iff hbyte)⟩
  rcases resolveBudget_cases name spec mem with ⟨b, hb, hok⟩ | ⟨-, herror⟩
  · obtain ⟨hlow, hhigh⟩ := budget_range hphysical hb
    exact .inl ⟨b, hok, hlow, hhigh, isPercent_of_budgetOf? hb⟩
  · exact .inr herror

/-- A number with a sign and zeros before it, white space around it and the letter after it. -/
theorem resolveBudget_reads_padded : (0 : Int) ≤ 1024
    ∧ (∀ c ∈ (trim "\u3000+0042\t B\n".toList).getLast?, c ∉ multipleUnits)
    ∧ resolveBudget "mem_limit" "\u3000+0042\t B\n" ⟨1024, 1024⟩ = .ok ⟨42, false⟩ := by
  have htrim : trim "\u3000+0042\t B\n".toList = ['+', '0', '0', '4', '2', '\t', ' ', 'B'] := by
    decide
  have hbyte : ∀ c ∈ (trim "\u3000+0042\t B\n".toList).getLast?, c ∉ multipleUnits := by
    rw [htrim]
    simp [multipleUnits]
  have hnumber : Signed (trim (withoutByteUnit (trim "\u3000+0042\t B\n".toList))) 42 := by
    rw [htrim]
    exact readInt_eq_some_iff.1 (by decide)
  obtain ⟨-, hreads⟩ := resolveBudget_reads "mem_limit" "\u3000+0042\t B\n" ⟨1024, 1024⟩ (by decide)
  exact ⟨by decide, hbyte, (hreads hbyte _).2 (.inr ⟨42, hnumber, by decide, by decide, rfl⟩)⟩

end QueryHost
