import Mathlib.Data.List.TakeWhile
import Mathlib.Data.Nat.ModEq
import Mathlib.Tactic.Linarith
import QueryHost.Proofs.BudgetTexts
import QueryHost.Proofs.NearestNumbers

/-!
# Percentages of a memory

A whole percentage is read exactly, rounded to binary64 as a share of one, and rounded again as a
share of the memory. What is left when the fraction is cut off is the whole part of the exact share
just if the second rounding takes the magnitude up to that number and not up to the next. For the
percentages whose share is rounded down too far there are memories of any kind where it does not;
for the others, only memories that no machine has (`percentages_exact_iff`).
-/

namespace QueryHost

open Binary64

variable {p P : Nat}

/-- The share of one, in steps, that a percentage is rounded to (`ofRatio_percent`). Its exponent is
found in the first seven bits of the quotient. -/
def percentShare (p : Nat) : Nat :=
  let gap := spacingAbove 1067 (p * unit / 100)
  roundHalfEven (p * unit) (100 * gap) * gap

/-- What a percentage of so many bytes is rounded to. -/
def percentBytes (p P : Nat) : Nat :=
  roundToBinary64 (percentShare p * P) / unit

/-- The budget that is written as `p` percent, on a machine of `P` bytes, is the whole part of the
exact share. -/
def PercentageIsExact (p P : Nat) : Prop :=
  ∀ (name : String) (limit : Int),
    resolveBudget name (toString p ++ "%") ⟨limit, P⟩ = .ok ⟨(p * P / 100 : Nat), true⟩

/-- The percentages whose share is rounded down by more than one part in `2 ^ 54`. -/
def shortPercentages : List Nat := [29, 35, 41, 47, 57, 58, 69, 70, 82, 94]

/-- The percentages that are exact of every memory below `2 ^ 53` bytes. -/
def exactPercentages : List Nat := [0, 1, 2, 4, 25, 50, 100]

/-! ## Texts -/

section Texts

variable {cs : List Char} {n : Nat}

theorem trim_eq_self (hhead : ∀ c ∈ cs.head?, isBlank c = false)
    (hlast : ∀ c ∈ cs.getLast?, isBlank c = false) : trim cs = cs := by
  have hstop : ∀ {ds : List Char}, (∀ c ∈ ds.head?, isBlank c = false) → ds.dropWhile isBlank = ds
    | [], _ => rfl
    | c :: ds, h => List.dropWhile_cons_of_neg (by simp [h c rfl])
  rw [trim, hstop hhead, hstop (by rwa [List.head?_reverse]), List.reverse_reverse]

theorem Digits.not_isBlank_head (h : Digits cs n) : ∀ c ∈ cs.head?, isBlank c = false := by
  have hdigit : ∀ d < 10, isBlank (Nat.digitChar d) = false := by decide
  obtain ⟨d, hd, hhead⟩ := h.head
  intro c hc
  obtain rfl := Option.some.inj (hhead.symm.trans hc)
  exact hdigit d hd

theorem Digits.trim_eq (h : Digits cs n) : trim cs = cs := by
  have hdigit : ∀ d < 10, isBlank (Nat.digitChar d) = false := by decide
  obtain ⟨d, hd, hlast⟩ := h.exists_last
  refine trim_eq_self h.not_isBlank_head fun c hc => ?_
  obtain rfl := Option.some.inj (hlast.symm.trans hc)
  exact hdigit d hd

theorem Digits.trim_percent (h : Digits cs n) : trim (cs ++ ['%']) = cs ++ ['%'] := by
  obtain ⟨d, hd, hhead⟩ := h.head
  refine trim_eq_self (fun c hc => h.not_isBlank_head c ?_) fun c hc => ?_
  · rwa [List.head?_append, hhead, Option.some_or, ← hhead] at hc
  · rw [List.getLast?_concat] at hc
    obtain rfl := Option.some.inj hc
    decide

theorem Digits.isDigit (h : Digits cs n) : ∀ c ∈ cs, Numeral.isDigit c = true := by
  have hdigit : ∀ d < 10, Numeral.isDigit (Nat.digitChar d) = true := by decide
  induction h with
  | one hd => simpa using hdigit _ hd
  | more _ hd ih =>
    intro c hc
    rcases List.mem_append.1 hc with hc | hc
    · exact ih c hc
    · exact List.mem_singleton.1 hc ▸ hdigit _ hd

/-- Digits are none of the words that stand for numbers. -/
theorem Digits.ne_word {word : List Char} (h : Digits cs n)
    (hword : ∃ c ∈ word.head?, c.isLower = true) : cs.map Char.toLower ≠ word := by
  have hlower : ∀ d < 10, (Nat.digitChar d).toLower.isLower = false := by decide
  obtain ⟨d, hd, hhead⟩ := h.head
  obtain ⟨c, hc, hcase⟩ := hword
  rintro rfl
  rw [List.head?_map, hhead] at hc
  obtain rfl := Option.some.inj hc
  rw [hlower d hd] at hcase
  cases hcase

/-- Digits alone are the numeral of their number. -/
theorem Digits.read_numeral (h : Digits cs n) :
    Numeral.read? cs = some (.finite false n cs.length 0) := by
  have hwhole : cs.takeWhile Numeral.isDigit = cs := List.takeWhile_eq_self_iff.2 h.isDigit
  have hrest : cs.dropWhile Numeral.isDigit = [] := List.dropWhile_eq_nil_iff.2 h.isDigit
  have hunsigned : Numeral.unsigned? false cs = some (.finite false n cs.length 0) := by
    unfold Numeral.unsigned?
    rw [if_neg, if_neg (h.ne_word ⟨'n', by decide, by decide⟩)]
    · simp [hwhole, hrest, h.ne_nil, h.read, Numeral.exponent?]
    · rintro (hword | hword)
      · exact h.ne_word ⟨'i', by decide, by decide⟩ hword
      · exact h.ne_word ⟨'i', by decide, by decide⟩ hword
  unfold Numeral.read?
  split
  · exact absurd rfl h.ne_sign_cons.1
  · exact absurd rfl h.ne_sign_cons.2
  · exact hunsigned

end Texts

/-! ## Shares of one -/

section Shares

theorem unit_eq_two_pow : unit = 2 ^ 7 * 2 ^ 1067 := by decide +kernel

/-- A hundredth of one, in steps, has its exponent in the bits that are looked at. -/
theorem two_pow_le_percent (hpos : 0 < p) : 2 ^ 1067 ≤ p * unit / 100 := by
  have hunit := unit_eq_two_pow
  have hone : unit ≤ p * unit := Nat.le_mul_of_pos_left unit hpos
  rw [Nat.le_div_iff_mul_le (by decide)]
  generalize 2 ^ 1067 = steps at *
  omega

/-- A share is rounded by half of the spacing around it, at most. -/
theorem percentShare_near (hpos : 0 < p) :
    2 * (100 * percentShare p) ≤ 2 * (p * unit) + 100 * spacing (p * unit / 100)
      ∧ 2 * (p * unit) ≤ 2 * (100 * percentShare p) + 100 * spacing (p * unit / 100) := by
  rw [spacing_eq_spacingAbove (two_pow_le_percent hpos)]
  have hgap : 0 < spacingAbove 1067 (p * unit / 100) := Nat.two_pow_pos _
  have hnear := roundHalfEven_near (p * unit) (Nat.mul_pos (by decide : 0 < 100) hgap)
  have hshare : 100 * percentShare p
      = roundHalfEven (p * unit) (100 * spacingAbove 1067 (p * unit / 100))
        * (100 * spacingAbove 1067 (p * unit / 100)) := by
    unfold percentShare
    dsimp only
    exact Nat.mul_left_comm _ _ _
  rwa [hshare]

theorem percentShare_zero : percentShare 0 = 0 := by
  unfold percentShare
  dsimp only
  rw [Nat.zero_mul, roundHalfEven_zero, Nat.zero_mul]

/-- So it is off by one part in `2 ^ 53`, at most. -/
theorem percentShare_near_self (p : Nat) :
    2 ^ 53 * (100 * percentShare p) ≤ 2 ^ 53 * (p * unit) + p * unit
      ∧ 2 ^ 53 * (p * unit) ≤ 2 ^ 53 * (100 * percentShare p) + p * unit := by
  rcases Nat.eq_zero_or_pos p with rfl | hpos
  · rw [percentShare_zero]
    omega
  obtain ⟨habove, hbelow⟩ := percentShare_near hpos
  have hlarge : 2 ^ 52 ≤ p * unit / 100 := by
    have hless : ∀ k, 52 ≤ k → 2 ^ 52 ≤ 2 ^ k := fun k => Nat.pow_le_pow_right Nat.two_pos
    exact (hless 1067 (by decide)).trans (two_pow_le_percent hpos)
  have hgap := spacing_mul_le (p * unit / 100)
  rw [max_eq_left hlarge] at hgap
  have hpart := Nat.mul_div_le (p * unit) 100
  generalize spacing (p * unit / 100) = gap at *
  constructor <;> omega

theorem two_pow_le_percentShare (hpos : 0 < p) : 2 ^ 1067 ≤ percentShare p := by
  have hnear := (percentShare_near_self p).2
  have hunit := unit_eq_two_pow
  have hone : unit ≤ p * unit := Nat.le_mul_of_pos_left unit hpos
  generalize 2 ^ 1067 = steps at *
  omega

/-- The whole of one is not rounded. -/
theorem percentShare_hundred : percentShare 100 = unit := by
  have hunit : 100 * unit / 100 = unit := Nat.mul_div_cancel_left unit (by decide)
  have habove := spacing_eq_spacingAbove (two_pow_le_percent (p := 100) (by decide))
  obtain ⟨m, hm⟩ := spacing_dvd_unit (n := unit) (by have := unit_pos; omega)
  unfold percentShare
  dsimp only
  rw [← habove, hunit]
  have hgap := spacing_pos unit
  generalize spacing unit = gap at *
  have hwhole : 100 * unit = m * (100 * gap) := by
    rw [hm, Nat.mul_comm gap m, Nat.mul_left_comm]
  rw [hwhole, roundHalfEven_mul_self m (Nat.mul_pos (by decide) hgap), hm, Nat.mul_comm]

/-- A share is rounded by half of the spacing below one, at most. -/
theorem percentShare_near_unit (hp : p ≤ 100) :
    2 ^ 54 * (100 * percentShare p) ≤ 2 ^ 54 * (p * unit) + 100 * unit
      ∧ 2 ^ 54 * (p * unit) ≤ 2 ^ 54 * (100 * percentShare p) + 100 * unit := by
  rcases Nat.eq_zero_or_pos p with rfl | hpos
  · rw [percentShare_zero]
    omega
  rcases hp.eq_or_lt with rfl | hlt
  · rw [percentShare_hundred]
    omega
  obtain ⟨e, he, -⟩ := exists_exponent
  obtain ⟨habove, hbelow⟩ := percentShare_near hpos
  have hless : p * unit / 100 < 2 ^ 53 * 2 ^ e := by
    rw [Nat.div_lt_iff_lt_mul (by decide), ← Nat.pow_add, Nat.add_comm 53, ← he, Nat.mul_comm]
    exact (Nat.mul_lt_mul_left unit_pos).2 hlt
  have hgap := Nat.le_of_dvd (Nat.two_pow_pos e) (spacing_dvd hless)
  rw [Nat.pow_add] at he
  generalize spacing (p * unit / 100) = gap at *
  generalize 2 ^ e = half at *
  constructor <;> omega

theorem percentShare_le_unit (hp : p ≤ 100) : percentShare p ≤ unit := by
  rcases hp.eq_or_lt with rfl | hlt
  · exact percentShare_hundred.le
  have hnear := (percentShare_near_unit hp).1
  have hpart : p * unit ≤ 99 * unit := Nat.mul_le_mul_right unit (Nat.le_of_lt_succ hlt)
  omega

theorem not_mem_shortPercentages_iff : ∀ p ≤ 100, (p ∉ shortPercentages
    ↔ 2 ^ 54 * (p * unit) ≤ 2 ^ 54 * (100 * percentShare p) + p * unit) := by
  decide +kernel

/-- The shares of the exact percentages are rounded up, if at all, and of the largest memory by less
than the part of the next byte that is missing at least. -/
theorem percentShare_of_exact : ∀ p ≤ 100, p ∈ exactPercentages →
    p * unit ≤ 100 * percentShare p
      ∧ 2 * (2 ^ 53 - 1) * (100 * percentShare p) + 100 * spacing (percentShare p * (2 ^ 53 - 1))
        < 2 * (2 ^ 53 - 1) * (p * unit) + 2 * (Nat.gcd p 100 * unit) := by
  decide +kernel

theorem ofRatio_percent (hp : p ≤ 100) : Binary64.ofRatio p 100 = some ⟨percentShare p⟩ := by
  have hfits : percentShare p < overflow :=
    calc percentShare p ≤ 1 * unit := (percentShare_le_unit hp).trans_eq (Nat.one_mul unit).symm
      _ < 2 ^ 54 * unit := (Nat.mul_lt_mul_right unit_pos).2 (by norm_num)
      _ ≤ overflow := two_pow_mul_unit_le_overflow
  have hround : roundHalfEven (p * unit) (100 * spacing (p * unit / 100)) * spacing (p * unit / 100)
      = percentShare p := by
    unfold percentShare
    rcases Nat.eq_zero_or_pos p with rfl | hpos
    · simp only [Nat.zero_mul, roundHalfEven_zero]
    · rw [spacing_eq_spacingAbove (two_pow_le_percent hpos)]
  unfold Binary64.ofRatio ofSteps
  dsimp only
  rw [hround, if_pos hfits]

theorem le_hundred_of_mem : ∀ p ∈ exactPercentages, p ≤ 100 := by decide

end Shares

/-! ## Shares of a memory -/

section Memories

theorem percent_steps_lt (hp : p ≤ 100) (hP : P < 2 ^ 53) :
    percentShare p * P < 2 ^ 53 * unit :=
  calc percentShare p * P ≤ unit * P := Nat.mul_le_mul_right P (percentShare_le_unit hp)
    _ < unit * 2 ^ 53 := Nat.mul_lt_mul_of_pos_left hP unit_pos
    _ = 2 ^ 53 * unit := Nat.mul_comm _ _

theorem le_percentBytes_iff {n : Nat} (hp : p ≤ 100) (hP : P < 2 ^ 53) :
    n ≤ percentBytes p P ↔ Reaches (percentShare p * P) n := by
  unfold percentBytes
  exact le_floor_rounded_iff (percent_steps_lt hp hP)

theorem percentBytes_eq_iff (hp : p ≤ 100) (hP : P < 2 ^ 53) :
    percentBytes p P = p * P / 100
      ↔ Reaches (percentShare p * P) (p * P / 100)
        ∧ ¬Reaches (percentShare p * P) (p * P / 100 + 1) := by
  rw [← le_percentBytes_iff hp hP, ← le_percentBytes_iff hp hP]
  omega

/-- Both roundings together are off by less than one byte, so the bytes are off by one at most. -/
theorem percentBytes_near (hp : p ≤ 100) (hP : P < 2 ^ 53) :
    p * P / 100 ≤ percentBytes p P + 1 ∧ percentBytes p P ≤ p * P / 100 + 1 := by
  obtain ⟨habove, hbelow⟩ := percentShare_near_unit hp
  have hgap := Nat.le_of_dvd unit_pos (spacing_dvd_unit (percent_steps_lt hp hP))
  have hmemory : P * unit ≤ 2 ^ 53 * unit := Nat.mul_le_mul_right unit hP.le
  have hwhole := Nat.mul_le_mul_right unit (Nat.mul_div_le (p * P) 100)
  have hrest := Nat.mul_le_mul_right unit (Nat.lt_mul_div_succ (p * P) (by decide : 0 < 100))
  have habove := Nat.mul_le_mul_right P habove
  have hbelow := Nat.mul_le_mul_right P hbelow
  have hunit := unit_pos
  constructor
  · rw [← Nat.sub_le_iff_le_add, le_percentBytes_iff hp hP]
    refine .of_le ?_
    rw [Nat.sub_mul, Nat.one_mul, Nat.sub_le_iff_le_add]
    linarith
  · rw [← Nat.not_lt, ← Nat.add_one_le_iff, le_percentBytes_iff hp hP]
    refine Reaches.not_of_lt ?_
    linarith

theorem percentBytes_lt (hp : p ≤ 100) (hP : P < 2 ^ 53) : percentBytes p P < 2 ^ 54 := by
  have hnear := (percentBytes_near hp hP).2
  have hshare : p * P / 100 ≤ P := by
    rw [Nat.div_le_iff_le_mul_add_pred (by decide)]
    exact Nat.le_add_right_of_le (Nat.mul_le_mul_right P hp)
  omega

/-- Of a memory that is not too large the bytes are not too many. -/
theorem percentBytes_le (hp : p ≤ 100) (hP : P < 2 ^ 53) (hsmall : p * P < 2 ^ 52) :
    percentBytes p P ≤ p * P / 100 := by
  rw [← Nat.not_lt, ← Nat.add_one_le_iff, le_percentBytes_iff hp hP]
  refine Reaches.not_of_lt ?_
  have habove := Nat.mul_le_mul_right P (percentShare_near_self p).1
  have hrest := Nat.mul_le_mul_right unit (Nat.lt_mul_div_succ (p * P) (by decide : 0 < 100))
  have hsteps := Nat.mul_le_mul_right unit hsmall
  have hgap := spacing_mul_le (percentShare p * P)
  have hunit := le_unit
  rcases le_max_iff.1 hgap with hgap | hgap <;> linarith

/-- They are not too few either, if the share is not rounded down too far. -/
theorem le_percentBytes (hp : p ≤ 100) (hP : P < 2 ^ 53) (hsmall : p * P < 2 ^ 52)
    (hshare : p ∉ shortPercentages) : p * P / 100 ≤ percentBytes p P := by
  rw [le_percentBytes_iff hp hP]
  by_cases hwhole : p * P % 100 = 0
  · have hshare := Nat.mul_le_mul_right P ((not_mem_shortPercentages_iff p hp).1 hshare)
    have hexact : 100 * (p * P / 100) * unit = p * P * unit := by
      rw [Nat.mul_div_cancel' (Nat.dvd_of_mod_eq_zero hwhole)]
    refine .of_shortfall (by omega) ?_
    linarith
  · -- A part of a byte is left over, which is more than what the roundings take away.
    have hbelow := Nat.mul_le_mul_right P (percentShare_near_self p).2
    have hpart : 100 * (p * P / 100) + 1 ≤ p * P := by omega
    have hpart := Nat.mul_le_mul_right unit hpart
    have hsteps := Nat.mul_le_mul_right unit hsmall.le
    refine .of_le ?_
    linarith

/-- Of any memory the bytes of these percentages are right. -/
theorem percentBytes_of_mem (h : p ∈ exactPercentages) (hP : P < 2 ^ 53) :
    percentBytes p P = p * P / 100 := by
  have hp := le_hundred_of_mem p h
  obtain ⟨hshare, hnext⟩ := percentShare_of_exact p hp h
  obtain ⟨extra, hover⟩ := Nat.exists_eq_add_of_le hshare
  have hsteps : 100 * (percentShare p * P) = p * P * unit + extra * P := by
    rw [← Nat.mul_assoc, hover, Nat.add_mul, Nat.mul_right_comm]
  rw [percentBytes_eq_iff hp hP]
  constructor
  · have hwhole := Nat.mul_le_mul_right unit (Nat.mul_div_le (p * P) 100)
    have hup := Nat.zero_le (extra * P)
    refine .of_le ?_
    linarith
  · have hrest : p * P + Nat.gcd p 100 ≤ 100 * (p * P / 100 + 1) := by
      refine Nat.ModEq.add_le_of_lt ?_ (Nat.lt_mul_div_succ _ (by decide : 0 < 100))
      exact (Nat.modEq_zero_iff_dvd.2 ((Nat.gcd_dvd_left p 100).mul_right P)).trans
        (Nat.modEq_zero_iff_dvd.2 ((Nat.gcd_dvd_right p 100).mul_right _)).symm
    have hrest := Nat.mul_le_mul_right unit hrest
    have hlast : P ≤ 2 ^ 53 - 1 := Nat.le_sub_one_of_lt hP
    have hgap := spacing_mono (Nat.mul_le_mul_left (percentShare p) hlast)
    have hup := Nat.mul_le_mul_left extra hlast
    refine Reaches.not_of_lt ?_
    rw [hover] at hnext
    linarith

end Memories

/-! ## Budgets -/

section Budgets

theorem splitUnit_concat_percent (cs : List Char) :
    splitUnit (cs ++ ['%']) = some (cs, .percent) := by
  simp [splitUnit]

theorem ofNat_of_lt (hP : P < 2 ^ 53) : Binary64.ofNat P = some ⟨P * unit⟩ := by
  have hsmall : P * unit < overflow :=
    calc P * unit < 2 ^ 54 * unit := (Nat.mul_lt_mul_right unit_pos).2 (hP.trans (by norm_num))
      _ ≤ overflow := two_pow_mul_unit_le_overflow
  have hone : P * unit = P * unit * 1 := (Nat.mul_one _).symm
  unfold Binary64.ofNat Binary64.ofRatio
  rw [hone, ofSteps_mul_right Nat.one_pos, roundToBinary64_mul_unit hP, if_pos hsmall, Nat.mul_one]

/-- The digits of a whole number are read exactly. -/
theorem magnitude?_of_lt (hp : p < 2 ^ 53) (length : Nat) :
    (Numeral.finite false p length 0).magnitude? = some ⟨p * unit⟩ := by
  have hdecimal : Binary64.ofDecimal p length 0 = some ⟨p * unit⟩ := by
    rcases Nat.eq_zero_or_pos p with rfl | hpos
    · exact congrArg (fun steps => some (Binary64.mk steps)) (Nat.zero_mul unit).symm
    · rw [← ofNat_of_lt hp]
      unfold Binary64.ofDecimal
      rw [if_neg (Nat.ne_of_gt hpos), if_neg (by decide), if_neg (by omega), if_pos (by decide)]
      exact congrArg (Binary64.ofRatio · 1) (Nat.mul_one p)
  unfold Numeral.magnitude?
  simp only [hdecimal]
  rfl

theorem percentOf_of_some {value share whole product : Binary64} {bytes : Int}
    (hshare : value.divNat 100 = some share) (hwhole : Binary64.ofNat P = some whole)
    (hproduct : share.mul whole = some product) (hbytes : product.bytes? = some bytes) :
    percentOf value P = some bytes := by
  unfold percentOf
  rw [if_pos (Int.natCast_nonneg P), Int.natAbs_natCast, hshare, hwhole]
  simp only [Option.bind_eq_bind, Option.bind_some]
  rw [hproduct, Option.bind_some, hbytes]

theorem percentOf_eq (hp : p ≤ 100) (hP : P < 2 ^ 53) :
    percentOf ⟨p * unit⟩ P = some (percentBytes p P : Int) := by
  have hfloor := percentBytes_lt hp hP
  have hshare : (⟨p * unit⟩ : Binary64).divNat 100 = some ⟨percentShare p⟩ := ofRatio_percent hp
  have hsmall : roundToBinary64 (percentShare p * P) < overflow :=
    calc roundToBinary64 (percentShare p * P) < 2 ^ 54 * unit :=
          (Nat.div_lt_iff_lt_mul unit_pos).1 hfloor
      _ ≤ overflow := two_pow_mul_unit_le_overflow
  have hproduct : (⟨percentShare p⟩ : Binary64).mul ⟨P * unit⟩
      = some ⟨roundToBinary64 (percentShare p * P)⟩ := by
    unfold Binary64.mul
    rw [← Nat.mul_assoc, ofSteps_mul_right unit_pos, if_pos hsmall]
  have hbytes : (⟨roundToBinary64 (percentShare p * P)⟩ : Binary64).bytes?
      = some (percentBytes p P : Int) := by
    unfold Binary64.bytes?
    exact if_pos (hfloor.trans (by norm_num))
  exact percentOf_of_some hshare (ofNat_of_lt hP) hproduct hbytes

theorem unitBytes_percent_of_some {cs : List Char} {physical bytes : Int} {numeral : Numeral}
    {value : Binary64} (hnumeral : Numeral.read? (trim cs) = some numeral)
    (hvalue : numeral.magnitude? = some value) (hbytes : percentOf value physical = some bytes) :
    unitBytes cs physical .percent = some bytes := by
  unfold unitBytes
  simp only [hnumeral, Option.bind_eq_bind, Option.bind_some]
  rw [hvalue, Option.bind_some, hbytes]

theorem budgetOf?_percent (hp : p ≤ 100) (hP : P < 2 ^ 53) :
    budgetOf? (trim (toString p ++ "%").toList) P = some ⟨percentBytes p P, true⟩ := by
  have hvalue := magnitude?_of_lt (hp.trans_lt (by norm_num)) (toString p).length
  have hdigits := digits_toString p
  have hnumeral : Numeral.read? (trim (toString p).toList)
      = some (.finite false p (toString p).length 0) := by
    rw [hdigits.trim_eq, hdigits.read_numeral, String.length_toList]
  rw [String.toList_append, show "%".toList = ['%'] from rfl, hdigits.trim_percent,
    budgetOf?_eq (by simp), splitUnit_concat_percent, Option.bind_some,
    unitBytes_percent_of_some hnumeral hvalue (percentOf_eq hp hP)]
  rfl

theorem percentageIsExact_iff_bytes (hp : p ≤ 100) (hP : P < 2 ^ 53) :
    PercentageIsExact p P ↔ percentBytes p P = p * P / 100 := by
  unfold PercentageIsExact
  simp only [resolveBudget_ok_iff, budgetOf?_percent hp hP, forall_const, Option.some.injEq,
    Budget.mk.injEq, and_true, Nat.cast_inj]

/-- What a percentage of so many bytes is rounded to, if neither is zero: the last digits of the
product do not matter for its exponent. -/
def quickBytes (p P : Nat) : Nat :=
  let gap := spacingAbove 1067 (percentShare p * P)
  roundHalfEven (percentShare p * P) gap * gap / unit

theorem percentBytes_eq (hpos : 0 < p) (hP : 0 < P) :
    percentBytes p P = quickBytes p P := by
  have hsteps := (two_pow_le_percentShare hpos).trans (Nat.le_mul_of_pos_right _ hP)
  unfold percentBytes roundToBinary64 quickBytes
  rw [spacing_eq_spacingAbove hsteps]

/-- Memories of which a percentage whose share is rounded down too far is a byte short. -/
def shortMemories : List Nat := [300, 2900, 4300]

/-- Memories past `2 ^ 52` bytes. Each percentage that is not exact throughout is wrong of one. -/
def largeMemories : List Nat :=
  [8930638061075693, 6516708660805107, 6985083022051639, 6196953087261802, 7120191010872754,
    6755399441055744, 7061644215716937, 6557241057451442, 6759903040683114, 4691249611844333]

theorem quickBytes_ne :
    (∀ p ∈ shortPercentages, p ≤ 100 ∧ 0 < p ∧ ∃ P ∈ shortMemories,
        0 < P ∧ P < 2 ^ 53 ∧ p * P < 2 ^ 52 ∧ quickBytes p P ≠ p * P / 100)
      ∧ ∀ p ≤ 100, p ∉ exactPercentages → 0 < p ∧ ∃ P ∈ largeMemories,
        0 < P ∧ P < 2 ^ 53 ∧ quickBytes p P ≠ p * P / 100 := by
  decide +kernel

theorem exists_short (hshort : p ∈ shortPercentages) :
    ∃ P < 2 ^ 53, p * P < 2 ^ 52 ∧ percentBytes p P ≠ p * P / 100 := by
  obtain ⟨hp, hpos, P, -, hPpos, hP, hsmall, hne⟩ := quickBytes_ne.1 p hshort
  exact ⟨P, hP, hsmall, percentBytes_eq hpos hPpos ▸ hne⟩

theorem exists_wrong (hp : p ≤ 100) (hexact : p ∉ exactPercentages) :
    ∃ P < 2 ^ 53, percentBytes p P ≠ p * P / 100 := by
  obtain ⟨hpos, P, -, hPpos, hP, hne⟩ := quickBytes_ne.2 p hp hexact
  exact ⟨P, hP, percentBytes_eq hpos hPpos ▸ hne⟩

/-- Of a memory below `2 ^ 53` bytes, a percentage is exact just if the product of the rounded share
is rounded up to the whole part of the exact share and not to the next number, and it is a byte off
at most. While the exact share is below a hundredth of `2 ^ 52` bytes, 40 tebibytes, only the
percentages whose share is rounded down too far can be wrong. Up to `2 ^ 53` bytes all but a few
can. -/
theorem percentages_exact_iff (p : Nat) (hp : p ≤ 100) :
    (∃ share : Binary64, Binary64.ofRatio p 100 = some share
        ∧ ∀ P : Nat, P < 2 ^ 53 → (PercentageIsExact p P
          ↔ Reaches (share.steps * P) (p * P / 100)
            ∧ ¬Reaches (share.steps * P) (p * P / 100 + 1)))
      ∧ (∀ P : Nat, P < 2 ^ 53 → ∀ (name : String) (limit : Int), ∃ bytes : Nat,
        resolveBudget name (toString p ++ "%") ⟨limit, P⟩ = .ok ⟨bytes, true⟩
          ∧ p * P / 100 ≤ bytes + 1 ∧ bytes ≤ p * P / 100 + 1)
      ∧ ((∀ P : Nat, P < 2 ^ 53 → p * P < 2 ^ 52 → PercentageIsExact p P) ↔ p ∉ shortPercentages)
      ∧ ((∀ P : Nat, P < 2 ^ 53 → PercentageIsExact p P) ↔ p ∈ exactPercentages) := by
  refine ⟨⟨_, ofRatio_percent hp, fun P hP => ?_⟩, fun P hP name limit => ?_,
    ⟨fun hall hshort => ?_, fun hshare P hP hsmall => ?_⟩, ⟨fun hall => ?_, fun hmem P hP => ?_⟩⟩
  · rw [percentageIsExact_iff_bytes hp hP, percentBytes_eq_iff hp hP]
  · exact ⟨percentBytes p P, resolveBudget_ok_iff.2 (budgetOf?_percent hp hP),
      percentBytes_near hp hP⟩
  · obtain ⟨P, hP, hsmall, hne⟩ := exists_short hshort
    exact hne ((percentageIsExact_iff_bytes hp hP).1 (hall P hP hsmall))
  · exact (percentageIsExact_iff_bytes hp hP).2
      (Nat.le_antisymm (percentBytes_le hp hP hsmall) (le_percentBytes hp hP hsmall hshare))
  · by_contra hmem
    obtain ⟨P, hP, hne⟩ := exists_wrong hp hmem
    exact hne ((percentageIsExact_iff_bytes hp hP).1 (hall P hP))
  · exact (percentageIsExact_iff_bytes hp hP).2 (percentBytes_of_mem hmem hP)

/-- Half of 100 gigabytes is exact. -/
theorem percentages_exact_half : 50 ≤ 100 ∧ PercentageIsExact 50 107374182400 := by
  obtain ⟨-, -, -, hexact⟩ := percentages_exact_iff 50 (by decide)
  exact ⟨by decide, hexact.2 (by decide) 107374182400 (by norm_num)⟩

/-- Of 100 gigabytes, 29 percent are a byte short. -/
theorem percentage_not_exact :
    resolveBudget "mem_limit" (toString 29 ++ "%") ⟨107374182400, 107374182400⟩
        = .ok ⟨31138512895, true⟩
      ∧ 29 * 107374182400 / 100 = 31138512896 ∧ ¬PercentageIsExact 29 107374182400 := by
  have hbytes : percentBytes 29 107374182400 = 31138512895 := by
    rw [percentBytes_eq (by norm_num) (by norm_num)]
    decide +kernel
  have hread := budgetOf?_percent (p := 29) (P := 107374182400) (by norm_num) (by norm_num)
  rw [hbytes] at hread
  refine ⟨resolveBudget_ok_iff.2 hread, by norm_num, ?_⟩
  rw [percentageIsExact_iff_bytes (by norm_num) (by norm_num), hbytes]
  norm_num

end Budgets

end QueryHost
