import Mathlib.Algebra.Group.Nat.Defs
import Mathlib.Data.Nat.Log
import QueryHost.Decimal.Shortest

/-!
# Whole numbers that are reached by rounding

A ratio is rounded up to a whole number exactly if it is more than half way there from the one
below, or just half way and the number is even (`le_roundHalfEven_iff`). A binary64 magnitude is a
whole number of steps, and below `2 ^ 53` the steps of every whole number are a multiple of the
spacing there. So what is left of a rounded magnitude when its fraction is cut off is at least `n`
exactly if `n` is not farther above the magnitude than half of the spacing (`le_floor_rounded_iff`).
One part in `2 ^ 54` is not too far (`Reaches.of_shortfall`).
-/

namespace QueryHost

/-! ## The whole number nearest to a ratio -/

section Ratios

variable {num den m : Nat}

theorem roundHalfEven_zero (den : Nat) : roundHalfEven 0 den = 0 := by
  simp [roundHalfEven]

theorem roundHalfEven_mul_right {k : Nat} (hk : 0 < k) (num den : Nat) :
    roundHalfEven (num * k) (den * k) = roundHalfEven num den := by
  unfold roundHalfEven
  rw [Nat.mul_div_mul_right _ _ hk, Nat.mul_mod_mul_right]
  simp only [← Nat.mul_assoc, Nat.mul_lt_mul_right hk]

theorem roundHalfEven_mul_self (m : Nat) (hden : 0 < den) : roundHalfEven (m * den) den = m := by
  unfold roundHalfEven
  rw [Nat.mul_div_cancel _ hden, Nat.mul_mod_left]
  exact if_pos hden

/-- A ratio is rounded by a half at most. -/
theorem roundHalfEven_near (num : Nat) (hden : 0 < den) :
    2 * (roundHalfEven num den * den) ≤ 2 * num + den
      ∧ 2 * num ≤ 2 * (roundHalfEven num den * den) + den := by
  have hnum := Nat.div_add_mod' num den
  have hrest := Nat.mod_lt num hden
  unfold roundHalfEven
  generalize num / den = q at *
  generalize num % den = r at *
  have hnext : (q + 1) * den = q * den + den := Nat.succ_mul q den
  dsimp only
  split_ifs with hbelow habove
  · omega
  · omega
  · rcases Nat.mod_two_eq_zero_or_one q with hq | hq <;> rw [hq]
    · rw [Nat.add_zero]
      omega
    · omega

/-- A ratio is rounded up to a number if it is more than half way there, or just half way and the
number is even. -/
theorem le_roundHalfEven_iff (hden : 0 < den) :
    m ≤ roundHalfEven num den
      ↔ 2 * (m * den) < 2 * num + den ∨ 2 * (m * den) = 2 * num + den ∧ m % 2 = 0 := by
  have hnum := Nat.div_add_mod' num den
  have hrest := Nat.mod_lt num hden
  unfold roundHalfEven
  generalize num / den = q at *
  generalize num % den = r at *
  dsimp only
  rcases Nat.lt_trichotomy m (q + 1) with hm | rfl | hm
  · have hle : m * den ≤ q * den := Nat.mul_le_mul_right den (Nat.le_of_lt_succ hm)
    refine iff_of_true ?_ (.inl (by omega))
    split_ifs <;> omega
  · have hnext : (q + 1) * den = q * den + den := Nat.succ_mul q den
    split_ifs <;> omega
  · have hle : (q + 2) * den ≤ m * den := Nat.mul_le_mul_right den hm
    rw [Nat.add_mul] at hle
    refine iff_of_false ?_ (by omega)
    split_ifs <;> omega

end Ratios

namespace Binary64

/-! ## Spacings -/

section Spacings

variable {n e : Nat}

theorem spacing_pos (n : Nat) : 0 < spacing n := Nat.two_pow_pos _

theorem spacing_mono {m : Nat} (h : m ≤ n) : spacing m ≤ spacing n := by
  refine Nat.pow_le_pow_right Nat.two_pos (Nat.sub_le_sub_right ?_ 52)
  simpa only [Nat.log2_eq_log_two] using Nat.log_mono_right h

theorem spacing_eq_one (h : n < 2 ^ 52) : spacing n = 1 := by
  unfold spacing
  by_cases hn : n = 0
  · subst hn
    rfl
  · exact congrArg (Nat.pow 2) (Nat.sub_eq_zero_of_le (Nat.le_of_lt ((Nat.log2_lt hn).2 h)))

theorem spacing_mul_le (n : Nat) : spacing n * 2 ^ 52 ≤ max n (2 ^ 52) := by
  rcases Nat.lt_or_ge n (2 ^ 52) with hn | hn
  · rw [spacing_eq_one hn, Nat.one_mul]
    exact Nat.le_max_right _ _
  · have hpos : n ≠ 0 := by rintro rfl; simp at hn
    have hlog : 52 ≤ n.log2 := (Nat.le_log2 hpos).2 hn
    calc spacing n * 2 ^ 52 = 2 ^ (n.log2 - 52 + 52) := (Nat.pow_add 2 _ _).symm
      _ = 2 ^ n.log2 := by rw [Nat.sub_add_cancel hlog]
      _ ≤ n := Nat.log2_self_le hpos
      _ ≤ max n (2 ^ 52) := Nat.le_max_left _ _

theorem two_pow_le_spacing (h : 2 ^ (e + 52) ≤ n) : 2 ^ e ≤ spacing n := by
  have hpos : n ≠ 0 := fun hn => absurd (hn ▸ h) (Nat.not_le.2 (Nat.two_pow_pos _))
  exact Nat.pow_le_pow_right Nat.two_pos (Nat.le_sub_of_add_le ((Nat.le_log2 hpos).2 h))

theorem log2_div_two_pow (n k : Nat) : (n / 2 ^ k).log2 = n.log2 - k := by
  simp only [Nat.log2_eq_log_two]
  induction k with
  | zero => rw [pow_zero, Nat.div_one, Nat.sub_zero]
  | succ k ih => rw [pow_succ, ← Nat.div_div_eq_div_mul, Nat.log_div_base, ih, Nat.sub_sub]

/-- The spacing without the last digits of the number. -/
def spacingAbove (k n : Nat) : Nat := 2 ^ (k + (n / 2 ^ k).log2 - 52)

theorem spacing_eq_spacingAbove (h : 2 ^ e ≤ n) : spacing n = spacingAbove e n := by
  have hpos : n ≠ 0 := fun hn => absurd (hn ▸ h) (Nat.not_le.2 (Nat.two_pow_pos _))
  unfold spacingAbove
  rw [log2_div_two_pow, Nat.add_sub_cancel' ((Nat.le_log2 hpos).2 h)]
  rfl

theorem spacing_dvd (h : n < 2 ^ 53 * 2 ^ e) : spacing n ∣ 2 ^ e := by
  refine Nat.pow_dvd_pow 2 ?_
  by_cases hn : n = 0
  · subst hn
    simp
  · have := (Nat.log2_lt hn).2 ((Nat.pow_add 2 53 e).symm ▸ h)
    omega

/-- What is used of the exponents of one and of the first magnitude that is too large. -/
theorem exists_exponent : ∃ e, unit = 2 ^ (e + 53) ∧ overflow = 2 ^ (e + 53 + 1024) :=
  ⟨1021, by decide +kernel⟩

theorem two_pow_mul_unit_le_overflow : 2 ^ 54 * unit ≤ overflow := by
  obtain ⟨e, hunit, hoverflow⟩ := exists_exponent
  rw [hunit, hoverflow, ← Nat.pow_add]
  exact Nat.pow_le_pow_right Nat.two_pos (by omega)

theorem le_unit : 2 ^ 53 ≤ unit := by
  obtain ⟨e, he, -⟩ := exists_exponent
  rw [he]
  exact Nat.pow_le_pow_right Nat.two_pos (Nat.le_add_left 53 e)

theorem unit_pos : 0 < unit := (Nat.two_pow_pos 53).trans_le le_unit

theorem spacing_dvd_unit (h : n < 2 ^ 53 * unit) : spacing n ∣ unit := by
  obtain ⟨e, he, -⟩ := exists_exponent
  rw [he] at h ⊢
  exact spacing_dvd h

end Spacings

/-! ## What is left of a rounded magnitude -/

section Rounded

variable {num den steps n : Nat}

theorem ofSteps_mul_right {k : Nat} (hk : 0 < k) (n : Nat) :
    ofSteps (n * k) k
      = if roundToBinary64 n < overflow then some ⟨roundToBinary64 n⟩ else none := by
  unfold ofSteps roundToBinary64
  dsimp only
  rw [Nat.mul_div_cancel _ hk, Nat.mul_comm k, roundHalfEven_mul_right hk]

/-- Rounding takes the magnitude up to the whole number, or beyond: half of the spacing there is
enough for it, or more than enough. If it is just enough, the significand of the number has to be
even. -/
def Reaches (steps n : Nat) : Prop :=
  2 * (n * unit) < 2 * steps + spacing steps
    ∨ 2 * (n * unit) = 2 * steps + spacing steps ∧ n * unit / spacing steps % 2 = 0

theorem le_floor_rounded_iff (h : steps < 2 ^ 53 * unit) :
    n ≤ roundToBinary64 steps / unit ↔ Reaches steps n := by
  have hgap := spacing_pos steps
  obtain ⟨m, hm⟩ := Nat.dvd_mul_left_of_dvd (spacing_dvd_unit h) n
  unfold Reaches roundToBinary64
  dsimp only
  rw [Nat.le_div_iff_mul_le unit_pos]
  generalize n * unit = whole at *
  generalize spacing steps = gap at *
  subst hm
  rw [Nat.mul_comm gap m, Nat.mul_div_cancel _ hgap, Nat.mul_le_mul_right_iff hgap,
    le_roundHalfEven_iff hgap]

theorem Reaches.of_le (h : n * unit ≤ steps) : Reaches steps n :=
  .inl (by have := spacing_pos steps; omega)

theorem Reaches.not_of_lt (h : 2 * steps + spacing steps < 2 * (n * unit)) : ¬Reaches steps n :=
  fun hreaches => by
    unfold Reaches at hreaches
    generalize n * unit = whole at *
    generalize spacing steps = gap at *
    rcases hreaches with hlt | ⟨heq, -⟩ <;> omega

/-- The power of two above a number bounds a magnitude that is just short of the number. -/
theorem two_pow_clog_le_of_shortfall {e : Nat} (he : unit = 2 ^ (e + 53)) (hpos : 0 < n)
    (hn : n < 2 ^ 53) (h : 2 ^ 54 * (n * unit) ≤ 2 ^ 54 * steps + n * unit) :
    2 ^ (Nat.clog 2 n + e + 52) ≤ steps := by
  have hhalf : unit = 2 * 2 ^ (e + 52) := by rw [he, ← pow_succ']
  rw [Nat.add_assoc, Nat.pow_add]
  cases hc : Nat.clog 2 n with
  | zero =>
    obtain rfl : n = 1 :=
      Nat.le_antisymm (by simpa [hc] using Nat.le_pow_clog Nat.one_lt_two n) hpos
    omega
  | succ c =>
    have hlt : 2 ^ c < n := (Nat.lt_clog_iff_pow_lt Nat.one_lt_two).1 (hc ▸ Nat.lt_succ_self c)
    have hnext : 2 ^ c * unit + unit ≤ n * unit :=
      (Nat.succ_mul _ _).symm.trans_le (Nat.mul_le_mul_right unit hlt)
    have hsmall : 2 ^ c * unit ≤ 2 ^ 53 * unit :=
      Nat.mul_le_mul_right unit (hlt.le.trans hn.le)
    rw [Nat.pow_succ, Nat.mul_assoc, ← hhalf]
    clear he hhalf
    generalize 2 ^ c * unit = low at *
    generalize n * unit = whole at *
    omega

theorem exists_le_spacing_of_shortfall (hpos : 0 < n) (hn : n < 2 ^ 53)
    (h : 2 ^ 54 * (n * unit) ≤ 2 ^ 54 * steps + n * unit) :
    ∃ short, n * unit = short * 2 ^ 53 ∧ short ≤ spacing steps := by
  obtain ⟨e, he, -⟩ := exists_exponent
  refine ⟨n * 2 ^ e, by rw [he, Nat.pow_add, Nat.mul_assoc], ?_⟩
  calc n * 2 ^ e ≤ 2 ^ Nat.clog 2 n * 2 ^ e :=
        Nat.mul_le_mul_right _ (Nat.le_pow_clog Nat.one_lt_two n)
    _ = 2 ^ (Nat.clog 2 n + e) := (Nat.pow_add 2 _ _).symm
    _ ≤ spacing steps := two_pow_le_spacing (two_pow_clog_le_of_shortfall he hpos hn h)

/-- A whole number is reached from a magnitude that falls short of it by one part in `2 ^ 54`, or
less. -/
theorem Reaches.of_shortfall (hn : n < 2 ^ 53)
    (h : 2 ^ 54 * (n * unit) ≤ 2 ^ 54 * steps + n * unit) : Reaches steps n := by
  rcases Nat.eq_zero_or_pos n with rfl | hpos
  · exact .of_le (by rw [Nat.zero_mul]; exact Nat.zero_le steps)
  obtain ⟨short, hwhole, hgap⟩ := exists_le_spacing_of_shortfall hpos hn h
  have hpos := spacing_pos steps
  unfold Reaches
  generalize n * unit = whole at *
  generalize spacing steps = gap at *
  rcases hgap.lt_or_eq with hlt | rfl
  · left
    omega
  · -- Just half of the spacing may be left, and the significand is a power of two.
    have hle : 2 * whole ≤ 2 * steps + short := by omega
    have heven : whole / short % 2 = 0 := by
      rw [hwhole, Nat.mul_div_cancel_left _ hpos]
      omega
    exact hle.lt_or_eq.imp_right fun heq => ⟨heq, heven⟩

theorem roundToBinary64_of_dvd (h : spacing n ∣ n) : roundToBinary64 n = n := by
  unfold roundToBinary64
  dsimp only
  have hgap := spacing_pos n
  generalize spacing n = gap at *
  obtain ⟨m, rfl⟩ := h
  rw [Nat.mul_comm gap m, roundHalfEven_mul_self m hgap]

/-- The steps of a whole number below `2 ^ 53` are a multiple of the spacing there. -/
theorem roundToBinary64_mul_unit (h : n < 2 ^ 53) : roundToBinary64 (n * unit) = n * unit :=
  roundToBinary64_of_dvd (Nat.dvd_mul_left_of_dvd
    (spacing_dvd_unit ((Nat.mul_lt_mul_right unit_pos).2 h)) n)

end Rounded

end Binary64

end QueryHost
