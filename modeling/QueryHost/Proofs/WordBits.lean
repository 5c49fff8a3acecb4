import Mathlib.Algebra.Group.Int.Defs
import Mathlib.Algebra.Group.Nat.Defs
import Mathlib.Order.Bounds.Basic
import QueryHost.Memory.Budget

/-!
# Powers of two among the signed words

What is done with the bits of a word means what it is for. A word is above zero and has no bit in
common with the one below it exactly if it is one of the powers of two that a signed word holds
(`isPowerOfTwo_iff`). Clearing the bits below a power of two leaves the largest of its multiples
that is not above the word, also where the word is negative (`roundDown_isGreatest`).
-/

namespace QueryHost

/-! ## The test -/

theorem isPowerOfTwo_natCast (n : Nat) :
    isPowerOfTwo n = true ↔ 0 < n ∧ (n &&& (n - 1)) % 2 ^ 64 = 0 := by
  unfold isPowerOfTwo
  rw [Bool.and_eq_true_iff, decide_eq_true_iff, Int.natCast_pos]
  refine and_congr_right fun hpos => ?_
  rw [← Int.natCast_one, ← Int.natCast_sub hpos, beq_iff_eq, ← BitVec.toNat_inj]
  simp only [BitVec.ofInt_natCast, BitVec.toNat_and, BitVec.toNat_ofNat, Nat.zero_mod]
  rw [Nat.and_mod_two_pow]

theorem isPowerOfTwo_two_pow (k : Nat) : isPowerOfTwo ((2 ^ k : Nat) : Int) = true := by
  refine (isPowerOfTwo_natCast _).2 ⟨Nat.two_pow_pos k, ?_⟩
  rw [(Nat.ne_zero_and_sub_one_eq_zero_iff_isPowerOfTwo.2 ⟨k, rfl⟩).2]
  exact Nat.zero_mod _

/-- `isPowerOfTwo` tells the powers of two among the signed words. -/
theorem isPowerOfTwo_iff {value : Int} (hword : value ≤ int64Max) :
    isPowerOfTwo value = true ↔ ∃ k ≤ 62, value = 2 ^ k := by
  simp only [int64Max] at hword
  constructor
  · intro h
    obtain ⟨n, rfl⟩ := Int.eq_ofNat_of_zero_le (Int.le_of_lt (of_decide_eq_true
      (Bool.and_eq_true_iff.1 h).1))
    obtain ⟨hpos, hbits⟩ := (isPowerOfTwo_natCast n).1 h
    have hshort : (n &&& (n - 1)) < 2 ^ 64 := Nat.lt_of_le_of_lt Nat.and_le_left (by omega)
    rw [Nat.mod_eq_of_lt hshort] at hbits
    obtain ⟨k, rfl⟩ := Nat.ne_zero_and_sub_one_eq_zero_iff_isPowerOfTwo.1
      ⟨Nat.ne_of_gt hpos, hbits⟩
    refine ⟨k, Nat.lt_succ_iff.1 ((Nat.pow_lt_pow_iff_right (a := 2) (by decide)).1 ?_), by simp⟩
    omega
  · rintro ⟨k, -, rfl⟩
    simpa using isPowerOfTwo_two_pow k

/-! ## Clearing bits -/

section Clearing

/-- What is cleared and what is left make up the word. -/
theorem toNat_clear_add (x m : BitVec 64) : (x &&& ~~~m).toNat + (x &&& m).toNat = x.toNat := by
  have hdisjoint : (x &&& ~~~m) &&& (x &&& m) = 0#64 := by
    ext i
    simp only [BitVec.getElem_and, BitVec.getElem_not, BitVec.getElem_zero]
    cases x[i] <;> cases m[i] <;> rfl
  have hjoin : (x &&& ~~~m) ||| (x &&& m) = x := by
    ext i
    simp only [BitVec.getElem_or, BitVec.getElem_and, BitVec.getElem_not]
    cases x[i] <;> cases m[i] <;> rfl
  rw [← BitVec.toNat_add_of_and_eq_zero hdisjoint, BitVec.add_eq_or_of_and_eq_zero _ _ hdisjoint,
    hjoin]

variable {value : Int} {k : Nat}

theorem toNat_ofInt_below (hk : k ≤ 62) : (BitVec.ofInt 64 (2 ^ k - 1)).toNat = 2 ^ k - 1 := by
  have hpos : 1 ≤ 2 ^ k := Nat.one_le_two_pow
  have hshort : 2 ^ k - 1 < 2 ^ 64 :=
    (Nat.sub_lt hpos Nat.one_pos).trans (Nat.pow_lt_pow_right (by decide) (by omega))
  have hcast : (2 ^ k - 1 : Int) = ((2 ^ k - 1 : Nat) : Int) := by
    rw [Int.natCast_sub hpos]
    simp
  rw [hcast, BitVec.ofInt_natCast, BitVec.toNat_ofNat, Nat.mod_eq_of_lt hshort]

theorem toNat_clear (hk : k ≤ 62) (x : BitVec 64) :
    (x &&& ~~~BitVec.ofInt 64 (2 ^ k - 1)).toNat + x.toNat % 2 ^ k = x.toNat := by
  have hmod : (x &&& BitVec.ofInt 64 (2 ^ k - 1)).toNat = x.toNat % 2 ^ k := by
    rw [BitVec.toNat_and, toNat_ofInt_below hk, Nat.and_two_pow_sub_one_eq_mod]
  rw [← hmod, toNat_clear_add]

/-- The sign is not among the bits below the factor. -/
theorem toInt_clear (hk : k ≤ 62) (x : BitVec 64) :
    (x &&& ~~~BitVec.ofInt 64 (2 ^ k - 1)).toInt = x.toInt - x.toInt % 2 ^ k := by
  have hadd := toNat_clear hk x
  generalize x &&& ~~~BitVec.ofInt 64 (2 ^ k - 1) = y at hadd
  have hcast : (y.toNat : Int) + x.toNat % 2 ^ k = x.toNat := by exact_mod_cast hadd
  rw [BitVec.toInt_eq_toNat_cond, BitVec.toInt_eq_toNat_cond]
  by_cases hx : 2 * x.toNat < 2 ^ 64
  · rw [if_pos hx, if_pos (by omega)]
    omega
  · have hsign : 2 ^ 63 ≤ y.toNat := by
      have hsplit : 2 ^ 63 = 2 ^ (63 - k) * 2 ^ k := by
        rw [← Nat.pow_add, Nat.sub_add_cancel (by omega)]
      have hquot : 2 ^ (63 - k) ≤ x.toNat / 2 ^ k := by
        rw [Nat.le_div_iff_mul_le (Nat.two_pow_pos k), ← hsplit]
        omega
      have hfloor := Nat.div_add_mod' x.toNat (2 ^ k)
      calc 2 ^ 63 ≤ x.toNat / 2 ^ k * 2 ^ k := hsplit ▸ Nat.mul_le_mul_right _ hquot
        _ = y.toNat := by omega
    have hword : ((2 ^ 64 : Nat) : Int) = 2 ^ k * 2 ^ (64 - k) := by
      rw [← Int.pow_add, Nat.add_sub_cancel' (by omega)]
      rfl
    rw [if_neg hx, if_neg (by omega), hword, Int.sub_mul_emod_self_left]
    omega

theorem roundDown_eq (hk : k ≤ 62) (hlow : int64Min ≤ value) (hhigh : value ≤ int64Max) :
    roundDown value (2 ^ k) = value - value % 2 ^ k := by
  simp only [int64Min, int64Max] at hlow hhigh
  have hvalue : (BitVec.ofInt 64 value).toInt = value := by
    rw [BitVec.toInt_ofInt]
    exact Int.bmod_eq_of_le (by omega) (by omega)
  unfold roundDown
  rw [toInt_clear hk, hvalue]

theorem roundDown_isGreatest (hk : k ≤ 62) (hlow : int64Min ≤ value) (hhigh : value ≤ int64Max) :
    IsGreatest {m : Int | (2 ^ k : Int) ∣ m ∧ m ≤ value} (roundDown value (2 ^ k)) := by
  have hpos : (0 : Int) < 2 ^ k := Int.pow_pos (by decide)
  have hmultiple : value - value % 2 ^ k = 2 ^ k * (value / 2 ^ k) := by
    have := Int.mul_ediv_add_emod value (2 ^ k)
    omega
  rw [roundDown_eq hk hlow hhigh, hmultiple]
  refine ⟨⟨Int.dvd_mul_right _ _, Int.mul_ediv_self_le hpos.ne'⟩, ?_⟩
  rintro m ⟨⟨q, rfl⟩, hm⟩
  exact Int.mul_le_mul_of_nonneg_left ((Int.le_ediv_iff_mul_le hpos).2 (by rwa [Int.mul_comm]))
    hpos.le

end Clearing

end QueryHost
