/-!
# Machine words

The ranges of words of 64 bits, sums and differences that are words, the signed word that a count
wraps around to, and powers of two that sizes are rounded up to.
-/

namespace QueryHost

/-- The range of signed words of 64 bits. -/
def int64Max : Int := 9223372036854775807
def int64Min : Int := -9223372036854775808

/-- The number of words of 64 bits, and the largest unsigned one. -/
def word64Count : Nat := 18446744073709551616
def word64Max : Nat := 18446744073709551615

/-- The sum of two words, if it is one. -/
def addWord? (a b : Nat) : Option Nat := if a + b ≤ word64Max then some (a + b) else none

/-- The difference of two words, if it is one. -/
def subWord? (a b : Nat) : Option Nat := if b ≤ a then some (a - b) else none

/-- The signed word of 64 bits that is congruent to `n`. -/
def wrapInt64 (n : Int) : Int := n.bmod word64Count

theorem wrapInt64_eq_self {n : Int} (low : int64Min ≤ n) (high : n ≤ int64Max) :
    wrapInt64 n = n := by
  simp only [int64Min, int64Max] at low high
  exact Int.bmod_eq_of_le (by simp only [word64Count]; omega) (by simp only [word64Count]; omega)

/-- The least exponent of a power of two that is at least `n`. -/
def ceilLog2 (n : Nat) : Nat := if n ≤ 1 then 0 else (n - 1).log2 + 1

theorem ceilLog2_le_iff {n k : Nat} : ceilLog2 n ≤ k ↔ n ≤ 1 <<< k := by
  rw [Nat.one_shiftLeft]
  unfold ceilLog2
  split
  · rename_i h
    exact iff_of_true (Nat.zero_le k) (Nat.le_trans h Nat.one_le_two_pow)
  · rw [Nat.succ_le_iff, Nat.log2_lt (by omega)]
    omega

end QueryHost
