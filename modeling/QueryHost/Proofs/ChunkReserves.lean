import QueryHost.Proofs.BudgetTexts
import QueryHost.Proofs.WordBits

/-!
# What the chunk allocator may reserve

The smallest size of a chunk is looked at before the budget: if it is no power of two, that is an
internal failure whatever the budget is written as. Otherwise an unreadable budget is an invalid
value, and of a readable one the allocator gets the largest whole number of smallest chunks
(`chunkReserve_floors`).
-/

namespace QueryHost

/-- The size is one of the powers of two that a signed word holds. -/
def IsChunkSize (size : Int) : Prop := ∃ k ≤ 62, size = 2 ^ k

variable {minChunk : Int}

theorem chunkReserve_of_not_size (spec : String) (mem : MemInfo) (hword : minChunk ≤ int64Max)
    (h : ¬IsChunkSize minChunk) :
    chunkReserve spec minChunk mem = .error (.internal
      ("Config min_chunk_reserved_bytes must be a power-of-two: " ++ toString minChunk)) := by
  unfold chunkReserve checkPowerOfTwo
  rw [if_neg (mt (isPowerOfTwo_iff hword).1 h)]
  rfl

theorem chunkReserve_of_size (spec : String) (mem : MemInfo) (hword : minChunk ≤ int64Max)
    (h : IsChunkSize minChunk) :
    chunkReserve spec minChunk mem
      = (resolveBudget "chunk_reserved_bytes_limit" spec mem).map
        fun b => roundDown b.bytes minChunk := by
  unfold chunkReserve checkPowerOfTwo
  rw [if_pos ((isPowerOfTwo_iff hword).2 h)]
  cases resolveBudget "chunk_reserved_bytes_limit" spec mem <;> rfl

theorem roundDown_floors {value : Int} (hsize : IsChunkSize minChunk) (hlow : 0 ≤ value)
    (hhigh : value ≤ int64Max) :
    IsGreatest {m : Int | minChunk ∣ m ∧ m ≤ value} (roundDown value minChunk)
      ∧ 0 ≤ roundDown value minChunk ∧ roundDown value minChunk ≤ value
      ∧ value < roundDown value minChunk + minChunk := by
  obtain ⟨k, hk, rfl⟩ := hsize
  have hword : int64Min ≤ value := Int.le_trans (by decide) hlow
  have hgreatest := roundDown_isGreatest hk hword hhigh
  have hlost := Int.emod_lt_of_pos value (Int.pow_pos (by decide) : (0 : Int) < 2 ^ k)
  refine ⟨hgreatest, hgreatest.2 ⟨Int.dvd_zero _, hlow⟩, hgreatest.1.2, ?_⟩
  rw [roundDown_eq hk hword hhigh]
  omega

/-- The size decides between the two ways to fail, and of the bytes of the budget less than one
smallest chunk is lost. -/
theorem chunkReserve_floors (spec : String) (minChunk : Int) (mem : MemInfo)
    (hword : minChunk ≤ int64Max) (hphysical : 0 ≤ mem.physical) :
    let resolved := resolveBudget "chunk_reserved_bytes_limit" spec mem
    ((∃ reason, chunkReserve spec minChunk mem = .error (.internal reason))
        ↔ ¬IsChunkSize minChunk)
      ∧ ((∃ name reason, chunkReserve spec minChunk mem = .error (.invalidConfig name reason))
        ↔ IsChunkSize minChunk ∧ ∀ b, resolved ≠ .ok b)
      ∧ (IsChunkSize minChunk → ∀ b, resolved = .ok b →
        ∃ r, chunkReserve spec minChunk mem = .ok r
          ∧ IsGreatest {m : Int | minChunk ∣ m ∧ m ≤ b.bytes} r
          ∧ 0 ≤ r ∧ r ≤ b.bytes ∧ b.bytes < r + minChunk) := by
  intro resolved
  by_cases hsize : IsChunkSize minChunk
  · have heq := chunkReserve_of_size spec mem hword hsize
    rcases resolveBudget_cases "chunk_reserved_bytes_limit" spec mem with
      ⟨b, hb, hok⟩ | ⟨-, herror⟩
    · obtain ⟨hlow, hhigh⟩ := budget_range hphysical hb
      refine ⟨by simp [heq, hok, hsize, Except.map], by simp [heq, resolved, hok, Except.map], ?_⟩
      intro _ b' hb'
      obtain rfl : b = b' := Except.ok.inj (hok.symm.trans hb')
      exact ⟨_, by rw [heq, hok]; rfl, roundDown_floors hsize hlow hhigh⟩
    · simp [heq, resolved, herror, hsize, Except.map]
  · have heq := chunkReserve_of_not_size spec mem hword hsize
    simp [heq, hsize]

/-- Of ten thousand bytes two chunks of the smallest size may be kept; a size that is no power of
two is refused before the budget is read, and a power of two leaves it to the budget to be refused.
-/
theorem chunkReserve_floors_two : (4096 : Int) ≤ int64Max ∧ (0 : Int) ≤ 1
    ∧ resolveBudget "chunk_reserved_bytes_limit" "10000" ⟨1, 1⟩ = .ok ⟨10000, false⟩
    ∧ chunkReserve "10000" 4096 ⟨1, 1⟩ = .ok 8192
    ∧ (∃ reason, chunkReserve "12Q" 1000 ⟨1, 1⟩ = .error (.internal reason))
    ∧ (∃ name reason, chunkReserve "12Q" 4096 ⟨1, 1⟩ = .error (.invalidConfig name reason)) := by
  have hsize : IsChunkSize 4096 := ⟨12, by decide, by decide⟩
  have hother : ¬IsChunkSize 1000 := mt (isPowerOfTwo_iff (by decide)).2 (by decide)
  have hresolved : resolveBudget "chunk_reserved_bytes_limit" "10000" ⟨1, 1⟩
      = .ok ⟨10000, false⟩ := resolveBudget_ok_iff.2 (by decide)
  have hunread : ∀ b, resolveBudget "chunk_reserved_bytes_limit" "12Q" ⟨1, 1⟩ ≠ .ok b := by
    intro b hb
    have hno : budgetOf? (trim "12Q".toList) (MemInfo.mk 1 1).physical = none := by decide
    exact nomatch hno.symm.trans (resolveBudget_ok_iff.1 hb)
  obtain ⟨-, -, hfloors⟩ := chunkReserve_floors "10000" 4096 ⟨1, 1⟩ (by decide) (by decide)
  obtain ⟨r, hr, ⟨⟨⟨q, rfl⟩, -⟩, -⟩, -, hle, hlt⟩ := hfloors hsize _ hresolved
  obtain rfl : q = 2 := by
    dsimp only at hle hlt
    omega
  exact ⟨by decide, by decide, hresolved, hr,
    (chunkReserve_floors "12Q" 1000 ⟨1, 1⟩ (by decide) (by decide)).1.2 hother,
    (chunkReserve_floors "12Q" 4096 ⟨1, 1⟩ (by decide) (by decide)).2.1.2 ⟨hsize, hunread⟩⟩

end QueryHost
