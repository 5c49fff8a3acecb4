import Mathlib.Algebra.Group.Int.Defs
import Mathlib.Order.Bounds.Basic
import QueryHost.Machine.Facts
import QueryHost.Memory.Budget

/-!
# Budgets that are halved

A loop that halves a number of bytes while it is above a bound goes so many rounds and then ends
(`Halving`). From a number that is not negative it ends exactly if the bound is not negative
(`exists_halving_iff`): halved to zero it would be above any other. The rounds are as few as bring
the number down to the bound (`Halving.isLeast`). So an absolute budget for pages is its bytes
divided by the least power of two that takes them to half of the limit of the process, and a
percentage is taken as it is (`pageCacheBudget_halved`).
-/

namespace QueryHost

/-- The loop that halves `n` while it is above the bound ends after so many rounds, with `r`. -/
inductive Halving (bound : Int) : (rounds : Nat) → (n r : Int) → Prop
  | rest {n : Int} : n ≤ bound → Halving bound 0 n n
  | half {rounds : Nat} {n r : Int} :
    bound < n → Halving bound rounds (n.tdiv 2) r → Halving bound (rounds + 1) n r

/-! ## The loop -/

namespace Halving

variable {bound n r : Int} {rounds : Nat}

theorem div_two_pow_succ (n : Int) (k : Nat) : n / 2 ^ (k + 1) = n / 2 / 2 ^ k := by
  rw [Int.pow_succ', Int.ediv_ediv_of_nonneg (by decide)]

theorem eq_div (h : Halving bound rounds n r) (hn : 0 ≤ n) : r = n / 2 ^ rounds := by
  induction h with
  | rest => simp
  | half _ _ ih =>
    rw [Int.tdiv_eq_ediv_of_nonneg hn] at ih
    rw [ih (Int.ediv_nonneg hn (by decide)), div_two_pow_succ]

/-- The loop leaves a number as soon as one is down to the bound. -/
theorem isLeast (h : Halving bound rounds n r) (hn : 0 ≤ n) :
    IsLeast {k : Nat | n / 2 ^ k ≤ bound} rounds := by
  induction h with
  | rest hle => exact ⟨by simpa using hle, fun k _ => Nat.zero_le k⟩
  | half hlt _ ih =>
    rw [Int.tdiv_eq_ediv_of_nonneg hn] at ih
    obtain ⟨hle, hleast⟩ := ih (Int.ediv_nonneg hn (by decide))
    refine ⟨(div_two_pow_succ _ _).trans_le hle, fun k hk => ?_⟩
    cases k with
    | zero => exact absurd (show _ / 2 ^ 0 ≤ bound from hk) (by simpa using hlt)
    | succ k => exact Nat.succ_le_succ (hleast ((div_two_pow_succ _ _).symm.trans_le hk))

theorem halveTo_eq (h : Halving bound rounds n r) (hbound : 0 ≤ bound) : halveTo bound n = r := by
  induction h with
  | rest hle =>
    rw [halveTo, if_neg]
    exact fun hc => absurd hle (Int.not_le.2 hc.1)
  | half hlt _ ih =>
    have hpos := Int.lt_of_le_of_lt hbound hlt
    rw [halveTo, if_pos ⟨hlt, hpos⟩, ← Int.tdiv_eq_ediv_of_nonneg hpos.le, ih]

end Halving

theorem exists_halving {bound n : Int} (hbound : 0 ≤ bound) :
    ∃ rounds r, Halving bound rounds n r := by
  induction n using halveTo.induct bound with
  | case1 n hc ih =>
    obtain ⟨rounds, r, h⟩ := ih
    rw [← Int.tdiv_eq_ediv_of_nonneg hc.2.le] at h
    exact ⟨rounds + 1, r, .half hc.1 h⟩
  | case2 n hc => exact ⟨0, n, .rest (by omega)⟩

/-- Below a bound that is negative the loop would have to halve zero to something. -/
theorem exists_halving_iff {bound n : Int} (hn : 0 ≤ n) :
    (∃ rounds r, Halving bound rounds n r) ↔ 0 ≤ bound := by
  refine ⟨fun ⟨rounds, r, h⟩ => ?_, exists_halving⟩
  calc 0 ≤ n / 2 ^ rounds := Int.ediv_nonneg hn (Int.pow_nonneg (by decide))
    _ ≤ bound := (h.isLeast hn).1

/-! ## Budgets -/

section Budgets

variable {cs : List Char} {physical : Int} {b : Budget}

/-- A text is a percentage if it ends in the sign. -/
theorem splitUnit_percent {number : List Char} {u : BudgetUnit}
    (h : splitUnit cs = some (number, u)) : u = .percent ↔ cs.getLast? = some '%' := by
  unfold splitUnit at h
  cases hlast : cs.getLast? with
  | none =>
    simp only [hlast] at h
    obtain ⟨-, rfl⟩ := Prod.mk.inj (Option.some.inj h)
    simp
  | some c =>
    simp only [hlast] at h
    by_cases hc : c = '%'
    · rw [if_pos hc] at h
      obtain ⟨-, rfl⟩ := Prod.mk.inj (Option.some.inj h)
      simp [hc]
    · have hu : u ≠ .percent := by
        rw [if_neg hc] at h
        rintro rfl
        split_ifs at h
        · simp at h
        · split at h <;> simp at h
      simp [hc, hu]

theorem budgetOf?_cases (h : budgetOf? cs physical = some b) :
    (cs = [] ∧ b = ⟨0, false⟩)
      ∨ ∃ number u bytes, splitUnit cs = some (number, u)
        ∧ unitBytes number physical u = some bytes ∧ b = ⟨bytes, u == .percent⟩ := by
  unfold budgetOf? at h
  split_ifs at h with hempty
  · exact .inl ⟨List.isEmpty_iff.1 hempty, (Option.some.inj h).symm⟩
  · obtain ⟨⟨number, u⟩, hsplit, h⟩ := Option.bind_eq_some_iff.1 h
    obtain ⟨bytes, hbytes, h⟩ := Option.bind_eq_some_iff.1 h
    exact .inr ⟨number, u, bytes, hsplit, hbytes, (Option.some.inj h).symm⟩

theorem Binary64.bytes?_nonneg {m : Binary64} {bytes : Int} (h : m.bytes? = some bytes) :
    0 ≤ bytes := by
  unfold Binary64.bytes? at h
  split_ifs at h
  exact Option.some.inj h ▸ Int.natCast_nonneg _

theorem scaledBytes_nonneg {value : Binary64} {shift : Nat} {bytes : Int}
    (h : scaledBytes value shift = some bytes) : 0 ≤ bytes := by
  unfold scaledBytes at h
  obtain ⟨product, -, h⟩ := Option.bind_eq_some_iff.1 h
  exact Binary64.bytes?_nonneg h

/-- What is no percentage is not negative. -/
theorem unitBytes_nonneg {number : List Char} {u : BudgetUnit} {bytes : Int} (hu : u ≠ .percent)
    (h : unitBytes number physical u = some bytes) : 0 ≤ bytes := by
  cases u with
  | byte =>
    obtain ⟨v, -, hv⟩ := Option.bind_eq_some_iff.1 h
    split_ifs at hv with hnone hneg
    · exact (Option.some.inj hv).le
    · exact Option.some.inj hv ▸ Int.not_lt.1 hneg
  | scaled shift =>
    obtain ⟨numeral, -, h⟩ := Option.bind_eq_some_iff.1 h
    obtain ⟨value, -, h⟩ := Option.bind_eq_some_iff.1 h
    exact scaledBytes_nonneg h
  | percent => exact absurd rfl hu

theorem isPercent_of_budgetOf? (h : budgetOf? cs physical = some b) :
    b.isPercent = true ↔ cs.getLast? = some '%' := by
  rcases budgetOf?_cases h with ⟨rfl, rfl⟩ | ⟨number, u, bytes, hsplit, -, rfl⟩
  · simp
  · rw [← splitUnit_percent hsplit]
    exact beq_iff_eq

theorem bytes_nonneg_of_budgetOf? (h : budgetOf? cs physical = some b)
    (hb : b.isPercent = false) : 0 ≤ b.bytes := by
  rcases budgetOf?_cases h with ⟨-, rfl⟩ | ⟨number, u, bytes, -, hbytes, rfl⟩
  · exact Int.le_refl 0
  · exact unitBytes_nonneg (beq_eq_false_iff_ne.1 hb) hbytes

theorem resolveBudget_ok_iff {name spec : String} {mem : MemInfo} :
    resolveBudget name spec mem = .ok b ↔ budgetOf? (trim spec.toList) mem.physical = some b := by
  unfold resolveBudget
  cases h : budgetOf? (trim spec.toList) mem.physical <;> simp [h]

/-- A process limit is the physical memory, or more than zero. -/
theorem processLimit_cases {spec : String} {mem : MemInfo}
    (h : processLimit spec physical = .ok mem) :
    mem.physical = physical ∧ (mem.limit = physical ∨ 0 < mem.limit) := by
  unfold processLimit at h
  cases hb : resolveBudget "mem_limit" spec ⟨physical, physical⟩ with
  | error failure =>
    rw [hb] at h
    exact nomatch h
  | ok b =>
    rw [hb] at h
    obtain rfl := Except.ok.inj h
    refine ⟨rfl, ?_⟩
    dsimp only
    split_ifs with hc
    · exact .inl rfl
    · exact .inr (by omega)

/-- The limit of a process on a machine that has memory. -/
theorem Machine.memory_limit_pos {m : Machine} {spec : String} {mem : MemInfo}
    (h : m.memory spec = .ok mem) (hpos : 0 < mem.physical) : 0 < mem.limit := by
  unfold Machine.memory at h
  split at h
  · exact nomatch h
  · split at h
    · exact nomatch h
    · obtain ⟨hphysical, hlimit⟩ := processLimit_cases h
      exact hlimit.elim (fun heq => heq ▸ hphysical ▸ hpos) id

end Budgets

/-- The process limit of a machine that has memory is not negative. Below a limit that is not, a
budget for pages that is a percentage is taken as it is. Of an absolute one the loop of halvings
ends, after as few rounds as bring it down to half of the limit, and leaves the bytes divided by
that power of two. -/
theorem pageCacheBudget_halved (spec : String) (mem : MemInfo) :
    (∀ (m : Machine) (limitSpec : String), m.memory limitSpec = .ok mem → 0 < mem.physical →
        0 ≤ mem.limit)
      ∧ ∀ b, resolveBudget "storage_page_cache_limit" spec mem = .ok b → 0 ≤ mem.limit →
        (b.isPercent = true ↔ (trim spec.toList).getLast? = some '%')
        ∧ (b.isPercent = true → pageCacheBudget spec mem = .ok b)
        ∧ (b.isPercent = false →
          ∃ k, IsLeast {j : Nat | b.bytes / 2 ^ j ≤ mem.limit / 2} k
            ∧ Halving (mem.limit.tdiv 2) k b.bytes (b.bytes / 2 ^ k)
            ∧ pageCacheBudget spec mem = .ok ⟨b.bytes / 2 ^ k, false⟩) := by
  refine ⟨fun m limitSpec hm hpos => (Machine.memory_limit_pos hm hpos).le, fun b hb hlimit => ?_⟩
  have hresolved := resolveBudget_ok_iff.1 hb
  have htaken : pageCacheBudget spec mem = .ok (if b.isPercent then b
      else { b with bytes := halveTo (mem.limit.tdiv 2) b.bytes }) := by
    unfold pageCacheBudget
    rw [hb]
    rfl
  refine ⟨isPercent_of_budgetOf? hresolved, fun hpercent => ?_, fun habsolute => ?_⟩
  · rw [htaken, if_pos hpercent]
  · have hbytes := bytes_nonneg_of_budgetOf? hresolved habsolute
    have hhalf : mem.limit.tdiv 2 = mem.limit / 2 := Int.tdiv_eq_ediv_of_nonneg hlimit
    have hbound : 0 ≤ mem.limit.tdiv 2 := Int.tdiv_nonneg hlimit (by decide)
    obtain ⟨k, r, hk⟩ := (exists_halving_iff hbytes).2 hbound
    obtain rfl := hk.eq_div hbytes
    refine ⟨k, hhalf ▸ hk.isLeast hbytes, hk, ?_⟩
    rw [htaken, if_neg (by simp [habsolute]), hk.halveTo_eq hbound, habsolute]

/-- On a machine of 200 gigabytes, of which the process may take 100, three times its limit is
halved three times. -/
theorem pageCacheBudget_halved_thrice :
    processLimit "50%" 214748364800 = .ok ⟨107374182400, 214748364800⟩
      ∧ (0 : Int) ≤ 107374182400
      ∧ resolveBudget "storage_page_cache_limit" "300G" ⟨107374182400, 214748364800⟩
        = .ok ⟨322122547200, false⟩
      ∧ pageCacheBudget "300G" ⟨107374182400, 214748364800⟩ = .ok ⟨40265318400, false⟩ := by
  have hhalf : resolveBudget "mem_limit" "50%" ⟨214748364800, 214748364800⟩
      = .ok ⟨107374182400, true⟩ := resolveBudget_ok_iff.2 (by decide +kernel)
  have hb : resolveBudget "storage_page_cache_limit" "300G" ⟨107374182400, 214748364800⟩
      = .ok ⟨322122547200, false⟩ := resolveBudget_ok_iff.2 (by decide +kernel)
  obtain ⟨-, -, hhalved⟩ := (pageCacheBudget_halved "300G" ⟨107374182400, 214748364800⟩).2 _ hb
    (by decide)
  obtain ⟨k, hleast, -, hk⟩ := hhalved rfl
  obtain rfl : k = 3 := by
    refine hleast.unique ⟨by decide, fun j hj => ?_⟩
    by_contra hlt
    have : j = 0 ∨ j = 1 ∨ j = 2 := by omega
    rcases this with rfl | rfl | rfl <;> exact absurd hj (by decide)
  refine ⟨?_, by decide, hb, hk⟩
  unfold processLimit
  rw [hhalf]
  rfl

end QueryHost
