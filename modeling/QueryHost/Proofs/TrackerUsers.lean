import Mathlib.Data.Int.ModEq
import QueryHost.Proofs.TrackerSums

/-!
# What one user of a tracker adds to its count

Where a user of a tracker has bytes in use, the trackers on the path count these bytes besides what
they would count without the user (`Charged`). Whatever others do keeps that (`Charged.call`), and
the user changes it by what it consumes and releases. Counts that wrap around on the way do no harm,
as they are right up to the number of words: a count that is a word in the end is right
(`Charged.current_of_mem`).
-/

namespace QueryHost

theorem wrapInt64_modEq (n : Int) : wrapInt64 n ≡ n [ZMOD word64Count] := Int.bmod_emod

theorem wrapInt64_congr {m n : Int} (h : m ≡ n [ZMOD word64Count]) : wrapInt64 m = wrapInt64 n := by
  rw [wrapInt64, wrapInt64, Int.bmod_def, Int.bmod_def, h.eq]

theorem wrapInt64_wrapInt64 (n : Int) : wrapInt64 (wrapInt64 n) = wrapInt64 n :=
  wrapInt64_congr (wrapInt64_modEq n)

namespace Trackers

section Call

variable (ts : Trackers) (c : TrackerCall) (t : TrackerId)

/-- What a call adds to what is in use at a tracker. -/
def inflow : Int := ts.share t c.consumes - ts.share t c.releases

/-- A call changes the count of a tracker by what flows to it. -/
theorem current_call_of_lt (ht : t < ts.nodes.length) :
    (ts.call c).current t = ts.current t ∧ ts.inflow c t = 0
      ∨ (ts.call c).current t = wrapInt64 (ts.current t + ts.inflow c t) := by
  unfold inflow
  have hlen : t < (ts.call c).nodes.length := by
    rw [← length_shape] at ht ⊢
    rw [shape_call, List.length_append]
    exact Nat.lt_add_right _ ht
  obtain ⟨n', hn'⟩ := exists_node? hlen
  rw [current_of_node? hn']
  rcases node?_call hn' with ⟨rfl, -⟩ | ⟨n, hn, hkind⟩
  · exact absurd ht (Nat.lt_irrefl _)
  · rw [current_of_node? hn]
    rcases hkind with ⟨hc, hr, rfl⟩ | ⟨hr, rfl⟩ | ⟨hc, rfl⟩
    · exact .inl ⟨rfl, by rw [hc, hr, Int.sub_zero]⟩
    · exact .inr (by rw [hr, Int.sub_zero]; rfl)
    · exact .inr (by rw [hc, Int.zero_sub]; rfl)

theorem current_call_modEq (ht : t < ts.nodes.length) :
    (ts.call c).current t ≡ ts.current t + ts.inflow c t [ZMOD word64Count] := by
  rcases current_call_of_lt ts c t ht with ⟨hcur, hin⟩ | hcur
  · rw [hcur, hin, Int.add_zero]
  · rw [hcur]
    exact wrapInt64_modEq _

theorem current_call_of_le (ht : ts.nodes.length ≤ t) : (ts.call c).current t = 0 := by
  cases hn : (ts.call c).node? t with
  | none => simp only [current, hn]
  | some n' =>
    rw [current_of_node? hn]
    rcases node?_call hn with ⟨-, hcur, -⟩ | ⟨n, hn', -⟩
    · exact hcur
    · exact absurd (lt_of_node? hn') (Nat.not_lt.2 ht)

/-- Each count is a word. -/
def Words (ts : Trackers) : Prop := ∀ t, wrapInt64 (ts.current t) = ts.current t

variable {ts} in
theorem Words.call (h : ts.Words) (c : TrackerCall) : (ts.call c).Words := by
  intro t
  by_cases ht : t < ts.nodes.length
  · rcases current_call_of_lt ts c t ht with ⟨hcur, -⟩ | hcur
    · rw [hcur, h t]
    · rw [hcur, wrapInt64_wrapInt64]
  · rw [current_call_of_le ts c t (Nat.le_of_not_lt ht)]
    rfl

end Call

theorem words_after (calls : List TrackerCall) : (after calls).Words := by
  induction calls using List.reverseRecOn with
  | nil => exact fun t => rfl
  | append_singleton calls c ih =>
    rw [after_snoc]
    exact ih.call c

theorem Valid.of_snoc {calls : List TrackerCall} {c : TrackerCall} (h : Valid (calls ++ [c])) :
    Valid calls := by
  generalize hcalls : calls ++ [c] = all at h
  cases h with
  | nil => exact absurd hcalls (List.append_ne_nil_of_right_ne_nil _ (List.cons_ne_nil _ _))
  | snoc h _ => exact (List.append_inj' hcalls rfl).1 ▸ h

/-- A tracker that nobody has used counts nothing. -/
theorem Valid.current_of_unused {calls : List TrackerCall} {t : TrackerId} (h : Valid calls) :
    consumed calls t = 0 → released calls t = 0 → (after calls).current t = 0 := by
  induction h with
  | nil => exact fun _ _ => rfl
  | @snoc calls c h hc ih =>
    intro hconsumed hreleased
    have hC0 : 0 ≤ consumed calls t := total_nonneg TrackerCall.atNamed_consumes h
    have hR0 : 0 ≤ released calls t := total_nonneg TrackerCall.atNamed_releases h
    have hC := total_snoc (t := t) TrackerCall.atNamed_consumes h hc
    have hR := total_snoc (t := t) TrackerCall.atNamed_releases h hc
    have hc0 := share_nonneg (after calls) t c.consumes
    have hr0 := share_nonneg (after calls) t c.releases
    simp only [consumed, released] at *
    have hzero := ih (by omega) (by omega)
    have hin : (after calls).inflow c t = 0 := by
      rw [inflow]
      omega
    rw [after_snoc]
    by_cases ht : t < (after calls).nodes.length
    · rcases current_call_of_lt (after calls) c t ht with ⟨hcur, -⟩ | hcur
      · rw [hcur, hzero]
      · rw [hcur, hzero, hin]
        rfl
    · exact current_call_of_le _ c t (Nat.le_of_not_lt ht)

/-! ## What is in use besides -/

section Charged

variable {others ts : Trackers} {t u : TrackerId} {n bytes : Int}

/-- In `ts`, `n` bytes are in use at `t` besides what is in use in `others`. -/
structure Charged (t : TrackerId) (n : Int) (others ts : Trackers) : Prop where
  shape : ts.shape = others.shape
  words : ts.Words
  current : ∀ u < others.nodes.length, ts.current u
    ≡ others.current u + (if u ∈ others.path t then n else 0) [ZMOD word64Count]

theorem charged_self (h : ts.Words) : Charged t 0 ts ts where
  shape := rfl
  words := h
  current u _ := by rw [ite_self, Int.add_zero]

theorem Charged.length_eq (h : Charged t n others ts) :
    ts.nodes.length = others.nodes.length := by
  rw [← length_shape, h.shape, length_shape]

theorem Charged.path_eq (h : Charged t n others ts) (u : TrackerId) :
    ts.path u = others.path u := by
  rw [path_eq_shape, h.shape, path_eq_shape]

theorem Charged.inflow_eq (h : Charged t n others ts) (c : TrackerCall) (u : TrackerId) :
    ts.inflow c u = others.inflow c u := by
  have hshare : ∀ p, ts.share u p = others.share u p := by
    intro p
    cases p with
    | none => rfl
    | some p => simp only [share, h.path_eq]
  rw [inflow, inflow, hshare, hshare]

/-- Others may do what they like, if the trackers on the path are there. -/
theorem Charged.call (h : Charged t n others ts) (ht : t < others.nodes.length)
    (hpath : ∀ u ∈ others.path t, u < others.nodes.length) (c : TrackerCall) :
    Charged t n (others.call c) (ts.call c) := by
  have hkept : (others.call c).path t = others.path t := by
    rw [path_eq_shape, shape_call, List.getElem?_append_left (by rwa [length_shape]), path_eq_shape]
  refine ⟨?_, h.words.call c, fun u hu => ?_⟩
  · have hnew : ts.newPath = others.newPath := by
      funext parent
      rw [newPath, newPath, h.length_eq, funext h.path_eq]
    rw [shape_call, shape_call, h.shape, hnew]
  · rw [hkept]
    by_cases hold : u < others.nodes.length
    · have hts := current_call_modEq ts c u (h.length_eq ▸ hold)
      have hothers := current_call_modEq others c u hold
      rw [h.inflow_eq] at hts
      calc (ts.call c).current u
          ≡ ts.current u + others.inflow c u [ZMOD word64Count] := hts
        _ ≡ others.current u + (if u ∈ others.path t then n else 0) + others.inflow c u
            [ZMOD word64Count] := (h.current u hold).add_right _
        _ = others.current u + others.inflow c u + (if u ∈ others.path t then n else 0) := by omega
        _ ≡ (others.call c).current u + (if u ∈ others.path t then n else 0)
            [ZMOD word64Count] := hothers.symm.add_right _
    · have hle := Nat.le_of_not_lt hold
      rw [if_neg fun hu => hold (hpath u hu), current_call_of_le others c u hle,
        current_call_of_le ts c u (h.length_eq ▸ hle)]
      exact .rfl

/-- The user makes a call that changes what is in use at `t` and above it. -/
theorem Charged.own (h : Charged t n others ts) {c : TrackerCall} (hnew : c.parentOfNew = none)
    (hin : ∀ u, others.inflow c u = if u ∈ others.path t then bytes else 0) :
    Charged t (n + bytes) others (ts.call c) := by
  refine ⟨?_, h.words.call c, fun u hu => ?_⟩
  · rw [shape_call, hnew, h.shape]
    exact List.append_nil _
  · have hts := current_call_modEq ts c u (h.length_eq ▸ hu)
    rw [h.inflow_eq, hin] at hts
    have hcur := (h.current u hu).add_right (if u ∈ others.path t then bytes else 0)
    have hsum : others.current u + (if u ∈ others.path t then n else 0)
          + (if u ∈ others.path t then bytes else 0)
        = others.current u + (if u ∈ others.path t then n + bytes else 0) := by
      split_ifs <;> omega
    exact hsum ▸ hts.trans hcur

theorem Charged.consume (h : Charged t n others ts) (hbytes : 0 ≤ bytes) :
    Charged t (n + bytes) others (ts.consume t bytes) := by
  refine h.own (c := .consume t bytes) rfl fun u => ?_
  simp only [inflow, TrackerCall.consumes, TrackerCall.releases, share, max_eq_left hbytes,
    Int.sub_zero]

theorem Charged.release (h : Charged t n others ts) (hbytes : 0 ≤ bytes) :
    Charged t (n - bytes) others (ts.release t bytes) := by
  refine h.own (c := .release t bytes) rfl fun u => ?_
  simp only [inflow, TrackerCall.consumes, TrackerCall.releases, share, max_eq_left hbytes,
    Int.zero_sub]
  split_ifs <;> omega

theorem Charged.current_of_not_mem (h : Charged t n others ts) (hwords : others.Words)
    (hu : u < others.nodes.length) (hpath : u ∉ others.path t) :
    ts.current u = others.current u := by
  have hcur := h.current u hu
  rw [if_neg hpath, Int.add_zero] at hcur
  rw [← h.words u, wrapInt64_congr hcur, hwords u]

/-- Where the sum is a word, it is what is in use. -/
theorem Charged.current_of_mem (h : Charged t n others ts) (hu : u < others.nodes.length)
    (hpath : u ∈ others.path t) (low : int64Min ≤ others.current u + n)
    (high : others.current u + n ≤ int64Max) : ts.current u = others.current u + n := by
  have hcur := h.current u hu
  rw [if_pos hpath] at hcur
  rw [← h.words u, wrapInt64_congr hcur, wrapInt64_eq_self low high]

end Charged

end Trackers

end QueryHost
