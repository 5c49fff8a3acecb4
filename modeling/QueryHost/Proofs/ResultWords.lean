import QueryHost.Proofs.ResultPruning

/-!
# The result cache counts in words

The clock and the sizes of the result cache are words, and a call that takes one of them out of its
range gives nothing. What is taken off the total was put into it before, so no difference is below
zero (`Lists.erase?_eq`, `Lists.trim?_eq`). The clock counts the calls, and every update takes the
sum of size and elasticity, which are words each because megabytes are cut off where words end.
Their sum need not be one, and then no update succeeds (`counts_in_words_iff`). If it is one, and
the clock and the bytes stay in their range, the words show the list of the uses
(`words_follow_uses`).
-/

namespace QueryHost

theorem subWord?_of_le {a b : Nat} (h : b ≤ a) : subWord? a b = some (a - b) := if_pos h

/-! ## Recency maps -/

namespace Recency

variable {κ α : Type} [DecidableEq κ] {m : Recency κ α} {l : List (κ × Stamped α)}

theorem touch?_eq (m : Recency κ α) (k : κ) :
    m.touch? k = if m.clock + 1 ≤ word64Max then some (m.touch k) else none := by
  unfold touch? touch addWord?
  split_ifs
  · cases m.entries.get? k <;> rfl
  · rfl

theorem push?_eq (m : Recency κ α) (k : κ) (value : α) (weight : Nat) :
    m.push? k value weight
      = if m.clock + 1 ≤ word64Max ∧ m.total + weight ≤ word64Max then some (m.push k value weight)
        else none := by
  unfold push? push addWord?
  by_cases hclock : m.clock + 1 ≤ word64Max
  · by_cases htotal : m.total + weight ≤ word64Max
    · rw [if_pos hclock, if_pos htotal, if_pos ⟨hclock, htotal⟩]
      rfl
    · rw [if_pos hclock, if_neg htotal, if_neg (mt And.right htotal)]
      rfl
  · rw [if_neg hclock, if_neg (mt And.left hclock)]
    rfl

/-- What is taken off the total was put into it. -/
theorem Lists.weight_le (h : Lists m l) {k : κ} {e : Stamped α} (he : m.entries.get? k = some e) :
    e.weight ≤ m.total := by
  rw [h.total_eq, h.weight_eq he]
  exact Nat.le_add_left _ _

theorem Lists.erase?_eq (h : Lists m l) (k : κ) : m.erase? k = some (m.erase k).1 := by
  unfold erase? Recency.erase
  cases he : m.entries.get? k with
  | none => rfl
  | some e =>
    dsimp only
    rw [subWord?_of_le (h.weight_le he)]
    rfl

theorem trimOrder?_eq (bound : Nat) : ∀ (l : List (κ × Stamped α)) (m : Recency κ α),
    Lists { m with order := l.map fun e => (e.2.stamp, e.1) } l →
      trimOrder? bound m (l.map fun e => (e.2.stamp, e.1))
        = some (trimOrder bound m (l.map fun e => (e.2.stamp, e.1)))
  | [], _, _ => rfl
  | (k, e) :: l, m, h => by
    rw [List.map_cons, trimOrder?, trimOrder]
    split_ifs
    · rfl
    · have he : m.entries.get? k = some e := h.get?_iff.2 List.mem_cons_self
      have hweight : e.weight ≤ m.total := h.weight_le he
      simp only [he, subWord?_of_le hweight, Option.bind_eq_bind, Option.bind_some]
      exact trimOrder?_eq bound l _ h.drop_oldest

theorem Lists.trim?_eq (h : Lists m l) (bound : Nat) : m.trim? bound = some (m.trim bound) := by
  unfold trim? Recency.trim
  rw [h.order_eq]
  refine trimOrder?_eq bound l m ?_
  rw [← h.order_eq]
  exact h

theorem erase_clock (m : Recency κ α) (k : κ) : (m.erase k).1.clock = m.clock := by
  unfold Recency.erase
  split <;> rfl

theorem touch_clock (m : Recency κ α) (k : κ) : (m.touch k).1.clock = m.clock + 1 := by
  unfold touch
  dsimp only
  split <;> rfl

theorem trimOrder_clock (bound : Nat) : ∀ (order : List (Nat × κ)) (m : Recency κ α),
    (trimOrder bound m order).clock = m.clock
  | [], _ => rfl
  | (stamp, k) :: order, m => by
    unfold trimOrder
    split_ifs
    · rfl
    · exact trimOrder_clock bound order _

end Recency

/-! ## The cache -/

namespace ResultCall

def isUpdate : ResultCall → Bool
  | .update _ _ => true
  | _ => false

end ResultCall

namespace ResultList

/-- What an update makes of the list before it drops anything. -/
def grown (l : List (String × Bytes)) (key : String) (value : Bytes) : List (String × Bytes) :=
  without key l ++ [(key, value)]

end ResultList

namespace ResultCache

open Recency

/-- A call that gives nothing when a word overflows. -/
def call? (c : ResultCache) : ResultCall → Option (ResultCache × Option Bytes)
  | .update key value => (c.update? key value).map (·, none)
  | .fetch key => c.fetch? key
  | .clear => some (c.clear, none)

theorem fetch?_eq (c : ResultCache) (key : String) :
    c.fetch? key = if c.results.clock + 1 ≤ word64Max then some (c.fetch key) else none := by
  unfold fetch? fetch
  rw [touch?_eq]
  split_ifs <;> rfl

section Shows

variable {maxSize elasticity : Nat} {c : ResultCache} {u : List (String × Bytes)}

/-- The bytes that an update counts before it drops anything. -/
theorem Shows.total_grown (h : Shows maxSize elasticity c u) (key : String) (value : Bytes) :
    (c.results.erase key).1.total + value.length
      = ResultList.size (ResultList.grown u key value) := by
  obtain ⟨-, -, -, l, hl, hw, rfl⟩ := h
  rw [total_eq_size (hl.erase key).1 fun x hx => hw x (List.mem_filter.1 hx).1,
    map_entryOf_filter]
  simp [ResultList.size, ResultList.grown]

/-- If the sizes fit, `update?` is `update` as long as the clock and the bound are words. -/
theorem Shows.update?_eq (h : Shows maxSize elasticity c u) (key : String) (value : Bytes)
    (hfits : ResultList.size (ResultList.grown u key value) ≤ word64Max) :
    c.update? key value
      = if c.results.clock + 1 ≤ word64Max ∧ maxSize + elasticity ≤ word64Max
        then some (c.update key value) else none := by
  have htotal := h.total_grown key value
  obtain ⟨rfl, rfl, -, l, hl, hw, rfl⟩ := h
  have hgrown := hl.replace key value value.length
  have hpush := push?_eq (c.results.erase key).1 key value value.length
  rw [erase_clock, htotal] at hpush
  unfold ResultCache.update? ResultCache.update
  simp only [hl.erase?_eq, hpush, Option.bind_eq_bind, Option.bind_some]
  by_cases hclock : c.results.clock + 1 ≤ word64Max
  · by_cases hsum : c.maxSize + c.elasticity ≤ word64Max
    · rw [if_pos ⟨hclock, hfits⟩, if_pos ⟨hclock, hsum⟩]
      simp only [addWord?, if_pos hsum, Option.bind_some]
      split_ifs
      · rw [hgrown.trim?_eq]
        rfl
      · rfl
    · rw [if_pos ⟨hclock, hfits⟩, if_neg (mt And.right hsum)]
      simp only [addWord?, if_neg hsum, Option.bind_some, Option.bind_none]
  · rw [if_neg (mt And.left hclock), if_neg (mt And.left hclock)]
    rfl

theorem Shows.call?_eq (h : Shows maxSize elasticity c u) {k : ResultCall} (huse : k ≠ .clear)
    (hfits : ∀ key value, k = .update key value →
      ResultList.size (ResultList.grown u key value) ≤ word64Max) :
    c.call? k
      = if c.results.clock + 1 ≤ word64Max ∧ (k.isUpdate → maxSize + elasticity ≤ word64Max)
        then some (c.call k) else none := by
  cases k with
  | update key value =>
    simp only [ResultCache.call?, h.update?_eq key value (hfits key value rfl), ResultCall.isUpdate,
      forall_const]
    split_ifs <;> rfl
  | fetch key => simp [ResultCache.call?, fetch?_eq, ResultCall.isUpdate, ResultCache.call]
  | clear => exact absurd rfl huse

end Shows

theorem call_clock (c : ResultCache) {k : ResultCall} (huse : k ≠ .clear) :
    (c.call k).1.results.clock = c.results.clock + 1 := by
  cases k with
  | update key value =>
    unfold ResultCache.call ResultCache.update
    dsimp only
    split_ifs
    · exact (trimOrder_clock _ _ _).trans (congrArg (· + 1) (erase_clock _ _))
    · exact congrArg (· + 1) (erase_clock _ _)
  | fetch key => exact touch_clock _ _
  | clear => exact absurd rfl huse

/-- Whatever a run of calls puts into the cache, a word can count its bytes. -/
def BytesFit (c : ResultCache) (calls : List ResultCall) : Prop :=
  ∀ before key value after, calls = before ++ .update key value :: after →
    ResultList.size (ResultList.grown (callAll ResultCache.call c before).1.toList key value)
      ≤ word64Max

/-- A run counts in words exactly if its clock does and, should it update, the bound does. -/
theorem callAll?_eq {maxSize elasticity : Nat} : ∀ (calls : List ResultCall) {c : ResultCache}
    {u : List (String × Bytes)}, Shows maxSize elasticity c u → .clear ∉ calls →
      BytesFit c calls → c.results.clock ≤ word64Max →
      callAll? call? c calls
        = if c.results.clock + calls.length ≤ word64Max
            ∧ (calls.any ResultCall.isUpdate → maxSize + elasticity ≤ word64Max)
          then some (callAll ResultCache.call c calls) else none
  | [], c, u, _, _, _, hclock => by
    rw [if_pos ⟨hclock, fun h => by simp at h⟩]
    rfl
  | k :: calls, c, u, h, huses, hfit, hclock => by
    have huse : k ≠ .clear := fun hk => huses (hk ▸ List.mem_cons_self)
    have hfirst := h.call?_eq huse fun key value hk => by
      have := hfit [] key value calls (by rw [hk]; rfl)
      rwa [show (callAll ResultCache.call c []).1 = c from rfl, h.toList_eq] at this
    have hrest := callAll?_eq calls (h.call k).1 (fun hmem => huses (List.mem_cons_of_mem k hmem))
      (fun before key value after hcalls =>
        hfit (k :: before) key value after (by rw [hcalls]; rfl))
    rw [call_clock c huse] at hrest
    by_cases hcounts : c.results.clock + 1 ≤ word64Max
      ∧ (k.isUpdate → maxSize + elasticity ≤ word64Max)
    · have hall : (c.results.clock + 1 + calls.length ≤ word64Max
            ∧ (calls.any ResultCall.isUpdate → maxSize + elasticity ≤ word64Max))
          ↔ c.results.clock + (k :: calls).length ≤ word64Max
            ∧ ((k :: calls).any ResultCall.isUpdate → maxSize + elasticity ≤ word64Max) := by
        rw [List.length_cons, List.any_cons, Bool.or_eq_true]
        exact and_congr (by omega) ⟨fun hrest hany => hany.elim hcounts.2 hrest,
          fun hany hrest => hany (.inr hrest)⟩
      rw [if_pos hcounts] at hfirst
      simp only [callAll?, hfirst, hrest hcounts.1, hall, Option.bind_eq_bind, Option.bind_some]
      split_ifs <;> rfl
    · rw [if_neg hcounts] at hfirst
      simp only [callAll?, hfirst, Option.bind_eq_bind, Option.bind_none]
      refine (if_neg fun hall => hcounts ⟨?_, fun hk => hall.2 ?_⟩).symm
      · exact (Nat.add_le_add_left (Nat.succ_le_succ (Nat.zero_le _)) _).trans hall.1
      · rw [List.any_cons, hk, Bool.true_or]

theorem clock_call_le (c : ResultCache) (k : ResultCall) :
    (c.call k).1.results.clock ≤ c.results.clock + 1 := by
  by_cases hclear : k = .clear
  · subst hclear
    exact Nat.zero_le _
  · exact (call_clock c hclear).le

/-- While the clock can count the calls, words count what numbers of any size do. -/
theorem Shows.callAll?_eq_some {maxSize elasticity : Nat}
    (small : maxSize + elasticity ≤ word64Max) :
    ∀ {calls : List ResultCall} {c : ResultCache} {u : List (String × Bytes)},
      Shows maxSize elasticity c u → BytesFit c calls →
      c.results.clock + calls.length ≤ word64Max →
        callAll? call? c calls = some (callAll ResultCache.call c calls)
  | [], _, _, _, _, _ => rfl
  | k :: calls, c, u, h, hfit, hclock => by
    rw [List.length_cons] at hclock
    have hfirst : c.call? k = some (c.call k) := by
      by_cases hclear : k = .clear
      · subst hclear
        rfl
      · refine (h.call?_eq hclear fun key value hk => ?_).trans
          (if_pos ⟨by omega, fun _ => small⟩)
        have hbytes := hfit [] key value calls (by rw [hk]; rfl)
        rwa [show (callAll ResultCache.call c []).1 = c from rfl, h.toList_eq] at hbytes
    have hfit' : BytesFit (c.call k).1 calls := fun before key value after hcalls =>
      hfit (k :: before) key value after (by rw [hcalls]; rfl)
    have hle := clock_call_le c k
    have hrest := (h.call k).1.callAll?_eq_some small hfit' (by omega)
    simp only [callAll?, hfirst, hrest, Option.bind_eq_bind, Option.bind_some]
    rfl

/-- While the clock can count the calls and a word the bytes, the cache that counts in words answers
as the plain list does and has its entries. -/
theorem words_follow_uses (maxSize elasticity : Nat) (small : maxSize + elasticity ≤ word64Max)
    (calls : List ResultCall) (hfit : BytesFit { maxSize, elasticity } calls)
    (hclock : calls.length ≤ word64Max) :
    let plain := callAll (ResultList.call maxSize elasticity) [] calls
    ∃ run, callAll? call? { maxSize, elasticity } calls = some run ∧ run.2 = plain.2
      ∧ run.1.toList = plain.1 ∧ run.1.totalSize = ResultList.size plain.1
      ∧ run.1.totalSize ≤ maxSize + elasticity ∧ run.1.size = plain.1.length
      ∧ (plain.1.map (·.1)).Nodup := by
  intro plain
  have hstart := shows_new maxSize elasticity
  obtain ⟨h, hanswers⟩ := callAll_simulates
    (fun c u k (h : Shows maxSize elasticity c u) => h.call k) calls _ _ hstart
  exact ⟨_, hstart.callAll?_eq_some small hfit ((Nat.zero_add _).trans_le hclock), hanswers,
    h.toList_eq, h.totalSize_eq, h.total_le, h.size_eq, h.nodup_keys⟩

/-- An update leaves out nothing while the bytes are within size and elasticity. -/
theorem Shows.toList_update {maxSize elasticity : Nat} {c : ResultCache}
    {u : List (String × Bytes)} (h : Shows maxSize elasticity c u) {key : String} {value : Bytes}
    (hroom : ResultList.size (ResultList.grown u key value) ≤ maxSize + elasticity) :
    (c.update key value).toList = ResultList.grown u key value :=
  (h.update key value).toList_eq.trans (if_neg (Nat.not_lt.2 hroom))

/-- A run of updates and fetches whose bytes a word can count is the one that counts in numbers of
any size, exactly if the clock can count the calls and, once there is an update, the sum of size and
elasticity is a word as well. Otherwise it gives nothing. Nothing is dropped while the bytes are
within size and elasticity. -/
theorem counts_in_words_iff (maxMb elasticityMb : Nat) (calls : List ResultCall)
    (huses : .clear ∉ calls) (hfit : BytesFit (ofMegabytes maxMb elasticityMb) calls) :
    let start := ofMegabytes maxMb elasticityMb
    let run := callAll ResultCache.call start calls
    (callAll? call? start calls = some run
        ↔ calls.length ≤ word64Max
          ∧ (calls.any ResultCall.isUpdate → start.maxSize + start.elasticity ≤ word64Max))
      ∧ (callAll? call? start calls = some run ∨ callAll? call? start calls = none)
      ∧ ∀ key value,
        ResultList.size (ResultList.grown run.1.toList key value)
            ≤ start.maxSize + start.elasticity →
          (run.1.update key value).toList = ResultList.grown run.1.toList key value := by
  intro start run
  have hstart : Shows start.maxSize start.elasticity start [] := shows_new _ _
  have hwords := callAll?_eq calls hstart huses hfit (Nat.zero_le _)
  rw [show start.results.clock = 0 from rfl, Nat.zero_add] at hwords
  refine ⟨?_, ?_, fun key value hroom => ?_⟩
  · rw [hwords]
    split_ifs with h
    · exact iff_of_true rfl h
    · exact iff_of_false (by simp) h
  · rw [hwords]
    split_ifs
    · exact .inl rfl
    · exact .inr rfl
  · have hrun := (callAll_simulates (fun c u k (h : Shows start.maxSize start.elasticity c u) =>
      h.call k) calls _ _ hstart).1
    rw [← hrun.toList_eq] at hrun
    exact hrun.toList_update hroom

theorem update?_of_overflow {c : ResultCache} (h : word64Max < c.maxSize + c.elasticity)
    (key : String) (value : Bytes) : c.update? key value = none := by
  unfold ResultCache.update?
  rw [addWord?, if_neg (Nat.not_le.2 h)]
  cases c.results.erase? key with
  | none => rfl
  | some rest => simp

theorem callAll?_of_overflow {c : ResultCache} (h : word64Max < c.maxSize + c.elasticity)
    (key : String) (value : Bytes) (calls : List ResultCall) :
    callAll? call? c (.update key value :: calls) = none := by
  simp only [callAll?, ResultCache.call?, update?_of_overflow h, Option.map_none,
    Option.bind_eq_bind, Option.bind_none]

theorem size_grown_nil (key : String) (value : Bytes) :
    ResultList.size (ResultList.grown [] key value) = value.length := by
  simp [ResultList.size, ResultList.grown, ResultList.without]

theorem bytesFit_singleton {maxSize elasticity : Nat} {c : ResultCache}
    {u : List (String × Bytes)} (h : Shows maxSize elasticity c u) {key : String} {value : Bytes}
    (hfits : ResultList.size (ResultList.grown u key value) ≤ word64Max) :
    BytesFit c [.update key value] := by
  intro before key' value' after hcalls
  rcases List.append_eq_singleton_iff.1 hcalls.symm with ⟨rfl, hcall⟩ | ⟨-, hcall⟩
  · obtain ⟨hcall, -⟩ := List.cons.inj hcall
    obtain ⟨rfl, rfl⟩ := ResultCall.update.inj hcall
    rwa [show (callAll ResultCache.call c []).1 = c from rfl, h.toList_eq]
  · exact absurd hcall (List.cons_ne_nil _ _)

/-- A cache of one megabyte takes a value of two bytes. -/
theorem counts_in_words_small : .clear ∉ [ResultCall.update "a" [1, 2]]
    ∧ BytesFit (ofMegabytes 1 1) [.update "a" [1, 2]]
    ∧ callAll? call? (ofMegabytes 1 1) [.update "a" [1, 2]]
      = some (callAll ResultCache.call (ofMegabytes 1 1) [.update "a" [1, 2]]) := by
  have huses : .clear ∉ [ResultCall.update "a" [1, 2]] := by simp
  have hfit : BytesFit (ofMegabytes 1 1) [.update "a" [1, 2]] :=
    bytesFit_singleton (shows_new _ _) (by decide)
  exact ⟨huses, hfit, (counts_in_words_iff 1 1 _ huses hfit).1.2 ⟨by decide, fun _ => by decide⟩⟩

/-- A cache of one megabyte with an elasticity that is not to bind cannot be updated, although what
it would count is within both. -/
theorem update_overflows :
    let start := ofMegabytes 1 word64Max
    let value : Bytes := List.replicate 1048577 7
    BytesFit start [.update "a" value]
      ∧ ResultList.size (ResultList.grown start.toList "a" value)
        ≤ start.maxSize + start.elasticity
      ∧ callAll? call? start [.update "a" value] = none := by
  intro start value
  have hstart : Shows start.maxSize start.elasticity start [] := shows_new _ _
  have hsize : ResultList.size (ResultList.grown [] "a" value) = 1048577 :=
    (size_grown_nil "a" value).trans List.length_replicate
  have hover : word64Max < start.maxSize + start.elasticity := by decide
  refine ⟨bytesFit_singleton hstart (hsize.trans_le (by decide)), ?_,
    callAll?_of_overflow hover "a" value []⟩
  rw [hstart.toList_eq, hsize]
  exact (by decide : 1048577 ≤ word64Max).trans hover.le

end ResultCache

end QueryHost
