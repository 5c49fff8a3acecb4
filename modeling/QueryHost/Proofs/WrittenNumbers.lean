import Mathlib.Data.List.Induction
import Mathlib.Tactic.SplitIfs
import QueryHost.Text.Digits

/-!
# Whole numbers as they are written

A whole number is written as one or more decimal digits (`Digits`), with a plus or a minus before
them or with neither (`Signed`). Reading accepts exactly what is written so, with the value that the
digits have (`readInt_eq_some_iff`); a sign alone and the empty text are no numbers.
-/

namespace QueryHost

/-- The text is one or more decimal digits of the number. -/
inductive Digits : List Char → Nat → Prop
  | one {d : Nat} : d < 10 → Digits [d.digitChar] d
  | more {ds : List Char} {n d : Nat} :
    Digits ds n → d < 10 → Digits (ds ++ [d.digitChar]) (10 * n + d)

/-- The text is the number with an optional sign; of zero it may be either. -/
inductive Signed : List Char → Int → Prop
  | plain {ds : List Char} {n : Nat} : Digits ds n → Signed ds n
  | plus {ds : List Char} {n : Nat} : Digits ds n → Signed ('+' :: ds) n
  | minus {ds : List Char} {n : Nat} : Digits ds n → Signed ('-' :: ds) (-n)

/-! ## Digits -/

theorem decimalValue?_digitChar {d : Nat} (h : d < 10) : decimalValue? d.digitChar = some d := by
  have hall : ∀ d < 10, decimalValue? (Nat.digitChar d) = some d := by decide
  exact hall d h

theorem decimalValue?_eq_some_iff {c : Char} {d : Nat} :
    decimalValue? c = some d ↔ d < 10 ∧ c = d.digitChar := by
  refine ⟨fun h => ?_, fun ⟨hd, hc⟩ => hc ▸ decimalValue?_digitChar hd⟩
  unfold decimalValue? at h
  split_ifs at h with hc
  obtain rfl := Option.some.inj h
  have hlow : 48 ≤ c.toNat := hc.1
  have hhigh : c.toNat ≤ 57 := hc.2
  have hlt : c.toNat - 48 < 10 := by omega
  refine ⟨hlt, Char.toNat_inj.1 ?_⟩
  rw [Nat.toNat_digitChar_of_lt_ten hlt]
  omega

theorem readDigits_concat (base : Nat) (digit? : Char → Option Nat) (cs : List Char) (c : Char) :
    readDigits base digit? (cs ++ [c])
      = (readDigits base digit? cs).bind fun n => (digit? c).map (base * n + ·) := by
  unfold readDigits
  rw [List.foldlM_append]
  simp

theorem Digits.ne_nil {cs : List Char} {n : Nat} (h : Digits cs n) : cs ≠ [] := by
  cases h <;> simp

theorem Digits.exists_last {cs : List Char} {n : Nat} (h : Digits cs n) :
    ∃ d < 10, cs.getLast? = some d.digitChar := by
  cases h with
  | one hd => exact ⟨_, hd, rfl⟩
  | more _ hd => exact ⟨_, hd, by simp⟩

theorem Digits.read {cs : List Char} {n : Nat} (h : Digits cs n) :
    readDigits 10 decimalValue? cs = some n := by
  induction h with
  | one hd => simp [readDigits, decimalValue?_digitChar hd]
  | more _ hd ih => rw [readDigits_concat, ih, decimalValue?_digitChar hd]; rfl

theorem digits_of_read {cs : List Char} {n : Nat} (hne : cs ≠ [])
    (h : readDigits 10 decimalValue? cs = some n) : Digits cs n := by
  induction cs using List.reverseRecOn generalizing n with
  | nil => exact absurd rfl hne
  | append_singleton cs c ih =>
    rw [readDigits_concat] at h
    obtain ⟨m, hm, hvalue⟩ := Option.bind_eq_some_iff.1 h
    obtain ⟨d, hd, rfl⟩ := Option.map_eq_some_iff.1 hvalue
    obtain ⟨hlt, rfl⟩ := decimalValue?_eq_some_iff.1 hd
    by_cases hcs : cs = []
    · subst hcs
      obtain rfl : 0 = m := Option.some.inj hm
      simpa using Digits.one hlt
    · exact .more (ih hcs hm) hlt

/-- The number that the digits of a text have, if it is made of digits and has some. -/
def unsigned? (cs : List Char) : Option Nat :=
  if cs.isEmpty then none else readDigits 10 decimalValue? cs

theorem unsigned?_eq_some_iff {cs : List Char} {n : Nat} :
    unsigned? cs = some n ↔ Digits cs n := by
  unfold unsigned?
  by_cases hcs : cs = []
  · subst hcs
    exact iff_of_false (by simp) fun h => h.ne_nil rfl
  · rw [if_neg (by simpa using hcs)]
    exact ⟨digits_of_read hcs, Digits.read⟩

/-- The first character is a digit and no sign. -/
theorem Digits.head {cs : List Char} {n : Nat} (h : Digits cs n) :
    ∃ d < 10, cs.head? = some (Nat.digitChar d) := by
  induction h with
  | one hd => exact ⟨_, hd, rfl⟩
  | more _ _ ih =>
    obtain ⟨d, hd, hhead⟩ := ih
    exact ⟨d, hd, by rw [List.head?_append, hhead]; rfl⟩

theorem Digits.ne_sign_cons {cs ds : List Char} {n : Nat} (h : Digits cs n) :
    cs ≠ '-' :: ds ∧ cs ≠ '+' :: ds := by
  obtain ⟨d, hd, hhead⟩ := h.head
  have hsign : ∀ d < 10, Nat.digitChar d ≠ '-' ∧ Nat.digitChar d ≠ '+' := by decide
  constructor <;> rintro rfl
  · exact (hsign d hd).1 (Option.some.inj hhead).symm
  · exact (hsign d hd).2 (Option.some.inj hhead).symm

/-! ## The digits of a number -/

theorem readDigits_of_isDigit : ∀ {cs : List Char} (start : Nat), (∀ c ∈ cs, c.isDigit = true) →
    cs.foldlM (fun n c => (decimalValue? c).map (10 * n + ·)) start
      = some (Nat.ofDigitChars 10 cs start)
  | [], _, _ => rfl
  | c :: cs, start, h => by
    obtain ⟨hc, hcs⟩ := List.forall_mem_cons.1 h
    have hvalue : decimalValue? c = some (c.toNat - 48) := by
      simp only [Char.isDigit, Bool.and_eq_true, decide_eq_true_eq] at hc
      exact if_pos hc
    rw [List.foldlM_cons, hvalue, Nat.ofDigitChars_cons]
    exact readDigits_of_isDigit _ hcs

theorem isDigit_of_mem_toDigits {c : Char} {n : Nat} (h : c ∈ Nat.toDigits 10 n) :
    c.isDigit = true :=
  Nat.isDigit_of_mem_toDigits (by decide) (by decide) h

theorem digits_toDigits (n : Nat) : Digits (Nat.toDigits 10 n) n := by
  refine digits_of_read Nat.toDigits_ne_nil ?_
  rw [readDigits, readDigits_of_isDigit 0 fun _ => isDigit_of_mem_toDigits,
    Nat.ofDigitChars_ten_toDigits]

/-- A whole number is shown with its digits. -/
theorem digits_toString (n : Nat) : Digits (toString n).toList n := by
  rw [Nat.toString_eq_repr, Nat.repr_eq_ofList_toDigits, String.toList_ofList]
  exact digits_toDigits n

/-! ## Signs -/

theorem map_lifted (f : Int → Int) (m : Option Nat) :
    (do let n ← m; pure (n : Int) : Option Int).map f = m.map fun n : Nat => f n := by
  cases m <;> rfl

theorem readInt_minus (ds : List Char) :
    readInt ('-' :: ds) = (unsigned? ds).map fun n : Nat => -(n : Int) :=
  map_lifted (fun n => -n) (unsigned? ds)

theorem readInt_plus (ds : List Char) :
    readInt ('+' :: ds) = (unsigned? ds).map fun n : Nat => (n : Int) :=
  map_lifted (fun n => n) (unsigned? ds)

theorem readInt_plain {cs : List Char} (hminus : ∀ ds, cs ≠ '-' :: ds)
    (hplus : ∀ ds, cs ≠ '+' :: ds) :
    readInt cs = (unsigned? cs).map fun n : Nat => (n : Int) := by
  rw [← map_lifted (fun n => n) (unsigned? cs)]
  unfold readInt
  split
  · exact absurd rfl (hminus _)
  · exact absurd rfl (hplus _)
  · rfl

/-- `readInt` accepts exactly the texts that are written so. -/
theorem readInt_eq_some_iff {cs : List Char} {v : Int} : readInt cs = some v ↔ Signed cs v := by
  constructor
  · intro h
    by_cases hminus : ∃ ds, cs = '-' :: ds
    · obtain ⟨ds, rfl⟩ := hminus
      obtain ⟨n, hn, rfl⟩ := Option.map_eq_some_iff.1 (readInt_minus ds ▸ h)
      exact .minus (unsigned?_eq_some_iff.1 hn)
    by_cases hplus : ∃ ds, cs = '+' :: ds
    · obtain ⟨ds, rfl⟩ := hplus
      obtain ⟨n, hn, rfl⟩ := Option.map_eq_some_iff.1 (readInt_plus ds ▸ h)
      exact .plus (unsigned?_eq_some_iff.1 hn)
    rw [readInt_plain (not_exists.1 hminus) (not_exists.1 hplus)] at h
    obtain ⟨n, hn, rfl⟩ := Option.map_eq_some_iff.1 h
    exact .plain (unsigned?_eq_some_iff.1 hn)
  · rintro (hds | hds | hds)
    · rw [readInt_plain (fun ds => hds.ne_sign_cons.1) (fun ds => hds.ne_sign_cons.2),
        unsigned?_eq_some_iff.2 hds]
      rfl
    · rw [readInt_plus, unsigned?_eq_some_iff.2 hds]
      rfl
    · rw [readInt_minus, unsigned?_eq_some_iff.2 hds]
      rfl

/-- What is read is within the range of a signed word. -/
theorem readInt64_eq_some_iff {cs : List Char} {v : Int} :
    readInt64 cs = some v ↔ Signed cs v ∧ int64Min ≤ v ∧ v ≤ int64Max := by
  unfold readInt64
  rw [Option.filter_eq_some_iff, readInt_eq_some_iff]
  simp

theorem Signed.exists_last {cs : List Char} {v : Int} (h : Signed cs v) :
    ∃ d < 10, cs.getLast? = some (Nat.digitChar d) := by
  rcases h with (hds | hds | hds)
  · exact hds.exists_last
  all_goals
    obtain ⟨d, hd, hlast⟩ := hds.exists_last
    exact ⟨d, hd, by rw [List.getLast?_cons, hlast]; rfl⟩

end QueryHost
