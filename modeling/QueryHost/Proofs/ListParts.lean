import Mathlib.Data.List.Induction
import Mathlib.Data.List.Perm.Basic

/-!
# Parts of lists

What a list is, up to its order, beside an element that is taken out of it, and what the elements of
several lists are when one of the lists is exchanged (`perm_flatten_set`). A list that is parted at
an element and grows at its end is parted there still, or among what is new
(`append_eq_append_cons`, `exists_split_snoc`), and what held last in it holds last still, or its
last element changes it (`heldLast_snoc`). What holds at all its prefixes holds at the empty one and
at those of its tail (`forall_prefix_cons`). A part of a list without repetitions is known by what
is in it (`eq_filter_of_sublist`).
-/

namespace QueryHost

variable {α : Type}

theorem perm_cons_eraseIdx {l : List α} {i : Nat} {a : α} (h : l[i]? = some a) :
    l.Perm (a :: l.eraseIdx i) := by
  obtain ⟨hi, rfl⟩ := List.getElem?_eq_some_iff.1 h
  exact (List.getElem_cons_eraseIdx_perm hi).symm

theorem dropLast_append_getLast? (l : List α) : l.dropLast ++ l.getLast?.toList = l := by
  rcases l.eq_nil_or_concat with rfl | ⟨l, a, rfl⟩ <;> simp

theorem append_eq_append_cons {l new before after : List α} {a : α}
    (h : l ++ new = before ++ a :: after) :
    (∃ mid, l = before ++ a :: mid ∧ after = mid ++ new)
      ∨ ∃ mid, before = l ++ mid ∧ new = mid ++ a :: after := by
  rcases List.append_eq_append_iff.1 h with ⟨mid, hbefore, hnew⟩ | ⟨mid, hl, hafter⟩
  · exact .inr ⟨mid, hbefore, hnew⟩
  · cases mid with
    | nil => exact .inr ⟨[], by simpa using hl.symm, by simpa using hafter.symm⟩
    | cons b mid =>
      obtain ⟨rfl, rfl⟩ := List.cons.inj hafter
      exact .inl ⟨mid, hl, rfl⟩

/-- A list that grows at its end is parted as it was, or before the new element. -/
theorem exists_split_concat {P : List α → α → List α → Prop} {l : List α} {c : α} :
    (∃ before a after, l ++ [c] = before ++ a :: after ∧ P before a after)
      ↔ (∃ before a after, l = before ++ a :: after ∧ P before a (after ++ [c])) ∨ P l c [] := by
  constructor
  · rintro ⟨before, a, after, h, hP⟩
    rcases append_eq_append_cons h with ⟨mid, rfl, rfl⟩ | ⟨mid, rfl, hnew⟩
    · exact .inl ⟨before, a, mid, rfl, hP⟩
    · cases mid with
      | nil =>
        obtain ⟨rfl, rfl⟩ := List.cons.inj hnew
        exact .inr (by rwa [List.append_nil] at hP)
      | cons d mid => simp at hnew
  · rintro (⟨before, a, after, rfl, hP⟩ | hP)
    · exact ⟨before, a, after ++ [c], by simp, hP⟩
    · exact ⟨l, c, [], rfl, hP⟩

theorem exists_split_snoc {P : List α → α → Prop} {l : List α} {c : α} :
    (∃ before a after, l ++ [c] = before ++ a :: after ∧ P before a)
      ↔ (∃ before a after, l = before ++ a :: after ∧ P before a) ∨ P l c :=
  exists_split_concat (P := fun before a _ => P before a)

/-- The last element that `P` holds of, after those before it, gives `b`. -/
def HeldLast {β : Type} (P : List α → α → β → Prop) (l : List α) (b : β) : Prop :=
  ∃ before a after, l = before ++ a :: after ∧ P before a b
    ∧ ¬ ∃ mid c rest, after = mid ++ c :: rest ∧ ∃ b', P (before ++ a :: mid) c b'

/-- What `HeldLast` after one more element: it gives a value itself, or gives none and the last one
stands. -/
theorem heldLast_snoc {β : Type} {P : List α → α → β → Prop} {l : List α} {c : α} {b : β} :
    HeldLast P (l ++ [c]) b ↔ P l c b ∨ (HeldLast P l b ∧ ∀ b', ¬ P l c b') := by
  have hrest (before : List α) (a : α) (after : List α) :
      (¬ ∃ mid d rest, after ++ [c] = mid ++ d :: rest ∧ ∃ b', P (before ++ a :: mid) d b')
        ↔ (¬ ∃ mid d rest, after = mid ++ d :: rest ∧ ∃ b', P (before ++ a :: mid) d b')
          ∧ ∀ b', ¬ P (before ++ a :: after) c b' := by
    rw [exists_split_snoc (P := fun mid d => ∃ b', P (before ++ a :: mid) d b'), not_or]
    exact and_congr_right fun _ => not_exists
  unfold HeldLast
  rw [exists_split_concat, or_comm]
  refine or_congr (by simp) ⟨?_, ?_⟩
  · rintro ⟨before, a, after, rfl, hP, hlast⟩
    obtain ⟨hlast, hnot⟩ := (hrest before a after).1 hlast
    exact ⟨⟨before, a, after, rfl, hP, hlast⟩, hnot⟩
  · rintro ⟨⟨before, a, after, rfl, hP, hlast⟩, hnot⟩
    exact ⟨before, a, after, rfl, hP, (hrest before a after).2 ⟨hlast, hnot⟩⟩

theorem exists_heldLast {β : Type} {P : List α → α → β → Prop} (l : List α) :
    (∃ b, HeldLast P l b) ↔ ∃ before a after, l = before ++ a :: after ∧ ∃ b, P before a b := by
  constructor
  · rintro ⟨b, before, a, after, h, hP, -⟩
    exact ⟨before, a, after, h, b, hP⟩
  · induction l using List.reverseRecOn with
    | nil =>
      rintro ⟨before, a, after, h, -⟩
      simp at h
    | append_singleton l c ih =>
      rw [exists_split_snoc (P := fun before a => ∃ b, P before a b)]
      intro h
      by_cases hc : ∃ b, P l c b
      · exact hc.imp fun b hP => heldLast_snoc.2 (.inl hP)
      · obtain ⟨b, hlast⟩ := ih (h.resolve_right hc)
        exact ⟨b, heldLast_snoc.2 (.inr ⟨hlast, fun b' hP => hc ⟨b', hP⟩⟩)⟩

/-- To exchange one list exchanges its elements. -/
theorem perm_flatten_set : ∀ {ls : List (List α)} {i : Nat} {l : List α} (l' : List α),
    ls[i]? = some l → (l ++ (ls.set i l').flatten).Perm (l' ++ ls.flatten)
  | [], _, _, _, h => by cases h
  | l :: ls, 0, _, l', h => by
    obtain rfl := Option.some.inj h
    simp only [List.set_cons_zero, List.flatten_cons, ← List.append_assoc]
    exact List.perm_append_comm.append_right _
  | m :: ls, i + 1, l, l', h => by
    have h : ls[i]? = some l := h
    simp only [List.set_cons_succ, List.flatten_cons]
    calc List.Perm (l ++ (m ++ (ls.set i l').flatten)) (m ++ (l ++ (ls.set i l').flatten)) :=
        List.perm_append_comm_assoc _ _ _
      List.Perm _ (m ++ (l' ++ ls.flatten)) := (perm_flatten_set l' h).append_left m
      List.Perm _ (l' ++ (m ++ ls.flatten)) := List.perm_append_comm_assoc _ _ _

/-- An element is taken out of one of the lists. -/
theorem perm_flatten_set_rest {ls : List (List α)} {i : Nat} {a : α} {l rest : List α}
    (h : ls[i]? = some l) (hl : l.Perm (a :: rest)) :
    ls.flatten.Perm (a :: (ls.set i rest).flatten) := by
  refine (List.perm_append_left_iff rest).1 ((perm_flatten_set rest h).symm.trans ?_)
  exact (hl.append_right _).trans List.perm_middle.symm

/-- An element is put into one of the lists. -/
theorem perm_flatten_modify {ls : List (List α)} {i : Nat} {a : α} {f : List α → List α}
    (h : i < ls.length) (hf : ∀ l, (f l).Perm (a :: l)) :
    (ls.modify i f).flatten.Perm (a :: ls.flatten) := by
  have hl : ls[i]? = some ls[i] := List.getElem?_eq_getElem h
  have hmodify : ls.modify i f = ls.set i (f ls[i]) := by
    rw [List.modify_eq_set_getElem?, hl]
    rfl
  rw [hmodify]
  refine (List.perm_append_left_iff ls[i]).1 ((perm_flatten_set (f ls[i]) hl).trans ?_)
  exact ((hf _).append_right _).trans List.perm_middle.symm

theorem forall_prefix_cons {P : List α → Prop} {a : α} {l : List α} :
    (∀ before, before <+: a :: l → P before) ↔ P [] ∧ ∀ before, before <+: l → P (a :: before) := by
  constructor
  · exact fun h => ⟨h [] List.nil_prefix, fun before hpre =>
      h _ ((List.cons_prefix_cons).2 ⟨rfl, hpre⟩)⟩
  · rintro ⟨hnil, hcons⟩ before hpre
    rcases List.prefix_cons_iff.1 hpre with rfl | ⟨before, rfl, htail⟩
    · exact hnil
    · exact hcons before htail

theorem forall_split_cons {P : List α → Prop} {a b : α} {l : List α} :
    (∀ before after, a :: l = before ++ b :: after → P before)
      ↔ (a = b → P []) ∧ ∀ before after, l = before ++ b :: after → P (a :: before) := by
  constructor
  · intro h
    exact ⟨fun hab => h [] l (by rw [hab]; rfl), fun before after hl => h _ after (by rw [hl]; rfl)⟩
  · rintro ⟨hnil, hcons⟩ before after hl
    rcases List.cons_eq_append_iff.1 hl with ⟨rfl, hhead⟩ | ⟨before, rfl, htail⟩
    · exact hnil (List.cons.inj hhead).1.symm
    · exact hcons before after htail

/-- A part of a list without repetitions is known by what is in it. -/
theorem eq_filter_of_sublist {l l' : List α} {p : α → Bool} (hsub : l.Sublist l')
    (hnodup : l'.Nodup)
    (hp : ∀ a, a ∈ l ↔ a ∈ l' ∧ p a = true) : l = l'.filter p := by
  have hself : l.filter p = l := List.filter_eq_self.2 fun a ha => ((hp a).1 ha).2
  have hperm : l.Perm (l'.filter p) :=
    (List.perm_ext_iff_of_nodup (hnodup.sublist hsub) (hnodup.sublist List.filter_sublist)).2
      fun a => (hp a).trans List.mem_filter.symm
  exact (hself ▸ hsub.filter p).eq_of_length hperm.length_eq

end QueryHost
