import Mathlib.Tactic.Common
import QueryHost.Proofs.TokenRuns

/-!
# One task of a token at a time, in order

A serial token is running while a caller is about to start its drain or a drain is queued or
running, and there are two of these only if one has strayed in (`Owned`), which no move of the token
does. As its tasks come last and go first, or last again, they start in the order in which they were
left with the token (`Ordered`).
-/

namespace QueryHost

namespace TokenView

variable {v v' : TokenView}

/-- Who is about to start a drain, and what is a drain. -/
def owners (v : TokenView) : Nat := v.callers.length + v.drains

/-- A token that is not running has no owner, and one that is running has one, but for some that
have strayed in. -/
def Owned (strays : Nat) (v : TokenView) : Prop := v.owners ≤ (if v.running then 1 else 0) + strays

/-- A move lets no more owners stray in. -/
theorem Owned.move {strays : Nat} (h : v.Owned strays) (hm : Move v v') : v'.Owned strays := by
  unfold Owned owners at *
  cases hm with
  | other _ hp => simpa [hp.length_eq] using h
  | offerFirst hr =>
    simp only [hr, Bool.false_eq_true, if_false, if_true, List.length_append,
      List.length_singleton] at *
    omega
  | offerNext => exact h
  | decline => exact h
  | handOver hp =>
    have hlen := hp.length_eq
    simp only [List.length_cons] at *
    omega
  | withdraw hp =>
    have hlen := hp.length_eq
    simp only [List.length_cons, Bool.false_eq_true, if_false] at *
    split at h <;> omega
  | start => exact h
  | finish hd =>
    simp only [Bool.false_eq_true, if_false] at *
    split at h <;> omega
  | close => exact h
  | shutDown hd =>
    simp only at *
    omega

theorem Owned.owners_le {strays : Nat} (h : v.Owned strays) : v.owners ≤ strays + 1 := by
  unfold Owned at h
  split at h <;> omega

/-! ## Order -/

/-- The tickets of the submissions to the token, but for those that were rejected by its pool. -/
def issued (v : TokenView) : List Ticket := marks v.record .pushed ++ marks v.record .declined

/-- Each ticket was given out once. -/
structure Ticketed (v : TokenView) : Prop where
  nodup : v.issued.Nodup
  lt_tickets : ∀ k ∈ v.issued, k < v.tickets

theorem Ticketed.issue (h : v.Ticketed) (hperm : v'.issued.Perm (v.tickets :: v.issued))
    (htickets : v'.tickets = v.tickets + 1) : v'.Ticketed := by
  obtain ⟨hnodup, hlt⟩ := nodup_lt_of_issue h.nodup h.lt_tickets hperm
  exact ⟨hnodup, htickets ▸ hlt⟩

theorem Ticketed.move (h : v.Ticketed) (hm : Move v v') : v'.Ticketed := by
  have hkept : ∀ {v' : TokenView}, v'.issued = v.issued → v.tickets ≤ v'.tickets →
      v'.Ticketed := fun hi hle =>
    ⟨hi ▸ h.nodup, fun k hk => Nat.lt_of_lt_of_le (h.lt_tickets k (hi ▸ hk)) hle⟩
  cases hm with
  | other hle => exact hkept rfl hle
  | offerFirst | offerNext =>
    refine h.issue ?_ rfl
    simp only [issued, marks_append, marks_cons, marks_nil, reduceCtorEq, if_true, if_false,
      List.append_nil, List.append_assoc, List.singleton_append]
    exact List.perm_middle
  | decline =>
    refine h.issue ?_ rfl
    simp only [issued, marks_append, marks_cons, marks_nil, reduceCtorEq, if_true, if_false,
      List.append_nil, ← List.append_assoc]
    exact List.perm_append_singleton _ _
  | handOver => exact hkept (by simp [issued]) (Nat.le_refl _)
  | withdraw => exact hkept (by simp [issued, marks_map]) (Nat.le_refl _)
  | start => exact hkept (by simp [issued]) (Nat.le_refl _)
  | finish => exact hkept rfl (Nat.le_refl _)
  | close => exact hkept rfl (Nat.le_refl _)
  | shutDown => exact hkept rfl (Nat.le_refl _)

/-- What was started, and then what is pending, was pushed in this order. -/
def Ordered (v : TokenView) : Prop :=
  (marks v.record .started ++ v.pending).Sublist (marks v.record .pushed)

/-- Tasks leave the token in the order in which they came. -/
theorem Ordered.move (h : v.Ordered) (hm : Move v v') : v'.Ordered := by
  unfold Ordered at *
  cases hm with
  | other => exact h
  | offerFirst => simpa [← List.append_assoc] using h.append (List.Sublist.refl [v.tickets])
  | offerNext => simpa [← List.append_assoc] using h.append (List.Sublist.refl [v.tickets])
  | decline => simpa using h
  | handOver => simpa using h
  | withdraw =>
    have hdrop := ((List.dropLast_sublist v.pending).append_left (marks v.record .started)).trans h
    simpa [marks_map] using hdrop
  | start _ hp => simpa [hp] using h
  | finish => exact h
  | close => simpa using (List.sublist_append_left _ _).trans h
  | shutDown => exact h

end TokenView

/-! ## In every reachable state -/

/-- The task of a token that a job is executing. -/
def Job.taskOf {α : Type} (t : TokenId) : Job α → Option α
  | .direct _ => none
  | .drain u current => if u = t then current else none

theorem Job.isDrainOf_of_taskOf {α : Type} {t : TokenId} {job : Job α}
    (h : (job.taskOf t).isSome) : job.isDrainOf t := by
  cases job with
  | direct task => exact absurd h Bool.false_ne_true
  | drain u current =>
    by_cases hu : u = t
    · simpa using hu
    · simp [taskOf, hu] at h

namespace TokenRun

open TokenView

/-- The tasks of a token that are being executed. -/
def underWay (s : TokenRun) (t : TokenId) : List Ticket :=
  s.crew.pool.executing.filterMap (Job.taskOf t)

/-- The drains of a token that are queued or running. -/
def drainsOf (s : TokenRun) (t : TokenId) : List (Job Ticket) :=
  s.crew.pool.jobs.filter (Job.isDrainOf t)

/-- The tasks of a token that got a mark, in that order. -/
def marked (s : TokenRun) (t : TokenId) (m : Mark) : List Ticket := marks (s.view t).record m

theorem underWay_le_drainsOf (s : TokenRun) (t : TokenId) :
    (s.underWay t).length ≤ (s.drainsOf t).length := by
  calc (s.underWay t).length
      = s.crew.pool.executing.countP fun job => (job.taskOf t).isSome :=
        List.length_filterMap_eq_countP
    _ ≤ s.crew.pool.executing.countP (Job.isDrainOf t) :=
        List.countP_mono_left fun _ _ => Job.isDrainOf_of_taskOf
    _ ≤ s.crew.pool.jobs.countP (Job.isDrainOf t) :=
        (List.sublist_append_right _ _).countP_le
    _ = (s.drainsOf t).length := List.countP_eq_length_filter

end TokenRun

end QueryHost
