import Mathlib.Data.List.Induction
import Mathlib.Tactic.Common
import QueryHost.Load.Streams
import QueryHost.Proofs.FixedPools

/-!
# When the end of a stream load is final

The status of a load is written by the executor when a plan starts to be executed and when it ends,
and by the registry when it closes. Only the executor looks at the status first. So a load that is
committed or aborted stays so (`StaysFinal`) but for two cases, and in these cases it does not: the
registry closes and finds it committed (`Revoked`), or finds it running, and its plan succeeds later
(`Overtaken`). That these are all is `staysFinal_iff`.

A call changes the status of a load in one of four ways (`Change`). A load has at most one plan that
has not ended, and only while it is running, or aborted by a registry that closed (`Sane`).
-/

namespace QueryHost

inductive LoadCall (ρ : Type) where
  | create (id : UniqueId) (database table label : String) (capacity : Nat)
  | execute (l : LoadId) (plan : ρ)
  /-- A free thread takes the first queued plan. -/
  | start
  /-- One of the active plans ends. -/
  | finish (i : Nat) (outcome : PlanEnd)
  | put (l : LoadId)
  | get (id : UniqueId)
  | remove (id : UniqueId)
  | shutdown
  deriving DecidableEq, Repr

def LoadStatus.isFinal : LoadStatus → Bool
  | .pending | .running => false
  | .committed | .aborted => true

/-- What becomes of the status of a load when its plan ends. -/
def PlanEnd.status : PlanEnd → LoadStatus → LoadStatus
  | .succeeded, _ => .committed
  | .failed _, _ => .aborted
  | .panicked, st => st

variable {ρ : Type}

namespace StreamLoads

/-- A call that fails leaves everything as it is. -/
def call (s : StreamLoads ρ) : LoadCall ρ → StreamLoads ρ
  | .create id database table label capacity => (s.newLoad id database table label capacity).1
  | .execute l plan =>
    match s.load? l, s.execute l plan with
    | some _, .ok s' => s'
    | _, _ => s
  | .start => { s with executor := s.executor.start }
  | .finish i outcome =>
    match s.executor.active[i]? with
    | some job => ({ s with executor := s.executor.finish i }.conclude job.1 outcome).1
    | none => s
  | .put l =>
    match s.put l with
    | .ok s' => s'
    | .error _ => s
  | .get _ => s
  | .remove id => (s.remove id).1
  | .shutdown => s.close

/-- The loads after a run of calls. -/
def after (threads : Nat) (calls : List (LoadCall ρ)) : StreamLoads ρ :=
  calls.foldl call (.withThreads threads)

theorem after_snoc (threads : Nat) (calls : List (LoadCall ρ)) (c : LoadCall ρ) :
    after threads (calls ++ [c]) = (after threads calls).call c := by
  simp only [after, List.foldl_append, List.foldl_cons, List.foldl_nil]

def status (s : StreamLoads ρ) (l : LoadId) : Option LoadStatus := (s.load? l).map (·.status)

/-- How many plans of a load have not ended. -/
def attempts (s : StreamLoads ρ) (l : LoadId) : Nat := s.executor.jobs.countP (·.1 = l)

/-! ## What changes the status -/

section Status

variable (s : StreamLoads ρ) (l m : LoadId)

theorem status_setStatus (st : LoadStatus) :
    (s.setStatus l st).status m = if m = l then (s.status m).map fun _ => st else s.status m := by
  unfold status load? setStatus
  rw [List.getElem?_modify]
  cases s.loads[m]? with
  | none => simp
  | some x =>
    by_cases h : m = l
    · simp [h]
    · simp [h, Ne.symm h]

theorem status_newLoad (id : UniqueId) (database table label : String) (capacity : Nat) :
    (s.newLoad id database table label capacity).1.status l
      = if l = s.loads.length then some .pending else s.status l := by
  have hloads : (s.newLoad id database table label capacity).1.loads
      = s.loads ++ [{ id, database, table, label, sink := s.pipes.length }] := rfl
  unfold status load?
  rw [hloads]
  rcases Nat.lt_trichotomy l s.loads.length with hl | rfl | hl
  · rw [List.getElem?_append_left hl, if_neg (Nat.ne_of_lt hl)]
  · rw [List.getElem?_concat_length, if_pos rfl, Option.map_some]
  · rw [if_neg (Nat.ne_of_gt hl), List.getElem?_eq_none (Nat.le_of_lt hl),
      List.getElem?_eq_none (by rw [List.length_append, List.length_singleton]; exact hl)]

theorem loads_cancelSink (reason : String) : (s.cancelSink l reason).loads = s.loads := by
  unfold cancelSink
  split <;> rfl

theorem executor_cancelSink (reason : String) : (s.cancelSink l reason).executor = s.executor := by
  unfold cancelSink
  split <;> rfl

theorem status_cancelSink (reason : String) : (s.cancelSink l reason).status m = s.status m := by
  unfold status load?
  rw [loads_cancelSink]

/-- The registry is at one of the loads it aborts. -/
theorem status_abort (reason : String) : ((s.cancelSink l reason).setStatus l .aborted).status m
    = if m = l then (s.status m).map fun _ => .aborted else s.status m := by
  rw [status_setStatus, status_cancelSink]

/-- To close aborts the registered loads, whatever their status is. -/
theorem status_close : s.close.status m
    = if m ∈ s.registered.values then (s.status m).map fun _ => .aborted else s.status m := by
  have hfold : ∀ (ls : List LoadId) (s : StreamLoads ρ),
      (ls.foldl (fun s l => (s.cancelSink l closing).setStatus l .aborted) s).status m
        = if m ∈ ls then (s.status m).map fun _ => .aborted else s.status m := by
    intro ls
    induction ls with
    | nil => simp
    | cons l ls ih =>
      intro s
      rw [List.foldl_cons, ih, status_abort]
      by_cases hl : m = l
      · by_cases hls : l ∈ ls <;> simp [hl, hls, Function.comp_def]
      · simp [hl]
  exact hfold _ _

theorem executor_close : s.close.executor = s.executor := by
  have hfold : ∀ (ls : List LoadId) (s : StreamLoads ρ),
      (ls.foldl (fun s l => (s.cancelSink l closing).setStatus l .aborted) s).executor
        = s.executor := by
    intro ls
    induction ls with
    | nil => simp
    | cons l ls ih =>
      intro s
      rw [List.foldl_cons, ih]
      exact s.executor_cancelSink l closing
  exact hfold _ _

theorem executor_conclude (outcome : PlanEnd) :
    (s.conclude l outcome).1.executor = s.executor := by
  cases outcome with
  | succeeded => rfl
  | failed f => exact s.executor_cancelSink l f.message
  | panicked => rfl

theorem status_conclude (outcome : PlanEnd) : (s.conclude l outcome).1.status m
    = if m = l then (s.status m).map outcome.status else s.status m := by
  cases outcome with
  | succeeded => exact s.status_setStatus l m _
  | failed f => exact s.status_abort l m f.message
  | panicked =>
    have hid : PlanEnd.panicked.status = id := rfl
    simp only [conclude, hid, Option.map_id, id, ite_self]

end Status

/-! ## What a call does to one load -/

theorem execute_cases (s : StreamLoads ρ) (l : LoadId) (plan : ρ) :
    s.call (.execute l plan) = s
      ∨ (s.status l = some .pending ∧ s.call (.execute l plan) = (s.begin l).enqueue l plan) := by
  simp only [call, execute, check, status]
  cases hx : s.load? l with
  | none => exact .inl rfl
  | some x =>
    by_cases hst : x.status = .pending
    · exact .inr ⟨by rw [Option.map_some, hst], by simp [hst, bind, Except.bind, pure, Except.pure]⟩
    · exact .inl (by simp [hst, bind, Except.bind])

theorem put_eq (s : StreamLoads ρ) (l : LoadId) :
    ∃ registered, s.call (.put l) = { s with registered } := by
  simp only [call, put]
  cases s.load? l with
  | none => exact ⟨_, rfl⟩
  | some x =>
    dsimp only
    split_ifs
    · exact ⟨_, rfl⟩
    · exact ⟨_, rfl⟩

/-- How one load fares from one state to the next, by a call. -/
inductive Change (s s' : StreamLoads ρ) (l : LoadId) : LoadCall ρ → Prop
  | same {c : LoadCall ρ} : s'.status l = s.status l → s'.attempts l = s.attempts l →
      Change s s' l c
  | created {c : LoadCall ρ} : s.status l = none → s'.status l = some .pending →
      s'.attempts l = s.attempts l → Change s s' l c
  | executed {c : LoadCall ρ} : s.status l = some .pending → s'.status l = some .running →
      s'.attempts l = s.attempts l + 1 → Change s s' l c
  | ended {i : Nat} {outcome : PlanEnd} {plan : ρ} : s.executor.active[i]? = some (l, plan) →
      s'.status l = (s.status l).map outcome.status → s.attempts l = s'.attempts l + 1 →
      Change s s' l (.finish i outcome)
  | closed : l ∈ s.registered.values → s'.status l = (s.status l).map (fun _ => .aborted) →
      s'.attempts l = s.attempts l → Change s s' l .shutdown

section Change

variable (s : StreamLoads ρ) (l : LoadId)

theorem change_create (id : UniqueId) (database table label : String) (capacity : Nat) :
    Change s (s.call (.create id database table label capacity)) l
      (.create id database table label capacity) := by
  have hstatus : (s.call (.create id database table label capacity)).status l
      = if l = s.loads.length then some .pending else s.status l :=
    s.status_newLoad l id database table label capacity
  by_cases hl : l = s.loads.length
  · refine .created ?_ (hstatus.trans (if_pos hl)) rfl
    rw [hl, status, load?, List.getElem?_eq_none (Nat.le_refl _), Option.map_none]
  · exact .same (hstatus.trans (if_neg hl)) rfl

theorem change_execute (m : LoadId) (plan : ρ) :
    Change s (s.call (.execute m plan)) l (.execute m plan) := by
  rcases s.execute_cases m plan with h | ⟨hst, h⟩
  · rw [h]
    exact .same rfl rfl
  · rw [h]
    have hstatus : ((s.begin m).enqueue m plan).status l
        = if l = m then (s.status l).map fun _ => .running else s.status l :=
      s.status_setStatus m l .running
    have hattempts : ((s.begin m).enqueue m plan).attempts l
        = s.attempts l + if m = l then 1 else 0 := by
      refine ((s.executor.perm_jobs_enqueue (m, plan)).countP_eq _).trans ?_
      rw [List.countP_cons, attempts]
      simp only [decide_eq_true_eq]
    by_cases hl : l = m
    · subst hl
      rw [if_pos rfl, hst] at hstatus
      rw [if_pos rfl] at hattempts
      exact .executed hst hstatus hattempts
    · rw [if_neg hl] at hstatus
      rw [if_neg (Ne.symm hl)] at hattempts
      exact .same hstatus hattempts

theorem change_finish (i : Nat) (outcome : PlanEnd) :
    Change s (s.call (.finish i outcome)) l (.finish i outcome) := by
  simp only [call]
  split
  · rename_i job hjob
    have hstatus : ({ s with executor := s.executor.finish i }.conclude job.1 outcome).1.status l
        = if l = job.1 then (s.status l).map outcome.status else s.status l :=
      status_conclude _ job.1 l outcome
    have hattempts : s.attempts l
        = ({ s with executor := s.executor.finish i }.conclude job.1 outcome).1.attempts l
          + if job.1 = l then 1 else 0 := by
      rw [attempts, attempts, executor_conclude, (FixedPool.perm_jobs_finish hjob).countP_eq,
        List.countP_cons]
      simp only [decide_eq_true_eq]
    by_cases hl : l = job.1
    · subst hl
      rw [if_pos rfl] at hstatus hattempts
      exact .ended hjob hstatus hattempts
    · rw [if_neg hl] at hstatus
      rw [if_neg (Ne.symm hl)] at hattempts
      exact .same hstatus hattempts.symm
  · exact .same rfl rfl

theorem change_shutdown : Change s (s.call .shutdown) l .shutdown := by
  have hstatus := s.status_close l
  have hattempts : s.close.attempts l = s.attempts l := by
    rw [attempts, executor_close, attempts]
  by_cases hl : l ∈ s.registered.values
  · rw [if_pos hl] at hstatus
    exact .closed hl hstatus hattempts
  · rw [if_neg hl] at hstatus
    exact .same hstatus hattempts

theorem call_change (c : LoadCall ρ) : Change s (s.call c) l c := by
  cases c with
  | create id database table label capacity =>
    exact s.change_create l id database table label capacity
  | execute m plan => exact s.change_execute l m plan
  | start => exact .same rfl (s.executor.perm_jobs_start.countP_eq _)
  | finish i outcome => exact s.change_finish l i outcome
  | put m =>
    obtain ⟨registered, h⟩ := s.put_eq m
    rw [h]
    exact .same rfl rfl
  | get id => exact .same rfl rfl
  | remove id => exact .same rfl rfl
  | shutdown => exact s.change_shutdown l

end Change

/-! ## What the executor does in one go -/

section Settle

/-- The loads after the plan of one more job has ended as it is fated to. -/
def concludeFated (fate : ρ → Option PlanEnd) (s : StreamLoads ρ) (job : LoadId × ρ) :
    StreamLoads ρ :=
  match fate job.2 with
  | some e => (s.conclude job.1 e).1
  | none => s

theorem concludeFated_executor (fate : ρ → Option PlanEnd) (s : StreamLoads ρ) (job : LoadId × ρ)
    (executor : FixedPool (LoadId × ρ)) :
    concludeFated fate { s with executor } job = { concludeFated fate s job with executor } := by
  unfold concludeFated
  cases fate job.2 with
  | none => rfl
  | some e =>
    cases e with
    | succeeded => rfl
    | panicked => rfl
    | failed f =>
      simp only [conclude, cancelSink, load?]
      cases s.loads[job.1]? <;> rfl

theorem settle_eq (fate : ρ → Option PlanEnd) (s : StreamLoads ρ) :
    (s.settle fate).1 = (s.executor.settle fun job => (fate job.2).isSome).2.foldl
      (concludeFated fate)
      { s with executor := (s.executor.settle fun job => (fate job.2).isSome).1 } := by
  unfold settle
  dsimp only
  refine fst_foldl (fun s log job => ?_) _ _ _
  unfold concludeFated
  dsimp only
  cases fate job.2 <;> rfl

/-- To let the plans go on is a run of starts and ends. -/
theorem settle_calls (fate : ρ → Option PlanEnd) (s : StreamLoads ρ) :
    ∃ calls : List (LoadCall ρ), calls.foldl call s = (s.settle fate).1 := by
  obtain ⟨hworks, hripe⟩ := s.executor.settle_works fun job => (fate job.2).isSome
  rw [settle_eq]
  refine hworks.calls call id (·.executor) (fun s executor => { s with executor })
    (fun _ _ => rfl) (fun _ _ _ => rfl) (fun _ => rfl) (concludeFated_executor fate)
    (fun s => ⟨.start, rfl⟩) (fun s i job hjob hfate => ?_) hripe s rfl
  obtain ⟨e, he⟩ := Option.isSome_iff_exists.1 hfate
  refine ⟨.finish i e, ?_⟩
  dsimp only [id] at hjob
  simp only [call, hjob, concludeFated, he, id]

end Settle

/-! ## Runs -/

/-- A load has at most one plan that has not ended, and that only while it runs or is aborted. -/
structure Sane (s : StreamLoads ρ) (l : LoadId) : Prop where
  attempts_le : s.attempts l ≤ 1
  status : 0 < s.attempts l → s.status l = some .running ∨ s.status l = some .aborted

theorem Sane.change {s s' : StreamLoads ρ} {l : LoadId} {c : LoadCall ρ} (hs : s.Sane l)
    (h : Change s s' l c) : s'.Sane l := by
  cases h with
  | same hst hat => exact ⟨hat ▸ hs.attempts_le, fun h => hst ▸ hs.status (hat ▸ h)⟩
  | created hst hst' hat =>
    refine ⟨hat ▸ hs.attempts_le, fun h => ?_⟩
    rcases hs.status (hat ▸ h) with h | h <;> rw [hst] at h <;> cases h
  | executed hst hst' hat =>
    have hzero : s.attempts l = 0 := by
      refine Nat.eq_zero_of_not_pos fun h => ?_
      rcases hs.status h with h | h <;> rw [hst] at h <;> cases h
    exact ⟨by omega, fun _ => .inl hst'⟩
  | ended hjob hst hat =>
    have hle := hs.attempts_le
    exact ⟨by omega, fun h => by omega⟩
  | closed hl hst hat =>
    refine ⟨hat ▸ hs.attempts_le, fun h => .inr ?_⟩
    rcases hs.status (hat ▸ h) with h | h <;> rw [hst, h] <;> rfl

theorem sane_after (threads : Nat) (calls : List (LoadCall ρ)) (l : LoadId) :
    (after threads calls).Sane l := by
  induction calls using List.reverseRecOn with
  | nil => exact ⟨Nat.zero_le _, fun h => absurd h (Nat.lt_irrefl _)⟩
  | append_singleton calls c ih =>
    rw [after_snoc]
    exact ih.change (call_change _ l c)

section Final

variable (threads : Nat) (calls : List (LoadCall ρ)) (l : LoadId)

/-- Once the load is committed or aborted, nothing in the run changes that. -/
def StaysFinal : Prop :=
  ∀ before more rest st, calls = before ++ more ++ rest →
    (after threads before).status l = some st → st.isFinal = true →
      (after threads (before ++ more)).status l = some st

/-- The registry closes when the load has the given status. -/
def ClosedAt (before : List (LoadCall ρ)) (st : LoadStatus) : Prop :=
  l ∈ (after threads before).registered.values ∧ (after threads before).status l = some st

/-- The registry closes, and one of its loads is committed already. -/
def Revoked : Prop :=
  ∃ before rest, calls = before ++ .shutdown :: rest ∧ ClosedAt threads l before .committed

/-- The registry closes, and the plan of one of its loads is still to succeed. -/
def Overtaken : Prop :=
  ∃ before more rest i plan, calls = before ++ .shutdown :: more ++ .finish i .succeeded :: rest
    ∧ ClosedAt threads l before .running
    ∧ (after threads (before ++ .shutdown :: more)).executor.active[i]? = some (l, plan)

end Final

section Runs

variable {threads : Nat} {calls : List (LoadCall ρ)} {l : LoadId}

theorem status_after_shutdown {before : List (LoadCall ρ)} {st : LoadStatus}
    (h : ClosedAt threads l before st) :
    (after threads (before ++ [.shutdown])).status l = some .aborted := by
  rw [after_snoc]
  refine (status_close _ l).trans ?_
  rw [if_pos h.1, h.2, Option.map_some]

/-- A plan that has not ended though its load is aborted was running when the registry closed. -/
theorem closed_of_aborted (hst : (after threads calls).status l = some .aborted)
    (hat : 0 < (after threads calls).attempts l) :
    ∃ before more, calls = before ++ .shutdown :: more ∧ ClosedAt threads l before .running := by
  induction calls using List.reverseRecOn with
  | nil => cases hst
  | append_singleton calls c ih =>
    have earlier (hst : (after threads calls).status l = some .aborted)
        (hat : 0 < (after threads calls).attempts l) : ∃ before more,
          calls ++ [c] = before ++ .shutdown :: more ∧ ClosedAt threads l before .running := by
      obtain ⟨before, more, rfl, hclosed⟩ := ih hst hat
      exact ⟨before, more ++ [c], by simp, hclosed⟩
    have hsane := sane_after threads calls l
    rw [after_snoc] at hst hat
    cases call_change (after threads calls) l c with
    | same hst' hat' => exact earlier (hst' ▸ hst) (hat' ▸ hat)
    | created _ hst' _ => rw [hst'] at hst; cases hst
    | executed _ hst' _ => rw [hst'] at hst; cases hst
    | ended _ _ hat' =>
      have hle := hsane.attempts_le
      omega
    | closed hl _ hat' =>
      rcases hsane.status (hat' ▸ hat) with hrun | hab
      · exact ⟨calls, [], rfl, hl, hrun⟩
      · exact earlier hab (hat' ▸ hat)

theorem StaysFinal.not_revoked (h : StaysFinal threads calls l) : ¬ Revoked threads calls l := by
  rintro ⟨before, rest, rfl, hclosed⟩
  have hst := h before [.shutdown] rest .committed (by simp) hclosed.2 rfl
  rw [status_after_shutdown hclosed] at hst
  cases hst

theorem StaysFinal.not_overtaken (h : StaysFinal threads calls l) :
    ¬ Overtaken threads calls l := by
  rintro ⟨before, more, rest, i, plan, rfl, hclosed, hjob⟩
  have haborted := status_after_shutdown hclosed
  have hmore := h (before ++ [.shutdown]) more (.finish i .succeeded :: rest) .aborted
    (by simp) haborted rfl
  have hend := h (before ++ [.shutdown]) (more ++ [.finish i .succeeded]) rest .aborted
    (by simp) haborted rfl
  have hcommitted : (after threads (before ++ .shutdown :: more ++ [.finish i .succeeded])).status l
      = some .committed := by
    rw [List.append_assoc, List.singleton_append] at hmore
    rw [after_snoc]
    simp only [call, hjob]
    refine (status_conclude _ l l .succeeded).trans ?_
    rw [if_pos rfl]
    exact congrArg (Option.map _) hmore
  rw [← List.append_assoc, List.append_assoc before, List.singleton_append, hcommitted] at hend
  cases hend

/-- One more call leaves a final status as it is, unless it is one of the two cases. -/
theorem final_call {before rest : List (LoadCall ρ)} {c : LoadCall ρ} {st : LoadStatus}
    (hrevoked : ¬ Revoked threads (before ++ c :: rest) l)
    (hovertaken : ¬ Overtaken threads (before ++ c :: rest) l)
    (hst : (after threads before).status l = some st) (hfinal : st.isFinal = true) :
    (after threads (before ++ [c])).status l = some st := by
  have hsane := sane_after threads before l
  rw [after_snoc]
  cases call_change (after threads before) l c with
  | same hst' _ => rw [hst', hst]
  | created hnone _ _ => rw [hst] at hnone; cases hnone
  | executed hpending _ _ =>
    rw [hst] at hpending
    cases hpending
    cases hfinal
  | @ended i outcome plan hjob hst' hat =>
    have haborted : st = .aborted := by
      rcases hsane.status (by omega) with h | h <;> rw [hst] at h <;> cases h
      · cases hfinal
      · rfl
    subst haborted
    obtain ⟨first, more, rfl, hclosed⟩ := closed_of_aborted hst (by omega)
    cases outcome with
    | succeeded => exact absurd ⟨first, more, rest, i, plan, rfl, hclosed, hjob⟩ hovertaken
    | failed f => rw [hst', hst]; rfl
    | panicked => rw [hst', hst]; rfl
  | closed hl hst' _ =>
    cases st with
    | pending => cases hfinal
    | running => cases hfinal
    | committed => exact absurd ⟨before, rest, rfl, hl, hst⟩ hrevoked
    | aborted => rw [hst', hst]; rfl

end Runs

/-- In a run of whole calls, a load that is committed or aborted stays so for good exactly if the
registry neither closes on it when it is committed nor aborts it before its plan succeeds. Runs in
which calls step in between the sections of each other are those of `LoadStep`, where there are more
ways. -/
theorem staysFinal_iff (threads : Nat) (calls : List (LoadCall ρ)) (l : LoadId) :
    StaysFinal threads calls l ↔ ¬ Revoked threads calls l ∧ ¬ Overtaken threads calls l := by
  refine ⟨fun h => ⟨h.not_revoked, h.not_overtaken⟩, fun ⟨hrevoked, hovertaken⟩ => ?_⟩
  intro before more rest st hcalls hst hfinal
  induction more using List.reverseRecOn generalizing rest with
  | nil => rwa [List.append_nil]
  | append_singleton more c ih =>
    have hsplit : calls = before ++ more ++ c :: rest := by
      rw [hcalls]
      simp only [List.append_assoc, List.singleton_append]
    rw [← List.append_assoc]
    rw [hsplit] at hrevoked hovertaken
    exact final_call hrevoked hovertaken (ih (c :: rest) hsplit) hfinal

/-- The registry closes on a load that was committed, and reports it aborted. -/
theorem not_final_after_shutdown :
    ¬ ∀ (threads : Nat) (calls : List (LoadCall Unit)) (l : LoadId),
      StaysFinal threads calls l := by
  intro h
  have hst := h 1 _ 0 [.create ⟨0, 1⟩ "db" "t" "l" 64, .put 0, .execute 0 (), .start,
    .finish 0 .succeeded] [.shutdown] [] .committed rfl (by decide) rfl
  exact absurd hst (by decide)

end StreamLoads

end QueryHost
