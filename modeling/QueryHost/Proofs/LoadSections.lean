import Mathlib.Data.List.Induction
import Mathlib.Tactic.Common
import QueryHost.Proofs.LoadFinality
import QueryHost.Proofs.PipeChunks

/-!
# Calls that execute the same load

To have a plan executed, a caller looks at the status of its load and, if it is pending, makes it
running and queues the plan. Each of these is a section under a lock of its own, and other callers
step in between. A load is never pending again once somebody has made it running (`Sane`). So a
second caller is accepted exactly if it looks while another one is between its first two sections
(`Raced`, `admitted_le_one_iff`).

`LoadLedger` keeps the callers between their sections, beside the loads. What one section does to it
is `Does`. The registry, too, closes in sections: it takes its loads out, and aborts them one by
one. It cancels the sink of a load before it writes the status, and so does a job that fails; as
anybody may cancel a sink at any time, the two are one step here.
-/

namespace QueryHost

inductive LoadStep (ρ : Type) where
  | create (id : UniqueId) (database table label : String) (capacity : Nat)
  /-- Somebody who has a plan for a load looks at its status. -/
  | check (l : LoadId) (plan : ρ)
  /-- One of those who saw it not pending looks again, to say so. -/
  | refuse (i : Nat)
  /-- One of those who saw it pending makes it running. -/
  | begin (i : Nat)
  /-- One of those who made it running queues its plan. -/
  | enqueue (i : Nat)
  /-- A free thread takes the first queued plan. -/
  | start
  /-- One of the active plans ends. -/
  | finish (i : Nat) (outcome : PlanEnd)
  | put (l : LoadId)
  | remove (id : UniqueId)
  /-- The registry closes, and takes out its loads. -/
  | drain
  /-- One of the loads that were taken out is aborted. -/
  | abort (i : Nat)
  | pipe (p : PipeId) (use : PipeUse)
  deriving DecidableEq, Repr

structure LoadLedger (ρ : Type) where
  loads : StreamLoads ρ
  checked : List (LoadId × ρ) := []
  refused : List (LoadId × ρ) := []
  begun : List (LoadId × ρ) := []
  /-- The loads that a closing registry has taken out and not aborted yet. -/
  doomed : List LoadId := []
  accepted : List (LoadId × ρ) := []
  rejected : List ((LoadId × ρ) × Failure) := []
  ended : List ((LoadId × ρ) × PlanEnd) := []
  deriving Repr

variable {ρ : Type}

/-- What somebody is told whose load is not pending. -/
def StreamLoad.refusal (x : StreamLoad) : Failure :=
  .internal ("stream load " ++ x.label ++ " is not pending: " ++ x.status.text)

/-- How many jobs of a list are for a load. -/
def jobsFor (l : LoadId) (jobs : List (LoadId × ρ)) : Nat := jobs.countP (·.1 = l)

section JobsFor

variable {l : LoadId} {jobs : List (LoadId × ρ)} {job : LoadId × ρ} {i : Nat}

theorem jobsFor_cons : jobsFor l (job :: jobs) = jobsFor l jobs + if job.1 = l then 1 else 0 := by
  simp [jobsFor, List.countP_cons]

theorem jobsFor_snoc : jobsFor l (jobs ++ [job]) = jobsFor l jobs + if job.1 = l then 1 else 0 := by
  simp [jobsFor, List.countP_cons]

theorem jobsFor_eraseIdx (h : jobs[i]? = some job) :
    jobsFor l jobs = jobsFor l (jobs.eraseIdx i) + if job.1 = l then 1 else 0 :=
  ((perm_cons_eraseIdx h).countP_eq _).trans jobsFor_cons

theorem jobsFor_pos_iff : 0 < jobsFor l jobs ↔ ∃ plan, (l, plan) ∈ jobs := by
  unfold jobsFor
  rw [List.countP_pos_iff]
  constructor
  · rintro ⟨⟨m, plan⟩, hmem, hm⟩
    obtain rfl : m = l := by simpa using hm
    exact ⟨plan, hmem⟩
  · rintro ⟨plan, hmem⟩
    exact ⟨_, hmem, by simp⟩

end JobsFor

namespace StreamLoads

def usePipe (s : StreamLoads ρ) (p : PipeId) : PipeUse → StreamLoads ρ
  | .append chunk => (s.append p chunk).1
  | .read => (s.read p).1
  | .finish => s.finishPipe p
  | .cancel reason => s.cancelPipe p reason

theorem onPipe_eq {α : Type} (s : StreamLoads ρ) (p : PipeId) (f : Pipe → Pipe × Attempt α) :
    (s.onPipe p f).1 = { s with pipes := s.pipes.modify p fun x => (f x).1 } := by
  unfold onPipe
  rw [List.modify_eq_set_getElem?]
  cases s.pipes[p]? <;> rfl

theorem usePipe_eq (s : StreamLoads ρ) (p : PipeId) (u : PipeUse) :
    s.usePipe p u = { s with pipes := s.pipes.modify p fun x => (x.use u).1 } := by
  cases u with
  | append chunk => exact s.onPipe_eq p _
  | read => exact s.onPipe_eq p _
  | finish => rfl
  | cancel reason => rfl

theorem check_eq {s : StreamLoads ρ} {l : LoadId} {x : StreamLoad} (hx : s.load? l = some x) :
    s.check l = if x.status = .pending then .ok () else .error x.refusal := by
  simp only [check, hx]
  rfl

theorem eq_of_put {s s' : StreamLoads ρ} {l : LoadId} (h : s.put l = .ok s') :
    ∃ registered, s' = { s with registered } := by
  unfold put at h
  split at h
  · exact ⟨s.registered, (Except.ok.inj h).symm⟩
  · split_ifs at h
    exact ⟨_, (Except.ok.inj h).symm⟩

end StreamLoads

namespace LoadLedger

def call (b : LoadLedger ρ) : LoadStep ρ → LoadLedger ρ
  | .create id database table label capacity =>
    { b with loads := (b.loads.newLoad id database table label capacity).1 }
  | .check l plan =>
    match b.loads.load? l, b.loads.check l with
    | some _, .ok () => { b with checked := b.checked ++ [(l, plan)] }
    | some _, .error _ => { b with refused := b.refused ++ [(l, plan)] }
    | none, _ => b
  | .refuse i =>
    match b.refused[i]? with
    | some job =>
      match b.loads.load? job.1 with
      | some x =>
        { b with
          refused := b.refused.eraseIdx i
          rejected := b.rejected ++ [(job, x.refusal)] }
      | none => b
    | none => b
  | .begin i =>
    match b.checked[i]? with
    | some job =>
      { b with
        loads := b.loads.begin job.1
        checked := b.checked.eraseIdx i
        begun := b.begun ++ [job] }
    | none => b
  | .enqueue i =>
    match b.begun[i]? with
    | some job =>
      { b with
        loads := b.loads.enqueue job.1 job.2
        begun := b.begun.eraseIdx i
        accepted := b.accepted ++ [job] }
    | none => b
  | .start => { b with loads := { b.loads with executor := b.loads.executor.start } }
  | .finish i outcome =>
    match b.loads.executor.active[i]? with
    | some job =>
      { b with
        loads := ({ b.loads with executor := b.loads.executor.finish i }.conclude job.1 outcome).1
        ended := b.ended ++ [(job, outcome)] }
    | none => b
  | .put l =>
    match b.loads.put l with
    | .ok loads => { b with loads }
    | .error _ => b
  | .remove id => { b with loads := (b.loads.remove id).1 }
  | .drain =>
    { b with
      loads := { b.loads with registered := {} }
      doomed := b.doomed ++ b.loads.registered.values }
  | .abort i =>
    match b.doomed[i]? with
    | some l =>
      { b with
        loads := (b.loads.cancelSink l StreamLoads.closing).setStatus l .aborted
        doomed := b.doomed.eraseIdx i }
    | none => b
  | .pipe p u => { b with loads := b.loads.usePipe p u }

/-- The ledger of an executor after a run of steps. -/
def run (threads : Nat) (steps : List (LoadStep ρ)) : LoadLedger ρ :=
  steps.foldl call { loads := .withThreads threads }

theorem run_snoc (threads : Nat) (steps : List (LoadStep ρ)) (c : LoadStep ρ) :
    run threads (steps ++ [c]) = (run threads steps).call c := by
  simp only [run, List.foldl_append, List.foldl_cons, List.foldl_nil]

/-- The plans that have been executed, to their end or not. -/
def executed (b : LoadLedger ρ) : List (LoadId × ρ) :=
  b.loads.executor.active ++ b.ended.map (·.1)

/-- How many calls for a load are accepted, or will be. -/
def admitted (b : LoadLedger ρ) (l : LoadId) : Nat :=
  jobsFor l b.checked + jobsFor l b.begun + jobsFor l b.accepted

/-! ## What a step can do -/

inductive Does (b : LoadLedger ρ) : LoadStep ρ → LoadLedger ρ → Prop
  | nothing {c : LoadStep ρ} : Does b c b
  | created (id : UniqueId) (database table label : String) (capacity : Nat) :
      Does b (.create id database table label capacity)
        { b with loads := (b.loads.newLoad id database table label capacity).1 }
  | sawPending {l : LoadId} {plan : ρ} : b.loads.status l = some .pending →
      Does b (.check l plan) { b with checked := b.checked ++ [(l, plan)] }
  | sawOther {l : LoadId} {plan : ρ} {st : LoadStatus} : b.loads.status l = some st →
      st ≠ .pending → Does b (.check l plan) { b with refused := b.refused ++ [(l, plan)] }
  | rejected {i : Nat} {job : LoadId × ρ} {x : StreamLoad} : b.refused[i]? = some job →
      b.loads.load? job.1 = some x →
      Does b (.refuse i) { b with
        refused := b.refused.eraseIdx i
        rejected := b.rejected ++ [(job, x.refusal)] }
  | begun {i : Nat} {job : LoadId × ρ} : b.checked[i]? = some job →
      Does b (.begin i) { b with
        loads := b.loads.begin job.1
        checked := b.checked.eraseIdx i
        begun := b.begun ++ [job] }
  | enqueued {i : Nat} {job : LoadId × ρ} : b.begun[i]? = some job →
      Does b (.enqueue i) { b with
        loads := b.loads.enqueue job.1 job.2
        begun := b.begun.eraseIdx i
        accepted := b.accepted ++ [job] }
  | started : Does b .start { b with loads := { b.loads with executor := b.loads.executor.start } }
  | ended {i : Nat} {job : LoadId × ρ} {outcome : PlanEnd} :
      b.loads.executor.active[i]? = some job →
      Does b (.finish i outcome) { b with
        loads := ({ b.loads with executor := b.loads.executor.finish i }.conclude job.1 outcome).1
        ended := b.ended ++ [(job, outcome)] }
  | put (l : LoadId) (registered : Assoc UniqueId LoadId) :
      Does b (.put l) { b with loads := { b.loads with registered } }
  | removed (id : UniqueId) : Does b (.remove id) { b with loads := (b.loads.remove id).1 }
  | drained : Does b .drain { b with
      loads := { b.loads with registered := {} }
      doomed := b.doomed ++ b.loads.registered.values }
  | aborted {i : Nat} {l : LoadId} : b.doomed[i]? = some l →
      Does b (.abort i) { b with
        loads := (b.loads.cancelSink l StreamLoads.closing).setStatus l .aborted
        doomed := b.doomed.eraseIdx i }
  | piped (p : PipeId) (u : PipeUse) : Does b (.pipe p u) { b with loads := b.loads.usePipe p u }

theorem check_cases (b : LoadLedger ρ) (l : LoadId) (plan : ρ) :
    (b.loads.status l = some .pending
        ∧ b.call (.check l plan) = { b with checked := b.checked ++ [(l, plan)] })
      ∨ (∃ st, b.loads.status l = some st ∧ st ≠ .pending
        ∧ b.call (.check l plan) = { b with refused := b.refused ++ [(l, plan)] })
      ∨ (b.loads.status l = none ∧ b.call (.check l plan) = b) := by
  simp only [call, StreamLoads.status]
  cases hx : b.loads.load? l with
  | none => exact .inr (.inr ⟨rfl, rfl⟩)
  | some x =>
    rw [StreamLoads.check_eq hx]
    by_cases hst : x.status = .pending
    · exact .inl ⟨by simp [hst], by simp [hst]⟩
    · exact .inr (.inl ⟨x.status, rfl, hst, by simp [hst]⟩)

/-- Every step does what `Does` says of it. -/
theorem does_call (b : LoadLedger ρ) (c : LoadStep ρ) : Does b c (b.call c) := by
  cases c with
  | create id database table label capacity => exact .created id database table label capacity
  | start => exact .started
  | remove id => exact .removed id
  | drain => exact .drained
  | pipe p u => exact .piped p u
  | check l plan =>
    rcases b.check_cases l plan with ⟨hst, hcall⟩ | ⟨st, hst, hne, hcall⟩ | ⟨-, hcall⟩
    · rw [hcall]
      exact .sawPending hst
    · rw [hcall]
      exact .sawOther hst hne
    · rw [hcall]
      exact .nothing
  | refuse i =>
    simp only [call]
    split
    · rename_i job hjob
      split
      · rename_i x hx
        exact .rejected hjob hx
      · exact .nothing
    · exact .nothing
  | begin i =>
    simp only [call]
    split
    · rename_i job hjob
      exact .begun hjob
    · exact .nothing
  | enqueue i =>
    simp only [call]
    split
    · rename_i job hjob
      exact .enqueued hjob
    · exact .nothing
  | finish i outcome =>
    simp only [call]
    split
    · rename_i job hjob
      exact .ended hjob
    · exact .nothing
  | put l =>
    simp only [call]
    split
    · rename_i loads hput
      obtain ⟨registered, rfl⟩ := StreamLoads.eq_of_put hput
      exact .put l registered
    · exact .nothing
  | abort i =>
    simp only [call]
    split
    · rename_i l hl
      exact .aborted hl
    · exact .nothing

/-! ## The accepted plans -/

/-- An accepted plan is queued or executed, and once. -/
def Accounted (b : LoadLedger ρ) : Prop :=
  b.accepted.Perm (b.loads.executor.queue ++ b.executed)

section Accounted

variable {b : LoadLedger ρ}

theorem accounted_iff :
    b.Accounted ↔ b.accepted.Perm (b.loads.executor.jobs ++ b.ended.map (·.1)) := by
  unfold Accounted executed FixedPool.jobs
  rw [List.append_assoc]

theorem Accounted.of_executor (h : b.Accounted) {b' : LoadLedger ρ}
    (hexecutor : b'.loads.executor.jobs.Perm b.loads.executor.jobs)
    (haccepted : b'.accepted = b.accepted) (hended : b'.ended = b.ended) : b'.Accounted := by
  rw [accounted_iff] at h ⊢
  rw [haccepted, hended]
  exact h.trans (hexecutor.symm.append_right _)

theorem Accounted.does (h : b.Accounted) {c : LoadStep ρ} {b' : LoadLedger ρ} (hd : Does b c b') :
    b'.Accounted := by
  cases hd with
  | @enqueued i job hjob =>
    rw [accounted_iff] at h ⊢
    exact (List.perm_append_singleton _ _).trans
      ((h.cons job).trans ((b.loads.executor.perm_jobs_enqueue job).symm.append_right _))
  | @ended i job outcome hjob =>
    rw [accounted_iff] at h ⊢
    simp only [StreamLoads.executor_conclude, List.map_append, List.map_cons, List.map_nil]
    rw [← List.append_assoc]
    exact (h.trans ((FixedPool.perm_jobs_finish hjob).append_right _)).trans
      (List.perm_append_singleton _ _).symm
  | started => exact h.of_executor b.loads.executor.perm_jobs_start rfl rfl
  | @aborted i l hl =>
    exact h.of_executor (.of_eq (congrArg FixedPool.jobs (b.loads.executor_cancelSink l _))) rfl rfl
  | piped p u => exact h.of_executor (.of_eq (by rw [StreamLoads.usePipe_eq])) rfl rfl
  | _ => exact h.of_executor .rfl rfl rfl

theorem accounted_run (threads : Nat) (steps : List (LoadStep ρ)) :
    (run threads steps).Accounted := by
  induction steps using List.reverseRecOn with
  | nil => exact .nil
  | append_singleton steps c ih =>
    rw [run_snoc]
    exact ih.does (does_call _ c)

end Accounted

/-! ## One load -/

/-- What the calls for a load make of it. -/
@[ext]
structure View where
  status : Option LoadStatus
  checked : Nat
  begun : Nat
  accepted : Nat
  /-- How many accepted plans have not ended. -/
  unfinished : Nat

def view (b : LoadLedger ρ) (l : LoadId) : View where
  status := b.loads.status l
  checked := jobsFor l b.checked
  begun := jobsFor l b.begun
  accepted := jobsFor l b.accepted
  unfinished := jobsFor l b.loads.executor.jobs

/-- How one load fares in a step. -/
inductive Turn (b b' : LoadLedger ρ) (l : LoadId) : LoadStep ρ → Prop
  | still {c : LoadStep ρ} : b'.view l = b.view l → Turn b b' l c
  | created {c : LoadStep ρ} : (b.view l).status = none →
      b'.view l = { b.view l with status := some .pending } → Turn b b' l c
  | checked {plan : ρ} : (b.view l).status = some .pending →
      b'.view l = { b.view l with checked := (b.view l).checked + 1 } →
      Turn b b' l (.check l plan)
  | begun {i : Nat} : (b.view l).checked = (b'.view l).checked + 1 →
      b'.view l = { b.view l with
        status := (b.view l).status.map fun _ => .running
        checked := (b'.view l).checked
        begun := (b.view l).begun + 1 } → Turn b b' l (.begin i)
  | enqueued {i : Nat} : (b.view l).begun = (b'.view l).begun + 1 →
      b'.view l = { b.view l with
        begun := (b'.view l).begun
        accepted := (b.view l).accepted + 1
        unfinished := (b.view l).unfinished + 1 } → Turn b b' l (.enqueue i)
  | ended {i : Nat} {outcome : PlanEnd} :
      (b.view l).unfinished = (b'.view l).unfinished + 1 →
      b'.view l = { b.view l with
        status := (b.view l).status.map outcome.status
        unfinished := (b'.view l).unfinished } → Turn b b' l (.finish i outcome)
  | aborted {i : Nat} : b.doomed[i]? = some l →
      b'.view l = { b.view l with status := (b.view l).status.map fun _ => .aborted } →
      Turn b b' l (.abort i)

section Turn

variable (b : LoadLedger ρ) (l : LoadId)

theorem Turn.of_same {b b' : LoadLedger ρ} {l : LoadId} {c : LoadStep ρ}
    (hstatus : b'.loads.status l = b.loads.status l) (hchecked : b'.checked = b.checked)
    (hbegun : b'.begun = b.begun) (haccepted : b'.accepted = b.accepted)
    (hjobs : b'.loads.executor.jobs.Perm b.loads.executor.jobs) : Turn b b' l c :=
  .still (View.ext hstatus (congrArg (jobsFor l) hchecked) (congrArg (jobsFor l) hbegun)
    (congrArg (jobsFor l) haccepted) (hjobs.countP_eq _))

theorem turn_created (id : UniqueId) (database table label : String) (capacity : Nat) :
    Turn b { b with loads := (b.loads.newLoad id database table label capacity).1 } l
      (.create id database table label capacity) := by
  have hstatus := b.loads.status_newLoad l id database table label capacity
  by_cases hl : l = b.loads.loads.length
  · rw [if_pos hl] at hstatus
    refine .created ?_ (View.ext hstatus rfl rfl rfl rfl)
    rw [hl, view, StreamLoads.status, StreamLoads.load?, List.getElem?_eq_none (Nat.le_refl _),
      Option.map_none]
  · rw [if_neg hl] at hstatus
    exact .of_same hstatus rfl rfl rfl .rfl

theorem turn_checked {m : LoadId} {plan : ρ} (hst : b.loads.status m = some .pending) :
    Turn b { b with checked := b.checked ++ [(m, plan)] } l (.check m plan) := by
  by_cases hl : m = l
  · subst hl
    exact .checked hst (View.ext rfl (jobsFor_snoc.trans (by simp [view])) rfl rfl rfl)
  · exact .still (View.ext rfl (jobsFor_snoc.trans (by simp [view, hl])) rfl rfl rfl)

theorem turn_begun {i : Nat} {job : LoadId × ρ} (hjob : b.checked[i]? = some job) :
    Turn b { b with
      loads := b.loads.begin job.1
      checked := b.checked.eraseIdx i
      begun := b.begun ++ [job] } l (.begin i) := by
  have hstatus := b.loads.status_setStatus job.1 l .running
  have hchecked := jobsFor_eraseIdx (l := l) hjob
  have hbegun : jobsFor l (b.begun ++ [job]) = jobsFor l b.begun + if job.1 = l then 1 else 0 :=
    jobsFor_snoc
  by_cases hl : job.1 = l
  · rw [if_pos hl.symm] at hstatus
    rw [if_pos hl] at hchecked hbegun
    exact .begun hchecked (View.ext hstatus rfl hbegun rfl rfl)
  · rw [if_neg (Ne.symm hl)] at hstatus
    rw [if_neg hl] at hchecked hbegun
    exact .still (View.ext hstatus hchecked.symm hbegun rfl rfl)

theorem turn_enqueued {i : Nat} {job : LoadId × ρ} (hjob : b.begun[i]? = some job) :
    Turn b { b with
      loads := b.loads.enqueue job.1 job.2
      begun := b.begun.eraseIdx i
      accepted := b.accepted ++ [job] } l (.enqueue i) := by
  have hbegun := jobsFor_eraseIdx (l := l) hjob
  have haccepted : jobsFor l (b.accepted ++ [job])
      = jobsFor l b.accepted + if job.1 = l then 1 else 0 := jobsFor_snoc
  have hjobs : jobsFor l (b.loads.enqueue job.1 job.2).executor.jobs
      = jobsFor l b.loads.executor.jobs + if job.1 = l then 1 else 0 :=
    ((b.loads.executor.perm_jobs_enqueue job).countP_eq _).trans jobsFor_cons
  by_cases hl : job.1 = l
  · rw [if_pos hl] at hbegun haccepted hjobs
    exact .enqueued hbegun (View.ext rfl rfl rfl haccepted hjobs)
  · rw [if_neg hl] at hbegun haccepted hjobs
    exact .still (View.ext rfl rfl hbegun.symm haccepted hjobs)

theorem turn_ended {i : Nat} {job : LoadId × ρ} (outcome : PlanEnd)
    (hjob : b.loads.executor.active[i]? = some job) :
    Turn b { b with
      loads := ({ b.loads with executor := b.loads.executor.finish i }.conclude job.1 outcome).1
      ended := b.ended ++ [(job, outcome)] } l (.finish i outcome) := by
  have hstatus := StreamLoads.status_conclude
    { b.loads with executor := b.loads.executor.finish i } job.1 l outcome
  have hexecutor := StreamLoads.executor_conclude
    { b.loads with executor := b.loads.executor.finish i } job.1 outcome
  have hjobs : jobsFor l b.loads.executor.jobs
      = jobsFor l (b.loads.executor.finish i).jobs + if job.1 = l then 1 else 0 :=
    ((FixedPool.perm_jobs_finish hjob).countP_eq _).trans jobsFor_cons
  rw [← congrArg FixedPool.jobs hexecutor] at hjobs
  by_cases hl : job.1 = l
  · rw [if_pos hl.symm] at hstatus
    rw [if_pos hl] at hjobs
    exact .ended hjobs (View.ext hstatus rfl rfl rfl rfl)
  · rw [if_neg (Ne.symm hl)] at hstatus
    rw [if_neg hl] at hjobs
    exact .still (View.ext hstatus rfl rfl rfl hjobs.symm)

theorem turn_aborted {i : Nat} {m : LoadId} (hm : b.doomed[i]? = some m) :
    Turn b { b with
      loads := (b.loads.cancelSink m StreamLoads.closing).setStatus m .aborted
      doomed := b.doomed.eraseIdx i } l (.abort i) := by
  have hstatus := b.loads.status_abort m l StreamLoads.closing
  have hjobs : jobsFor l
      ((b.loads.cancelSink m StreamLoads.closing).setStatus m .aborted).executor.jobs
        = jobsFor l b.loads.executor.jobs :=
    congrArg (fun p : FixedPool _ => jobsFor l p.jobs) (b.loads.executor_cancelSink m _)
  by_cases hl : l = m
  · subst hl
    rw [if_pos rfl] at hstatus
    exact .aborted hm (View.ext hstatus rfl rfl rfl hjobs)
  · rw [if_neg hl] at hstatus
    exact .still (View.ext hstatus rfl rfl rfl hjobs)

/-- One section is one `Turn` for each load. -/
theorem Does.turn {b b' : LoadLedger ρ} {c : LoadStep ρ} (h : Does b c b') (l : LoadId) :
    Turn b b' l c := by
  cases h with
  | created id database table label capacity =>
    exact b.turn_created l id database table label capacity
  | sawPending hst => exact b.turn_checked l hst
  | begun hjob => exact b.turn_begun l hjob
  | enqueued hjob => exact b.turn_enqueued l hjob
  | ended hjob => exact b.turn_ended l _ hjob
  | aborted hl => exact b.turn_aborted l hl
  | started => exact .of_same rfl rfl rfl rfl b.loads.executor.perm_jobs_start
  | piped p u =>
    rw [StreamLoads.usePipe_eq]
    exact .of_same rfl rfl rfl rfl .rfl
  | _ => exact .of_same rfl rfl rfl rfl .rfl

theorem turn_call (c : LoadStep ρ) : Turn b (b.call c) l c := (b.does_call c).turn l

end Turn

/-- Nobody has made a load running that is pending. -/
structure View.Sane (v : View) : Prop where
  checked_eq : v.status = none → v.checked = 0
  begun_eq : v.status = none ∨ v.status = some .pending → v.begun + v.accepted = 0
  unfinished_le : v.unfinished ≤ v.accepted

/-- One section keeps a view sane. The load of a plan that ends was accepted, so it is no longer
pending. -/
theorem View.Sane.turn {b b' : LoadLedger ρ} {l : LoadId} {c : LoadStep ρ}
    (h : (b.view l).Sane) (ht : Turn b b' l c) : (b'.view l).Sane := by
  obtain ⟨hchecked, hbegun, hle⟩ := h
  cases ht with
  | still hv =>
    rw [hv]
    exact ⟨hchecked, hbegun, hle⟩
  | created hnone hv =>
    rw [hv]
    exact ⟨nofun, fun _ => hbegun (.inl hnone), hle⟩
  | checked hst hv =>
    rw [hv]
    refine ⟨fun hnone => ?_, hbegun, hle⟩
    rw [hst] at hnone
    cases hnone
  | begun hc hv =>
    have hsome : (b.view l).status ≠ none := fun hnone => by
      have := hchecked hnone
      omega
    rw [hv]
    refine ⟨fun hnone => absurd (Option.map_eq_none_iff.1 hnone) hsome, fun hst => ?_, hle⟩
    obtain ⟨st, hst'⟩ := Option.ne_none_iff_exists'.1 hsome
    simp [hst'] at hst
  | enqueued hb hv =>
    rw [hv]
    refine ⟨hchecked, fun hst => ?_, Nat.succ_le_succ hle⟩
    have := hbegun hst
    omega
  | @ended i outcome hu hv =>
    have hst : ∀ st, st = none ∨ st = some .pending → (b.view l).status ≠ st := fun st hst h => by
      have := hbegun (h ▸ hst)
      omega
    rw [hv]
    refine ⟨fun hnone => absurd (Option.map_eq_none_iff.1 hnone) (hst none (.inl rfl)),
      fun hnone => ?_, by dsimp only; omega⟩
    rcases hnone with hnone | hpending
    · exact absurd (Option.map_eq_none_iff.1 hnone) (hst none (.inl rfl))
    · obtain ⟨st, hst', hout⟩ := Option.map_eq_some_iff.1 hpending
      cases outcome with
      | succeeded | failed => cases hout
      | panicked => exact absurd hst' (hst _ (.inr (congrArg some hout)))
  | aborted hd hv =>
    rw [hv]
    refine ⟨fun hnone => hchecked (Option.map_eq_none_iff.1 hnone), fun hst => ?_, hle⟩
    rcases hst with hnone | hpending
    · exact hbegun (.inl (Option.map_eq_none_iff.1 hnone))
    · obtain ⟨st, -, hst'⟩ := Option.map_eq_some_iff.1 hpending
      cases hst'

theorem sane_run (threads : Nat) (steps : List (LoadStep ρ)) (l : LoadId) :
    ((run threads steps).view l).Sane := by
  induction steps using List.reverseRecOn with
  | nil => exact ⟨fun _ => rfl, fun _ => rfl, Nat.le_refl _⟩
  | append_singleton steps c ih =>
    rw [run_snoc]
    exact ih.turn (turn_call _ l c)

/-! ## Races -/

/-- In this step somebody sees the load pending, and another one who saw it so has not made it
running yet. -/
def RacesIn (b : LoadLedger ρ) (l : LoadId) (c : LoadStep ρ) : Prop :=
  ∃ plan other, c = .check l plan ∧ b.loads.status l = some .pending ∧ (l, other) ∈ b.checked

def Raced (threads : Nat) (steps : List (LoadStep ρ)) (l : LoadId) : Prop :=
  ∃ before c rest, steps = before ++ c :: rest ∧ (run threads before).RacesIn l c

section Raced

variable {threads : Nat} {steps : List (LoadStep ρ)} {l : LoadId} {b : LoadLedger ρ}

theorem raced_snoc_iff {c : LoadStep ρ} : Raced threads (steps ++ [c]) l
    ↔ Raced threads steps l ∨ (run threads steps).RacesIn l c :=
  exists_split_snoc

theorem admitted_check {plan : ρ} (hst : b.loads.status l = some .pending) :
    (b.call (.check l plan)).admitted l = b.admitted l + 1 := by
  rcases b.check_cases l plan with ⟨-, hcall⟩ | ⟨st, hst', hne, -⟩ | ⟨hnone, -⟩
  · have hchecked : jobsFor l (b.checked ++ [(l, plan)]) = jobsFor l b.checked + 1 :=
      jobsFor_snoc.trans (by rw [if_pos rfl])
    rw [hcall]
    unfold admitted
    dsimp only
    omega
  · exact absurd (Option.some.inj (hst'.symm.trans hst)) hne
  · rw [hst] at hnone
    cases hnone

/-- Only to see the load pending admits one more. -/
theorem admitted_call (b : LoadLedger ρ) (l : LoadId) (c : LoadStep ρ) :
    (b.call c).admitted l = b.admitted l
      ∨ ∃ plan, c = .check l plan ∧ b.loads.status l = some .pending := by
  have hsum : ∀ b : LoadLedger ρ,
      b.admitted l = (b.view l).checked + (b.view l).begun + (b.view l).accepted := fun _ => rfl
  rw [hsum, hsum]
  cases b.turn_call l c with
  | still hv => exact .inl (by rw [hv])
  | created _ hv | ended _ hv | aborted _ hv => exact .inl (by rw [hv])
  | @checked plan hst hv => exact .inr ⟨plan, rfl, hst⟩
  | begun hc hv =>
    have hbegun := congrArg View.begun hv
    have haccepted := congrArg View.accepted hv
    dsimp only at hbegun haccepted
    exact .inl (by omega)
  | enqueued hb hv =>
    have hchecked := congrArg View.checked hv
    have haccepted := congrArg View.accepted hv
    dsimp only at hchecked haccepted
    exact .inl (by omega)

/-- Nobody has raced for a load exactly if one caller at most is admitted. Who is admitted to a load
that is pending has only looked. -/
theorem admitted_le_one_iff : (run threads steps).admitted l ≤ 1 ↔ ¬ Raced threads steps l := by
  induction steps using List.reverseRecOn with
  | nil =>
    refine iff_of_true (Nat.zero_le _) ?_
    rintro ⟨before, c, rest, h, -⟩
    simp at h
  | append_singleton steps c ih =>
    rw [raced_snoc_iff, not_or, ← ih, run_snoc]
    by_cases hc : ∃ plan, c = .check l plan ∧ (run threads steps).loads.status l = some .pending
    · obtain ⟨plan, rfl, hst⟩ := hc
      have hbegun : jobsFor l (run threads steps).begun + jobsFor l (run threads steps).accepted
          = 0 := (sane_run threads steps l).begun_eq (.inr hst)
      have hsum : (run threads steps).admitted l = jobsFor l (run threads steps).checked := by
        unfold admitted
        omega
      rw [admitted_check hst, hsum]
      constructor
      · intro hle
        refine ⟨by omega, fun ⟨_, other, _, _, hmem⟩ => ?_⟩
        have hpos := jobsFor_pos_iff.2 ⟨other, hmem⟩
        omega
      · rintro ⟨-, hnone⟩
        have hzero : ¬ 0 < jobsFor l (run threads steps).checked := fun hpos => by
          obtain ⟨other, hmem⟩ := jobsFor_pos_iff.1 hpos
          exact hnone ⟨plan, other, rfl, hst, hmem⟩
        omega
    · have hsame := ((run threads steps).admitted_call l c).resolve_right hc
      rw [hsame]
      exact (and_iff_left fun ⟨plan, _, hcheck, hst, _⟩ => hc ⟨plan, hcheck, hst⟩).symm

theorem jobsFor_executed_le (h : b.Accounted) :
    jobsFor l b.executed ≤ jobsFor l b.accepted := by
  have hcount : jobsFor l b.accepted
      = jobsFor l b.loads.executor.queue + jobsFor l b.executed :=
    (h.countP_eq _).trans List.countP_append
  omega

end Raced

/-- Every accepted plan is queued or executed, once, and no other plan is. A load has a second call
accepted, or one that will be, exactly if somebody looked at it while another call was between
seeing it pending and making it running; otherwise no second plan is executed for it. -/
theorem accepted_once_iff (threads : Nat) (steps : List (LoadStep ρ)) (l : LoadId) :
    let b := run threads steps
    b.accepted.Perm (b.loads.executor.queue ++ b.executed)
      ∧ (b.admitted l ≤ 1 ↔ ¬ Raced threads steps l)
      ∧ (¬ Raced threads steps l → jobsFor l b.accepted ≤ 1 ∧ jobsFor l b.executed ≤ 1)
      ∧ (jobsFor l b.checked = 0 → jobsFor l b.begun = 0 →
          (jobsFor l b.accepted ≤ 1 ↔ ¬ Raced threads steps l)) := by
  intro b
  have haccounted : b.Accounted := accounted_run threads steps
  have hle : jobsFor l b.executed ≤ jobsFor l b.accepted := jobsFor_executed_le haccounted
  have hiff : b.admitted l ≤ 1 ↔ ¬ Raced threads steps l := admitted_le_one_iff
  have hsum : b.admitted l
      = jobsFor l b.checked + jobsFor l b.begun + jobsFor l b.accepted := rfl
  refine ⟨haccounted, hiff, fun h => ?_, fun hchecked hbegun => ?_⟩
  · have hone := hiff.2 h
    exact ⟨by omega, by omega⟩
  · rw [← hiff, hsum, hchecked, hbegun, Nat.zero_add]

/-- Two callers both see the load pending before either makes it running; both are accepted, and
both plans are executed. -/
theorem accepted_twice : ¬ ∀ (threads : Nat) (steps : List (LoadStep Nat)) (l : LoadId),
    jobsFor l (run threads steps).accepted ≤ 1 ∧ jobsFor l (run threads steps).executed ≤ 1 := by
  intro h
  have hone := h 1 [.create ⟨0, 1⟩ "db" "t" "l" 64, .check 0 1, .check 0 2, .begin 0, .begin 0,
    .enqueue 0, .enqueue 0, .start, .finish 0 .succeeded, .start, .finish 0 .succeeded] 0
  exact absurd hone.1 (by decide)

/-! ## What is done in one go -/

section OneGo

variable {b : LoadLedger ρ} {l : LoadId} {x : StreamLoad} {plan : ρ}

theorem execute_steps {s : StreamLoads ρ} (hx : b.loads.load? l = some x)
    (h : b.loads.execute l plan = .ok s) :
    [.check l plan, .begin b.checked.length, .enqueue b.begun.length].foldl call b
      = { b with loads := s, accepted := b.accepted ++ [(l, plan)] } := by
  simp only [StreamLoads.execute, StreamLoads.check_eq hx] at h
  by_cases hst : x.status = .pending
  · rw [if_pos hst] at h
    obtain rfl := Except.ok.inj h
    simp [call, hx, StreamLoads.check_eq hx, hst, List.eraseIdx_append_of_length_le]
  · rw [if_neg hst] at h
    cases h

theorem execute_refused {f : Failure} (hx : b.loads.load? l = some x)
    (h : b.loads.execute l plan = .error f) :
    [.check l plan, .refuse b.refused.length].foldl call b
      = { b with rejected := b.rejected ++ [((l, plan), f)] } := by
  simp only [StreamLoads.execute, StreamLoads.check_eq hx] at h
  by_cases hst : x.status = .pending
  · rw [if_pos hst] at h
    cases h
  · rw [if_neg hst] at h
    obtain rfl := Except.error.inj h
    simp [call, hx, StreamLoads.check_eq hx, hst, List.eraseIdx_append_of_length_le]

/-- To abort the doomed loads one by one is to abort them all. -/
theorem abort_steps (before : List LoadId) : ∀ (ls : List LoadId) (b : LoadLedger ρ),
    b.doomed = before ++ ls →
      (List.replicate ls.length (.abort before.length)).foldl call b
        = { b with
            loads := ls.foldl (fun s l => (s.cancelSink l StreamLoads.closing).setStatus l .aborted)
              b.loads
            doomed := before }
  | [], b, hdoomed => by
    rw [List.append_nil] at hdoomed
    simp [← hdoomed]
  | l :: ls, b, hdoomed => by
    have hcall : b.call (.abort before.length) = { b with
        loads := (b.loads.cancelSink l StreamLoads.closing).setStatus l .aborted
        doomed := before ++ ls } := by
      simp [call, hdoomed, List.eraseIdx_append_of_length_le]
    rw [List.length_cons, List.replicate_succ, List.foldl_cons, hcall,
      abort_steps before ls _ rfl]
    rfl

theorem close_steps (b : LoadLedger ρ) :
    (.drain :: List.replicate b.loads.registered.values.length (.abort b.doomed.length)).foldl
        call b
      = { b with loads := b.loads.close } := by
  rw [List.foldl_cons]
  exact abort_steps b.doomed b.loads.registered.values _ rfl

/-- To let the plans go on is a run of starts and ends. -/
theorem settle_steps (fate : ρ → Option PlanEnd) (b : LoadLedger ρ) :
    ∃ steps : List (LoadStep ρ), (steps.foldl call b).loads = (b.loads.settle fate).1 := by
  obtain ⟨hworks, hripe⟩ := b.loads.executor.settle_works fun job => (fate job.2).isSome
  rw [StreamLoads.settle_eq]
  refine hworks.calls call loads (·.executor) (fun s executor => { s with executor })
    (fun _ _ => rfl) (fun _ _ _ => rfl) (fun _ => rfl) (StreamLoads.concludeFated_executor fate)
    (fun b => ⟨.start, rfl⟩) (fun b i job hjob hfate => ?_) hripe b rfl
  obtain ⟨e, he⟩ := Option.isSome_iff_exists.1 hfate
  refine ⟨.finish i e, ?_⟩
  simp only [call, hjob, StreamLoads.concludeFated, he]

end OneGo

end LoadLedger

end QueryHost
