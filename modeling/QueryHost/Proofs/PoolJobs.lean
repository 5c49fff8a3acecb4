import Mathlib.Data.List.Perm.Basic
import QueryHost.Proofs.PoolBalance

/-!
# The jobs of a pool

The jobs that a pool has accepted and that have not ended are queued or in the hands of a worker
(`jobs`). Up to their order they are the same after a worker has looked at the queue or woken up
(`perm_jobs_look`, `perm_jobs_wake`); a submission adds its job (`perm_jobs_push`), a job that
ends is gone (`perm_jobs_finish`), and a shutdown drops the queued ones (`jobs_shutDown`).
-/

namespace QueryHost

/-- The number of a submission. -/
abbrev Ticket := Nat

/-- Tickets stay apart, and below the next one, when a ticket is given. -/
theorem nodup_lt_of_issue {issued issued' : List Ticket} {tickets : Nat} (hnodup : issued.Nodup)
    (hlt : ∀ k ∈ issued, k < tickets) (hperm : issued'.Perm (tickets :: issued)) :
    issued'.Nodup ∧ ∀ k ∈ issued', k < tickets + 1 := by
  have hnew : tickets ∉ issued := fun hmem => Nat.lt_irrefl _ (hlt _ hmem)
  refine ⟨hperm.nodup_iff.2 (List.nodup_cons.2 ⟨hnew, hnodup⟩), fun k hk => ?_⟩
  rcases List.mem_cons.1 (hperm.mem_iff.1 hk) with rfl | hk
  · exact Nat.lt_succ_self _
  · exact Nat.lt_succ_of_lt (hlt k hk)

variable {τ : Type}

namespace Worker

def job? : Worker τ → Option τ
  | .executing job => some job
  | _ => none

@[simp] theorem job?_looking : (.looking : Worker τ).job? = none := rfl
@[simp] theorem job?_waiting : (.waiting : Worker τ).job? = none := rfl
@[simp] theorem job?_executing (job : τ) : (.executing job : Worker τ).job? = some job := rfl

end Worker

namespace ThreadPool

@[simp] theorem closed_set (p : ThreadPool τ) (w : WorkerId) (stage : Worker τ) :
    (p.set w stage).closed = p.closed := rfl

@[simp] theorem closed_finish (p : ThreadPool τ) (w : WorkerId) :
    (p.finish w).closed = p.closed := rfl

theorem closed_push {p q : ThreadPool τ} {task : τ} (h : p.push task = .ok q) :
    p.closed = false ∧ q.closed = false := by
  obtain ⟨ho, -, ⟨-, -, rfl⟩ | ⟨-, rfl⟩⟩ := push_cases h <;> exact ⟨ho, ho⟩

theorem closed_look (p : ThreadPool τ) (w : WorkerId) : (p.look w).closed = p.closed := by
  rcases look_cases p w with ⟨-, hl⟩ | ⟨_, _, -, -, hl⟩ | ⟨-, -, hl⟩ <;> rw [hl] <;> rfl

theorem closed_wake (p : ThreadPool τ) (w : WorkerId) (timedOut : Bool) :
    (p.wake w timedOut).closed = p.closed := by
  rcases wake_cases p w timedOut with ⟨-, -, hl⟩ | hl
  · rw [hl]
    rfl
  · rw [hl, closed_look]

/-- The jobs in the hands of the workers. -/
def executing (p : ThreadPool τ) : List τ := p.workers.values.filterMap Worker.job?

/-- The jobs that have been accepted and have not ended. -/
def jobs (p : ThreadPool τ) : List τ := p.queue ++ p.executing

section Jobs

variable {p q : ThreadPool τ} {w : WorkerId} {stage : Worker τ} {job : τ}

/-- What the other workers execute while `w` goes over to another stage. -/
def others (p : ThreadPool τ) (w : WorkerId) : List τ :=
  (p.workers.erase w).values.filterMap Worker.job?

theorem perm_executing (hw : p.workers.get? w = some stage) :
    p.executing.Perm (stage.job?.toList ++ p.others w) := by
  have hperm := (Assoc.values_perm hw).filterMap Worker.job?
  rw [List.filterMap_cons] at hperm
  cases hs : stage.job? <;> simpa [executing, others, hs] using hperm

theorem perm_executing_set (p : ThreadPool τ) (w : WorkerId) (next : Worker τ) :
    (p.set w next).executing.Perm (next.job?.toList ++ p.others w) := by
  have hperm := (Assoc.values_put_perm p.workers w next).filterMap Worker.job?
  rw [List.filterMap_cons] at hperm
  cases hn : next.job? <;> simpa [executing, others, set, hn] using hperm

theorem perm_executing_hire (hc : Counted 0 p) : p.hire.executing.Perm p.executing := by
  have hperm := (Assoc.values_put_perm_of_none .looking hc.get?_next).filterMap Worker.job?
  rwa [List.filterMap_cons_none Worker.job?_looking] at hperm

theorem perm_jobs_push (hc : Counted 0 p) (h : p.push job = .ok q) :
    q.jobs.Perm (job :: p.jobs) := by
  have hpush : Counted 0 { p with queue := p.queue ++ [job] } :=
    ⟨hc.lt_next, hc.threads_eq, hc.idle_eq⟩
  have hjobs : (p.queue ++ [job] ++ p.executing).Perm (job :: p.jobs) := by
    rw [List.append_assoc]
    exact List.perm_middle
  obtain ⟨-, -, ⟨-, -, rfl⟩ | ⟨-, rfl⟩⟩ := push_cases h
  · exact ((perm_executing_hire hpush).append_left _).trans hjobs
  · exact hjobs

theorem perm_jobs_look (hw : p.workers.get? w = some stage) (hs : stage.job? = none) :
    (p.look w).jobs.Perm p.jobs := by
  have hrest : p.executing.Perm (p.others w) := by simpa [hs] using perm_executing hw
  rcases look_cases p w with ⟨-, hl⟩ | ⟨job, rest, -, hq, hl⟩ | ⟨-, -, hl⟩
  · rw [hl]
    exact hrest.symm.append_left _
  · have htaken : (p.set w (.executing job)).executing.Perm (job :: p.executing) :=
      (perm_executing_set p w _).trans (hrest.symm.cons job)
    rw [hl, jobs, jobs, hq]
    exact (htaken.append_left rest).trans List.perm_middle
  · rw [hl]
    exact ((perm_executing_set p w .waiting).trans hrest.symm).append_left _

theorem perm_jobs_wake (hw : p.workers.get? w = some .waiting) (timedOut : Bool) :
    (p.wake w timedOut).jobs.Perm p.jobs := by
  rcases wake_cases p w timedOut with ⟨-, -, hl⟩ | hl
  · rw [hl]
    have hrest : p.executing.Perm (p.others w) := by simpa using perm_executing hw
    exact hrest.symm.append_left _
  · rw [hl]
    exact perm_jobs_look (p := { p with idle := p.idle - 1 }) hw rfl

/-- The jobs that are not in the hands of `w`. -/
def jobsBeside (p : ThreadPool τ) (w : WorkerId) : List τ := p.queue ++ p.others w

theorem perm_jobs_of_executing (hw : p.workers.get? w = some (.executing job)) :
    p.jobs.Perm (job :: p.jobsBeside w) :=
  ((perm_executing hw).append_left _).trans List.perm_middle

theorem perm_jobs_set (p : ThreadPool τ) (w : WorkerId) (next : τ) :
    (p.set w (.executing next)).jobs.Perm (next :: p.jobsBeside w) :=
  ((perm_executing_set p w _).append_left _).trans List.perm_middle

theorem perm_jobs_finish (p : ThreadPool τ) (w : WorkerId) :
    (p.finish w).jobs.Perm (p.jobsBeside w) :=
  (perm_executing_set p w _).append_left _

theorem jobs_shutDown (p : ThreadPool τ) : p.shutDown.jobs.Sublist p.jobs := by
  refine List.Sublist.append ?_ (List.Sublist.refl _)
  unfold shutDown
  split
  · exact List.Sublist.refl _
  · exact List.nil_sublist _

theorem Founding.jobs_eq {shape : PoolShape} {n : Nat} (h : Founding shape n p)
    (hn : n ≤ shape.minThreads) : p.jobs = [] := by
  induction h with
  | empty => rfl
  | hire hf ih =>
    have hempty := List.append_eq_nil_iff.1 (ih (by omega))
    obtain ⟨hc, -⟩ := hf.state (by omega)
    exact List.append_eq_nil_iff.2
      ⟨hempty.1, List.perm_nil.1 (hempty.2 ▸ perm_executing_hire hc)⟩
  | look w hf hw ih =>
    exact List.perm_nil.1 (ih hn ▸ perm_jobs_look hw rfl)
  | wake w timedOut hf hw ih =>
    exact List.perm_nil.1 (ih hn ▸ perm_jobs_wake hw timedOut)

end Jobs

end ThreadPool

end QueryHost
