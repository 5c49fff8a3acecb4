import Mathlib.Data.List.Infix
import Mathlib.Logic.Relation
import QueryHost.Proofs.PoolJobs
import QueryHost.Threads.Tokens

/-!
# What becomes of the tasks of a pool

Callers submit tasks to a pool while its workers go on, and the pool may be shut down in the midst
of it. `PoolRun` keeps beside the pool what became of each task; a task is known by its ticket.

A worker that has its turn takes what comes first in the queue, or nothing (`inHand_look`). So the
tasks that were accepted are those that were started, then those that a shutdown dropped, and then
those in the queue, in this order (`Sound.accepted_eq`). Nothing is dropped before the shutdown and
nothing is queued after it, and so it drops what is queued then and nothing starts any more
(`Reachable.tasks_accounted`).
-/

namespace QueryHost

open Relation

/-- A pool at work, with what became of the tasks that were submitted to it. -/
structure PoolRun where
  pool : ThreadPool Ticket
  /-- How many tickets were given out. -/
  tickets : Nat := 0
  accepted : List Ticket := []
  refused : List Ticket := []
  started : List Ticket := []
  ended : List (Ticket × Ending) := []
  dropped : List Ticket := []
  deriving Repr

namespace ThreadPool

variable {τ : Type}

/-- The task that a worker executes. -/
def inHand (p : ThreadPool τ) (w : WorkerId) : Option τ := (p.workers.get? w).bind Worker.job?

end ThreadPool

namespace PoolRun

/-- A worker has had its turn and may have taken a task. -/
def turned (s : PoolRun) (w : WorkerId) (pool : ThreadPool Ticket) : PoolRun :=
  { s with pool, started := s.started ++ (pool.inHand w).toList }

def shutDown (s : PoolRun) : PoolRun :=
  { s with
    pool := s.pool.shutDown
    dropped := s.dropped ++ s.pool.queue.filter (· ∉ s.pool.shutDown.queue) }

def endedTasks (s : PoolRun) : List Ticket := s.ended.map (·.1)

/-- One step of anybody. A caller's ticket is the next one. -/
inductive Step : PoolRun → PoolRun → Prop
  | submit {s : PoolRun} {pool : ThreadPool Ticket} : s.pool.push s.tickets = .ok pool →
      Step s { s with pool, tickets := s.tickets + 1, accepted := s.accepted ++ [s.tickets] }
  | refuse {s : PoolRun} {f : Failure} : s.pool.push s.tickets = .error f →
      Step s { s with tickets := s.tickets + 1, refused := s.refused ++ [s.tickets] }
  | look {s : PoolRun} (w : WorkerId) : s.pool.workers.get? w = some .looking →
      Step s (s.turned w (s.pool.look w))
  | wake {s : PoolRun} (w : WorkerId) (timedOut : Bool) :
      s.pool.workers.get? w = some .waiting → Step s (s.turned w (s.pool.wake w timedOut))
  /-- A task has returned, or has panicked. -/
  | finish {s : PoolRun} (w : WorkerId) (task : Ticket) (how : Ending) :
      s.pool.workers.get? w = some (.executing task) →
      Step s { s with pool := s.pool.finish w, ended := s.ended ++ [(task, how)] }
  | shutDown {s : PoolRun} : Step s s.shutDown

/-- The states of a pool of a shape that can be built. -/
inductive Reachable (shape : PoolShape) : PoolRun → Prop
  | founded {refuses : ThreadRefusals} {built pool : ThreadPool Ticket} :
      ThreadPool.build refuses shape = .ok built →
      ThreadPool.Founding shape shape.minThreads pool → Reachable shape { pool }
  | step {s s' : PoolRun} : Reachable shape s → Step s s' → Reachable shape s'

end PoolRun

/-! ## A worker's turn -/

namespace ThreadPool

variable {τ : Type} {p : ThreadPool τ} {w : WorkerId}

@[simp] theorem inHand_leave (p : ThreadPool τ) (w : WorkerId) : (p.leave w).inHand w = none := by
  simp [inHand, leave]

@[simp] theorem inHand_set (p : ThreadPool τ) (w : WorkerId) (stage : Worker τ) :
    (p.set w stage).inHand w = stage.job? := by
  simp [inHand, set]

/-- What a worker takes comes first in the queue, and the rest stays there. -/
theorem inHand_look (p : ThreadPool τ) (w : WorkerId) :
    ((p.look w).inHand w).toList ++ (p.look w).queue = p.queue
      ∧ (p.closed = true → (p.look w).inHand w = none) := by
  rcases look_cases p w with ⟨-, hl⟩ | ⟨task, rest, ho, hq, hl⟩ | ⟨-, -, hl⟩
  · rw [hl, inHand_leave]
    exact ⟨rfl, fun _ => rfl⟩
  · have hhand : (p.look w).inHand w = some task := by
      rw [hl]
      exact inHand_set p w (.executing task)
    rw [hhand, hl, hq]
    exact ⟨rfl, fun hc => by simp [ho] at hc⟩
  · have hhand : (p.look w).inHand w = none := by
      rw [hl]
      exact inHand_set p w .waiting
    rw [hhand, hl]
    exact ⟨rfl, fun _ => rfl⟩

theorem inHand_wake (p : ThreadPool τ) (w : WorkerId) (timedOut : Bool) :
    ((p.wake w timedOut).inHand w).toList ++ (p.wake w timedOut).queue = p.queue
      ∧ (p.closed = true → (p.wake w timedOut).inHand w = none) := by
  rcases wake_cases p w timedOut with ⟨-, -, hl⟩ | hl
  · rw [hl, inHand_leave]
    exact ⟨rfl, fun _ => rfl⟩
  · rw [hl]
    exact inHand_look { p with idle := p.idle - 1 } w

theorem executing_push (hc : Counted 0 p) {q : ThreadPool τ} {task : τ}
    (h : p.push task = .ok q) : q.queue = p.queue ++ [task] ∧ q.executing.Perm p.executing := by
  obtain ⟨-, -, ⟨-, -, rfl⟩ | ⟨-, rfl⟩⟩ := push_cases h
  · exact ⟨rfl, perm_executing_hire (p := { p with queue := p.queue ++ [task] })
      ⟨hc.lt_next, hc.threads_eq, hc.idle_eq⟩⟩
  · exact ⟨rfl, .refl _⟩

end ThreadPool

namespace PoolRun

open ThreadPool
open scoped List

variable {shape : PoolShape} {s s' : PoolRun} {w : WorkerId}

/-! ## Every step -/

structure Sound (s : PoolRun) : Prop where
  counted : Counted 0 s.pool
  accepted_eq : s.accepted = s.started ++ s.dropped ++ s.pool.queue
  started_perm : s.started.Perm (s.pool.executing ++ s.endedTasks)
  dropped_eq : s.pool.closed = false → s.dropped = []
  queue_eq : s.pool.closed = true → s.pool.queue = []
  nodup : (s.accepted ++ s.refused).Nodup
  lt_tickets : ∀ k ∈ s.accepted ++ s.refused, k < s.tickets

theorem Sound.submit (h : s.Sound) {pool : ThreadPool Ticket}
    (hs : s.pool.push s.tickets = .ok pool) :
    Sound { s with pool, tickets := s.tickets + 1, accepted := s.accepted ++ [s.tickets] } := by
  obtain ⟨hqueue, hexec⟩ := executing_push h.counted hs
  obtain ⟨ho, hclosed⟩ := closed_push hs
  have hissued : (s.accepted ++ [s.tickets] ++ s.refused).Perm
      (s.tickets :: (s.accepted ++ s.refused)) := by
    rw [List.append_assoc]
    exact List.perm_middle
  obtain ⟨hnodup, hlt⟩ := nodup_lt_of_issue h.nodup h.lt_tickets hissued
  refine ⟨step_counted h.counted (.submit _ hs), ?_,
    h.started_perm.trans (hexec.symm.append_right _), fun _ => h.dropped_eq ho,
    fun hc => by simp [hclosed] at hc, hnodup, hlt⟩
  simp only [h.accepted_eq, hqueue, List.append_assoc]

theorem Sound.refuse (h : s.Sound) :
    Sound { s with tickets := s.tickets + 1, refused := s.refused ++ [s.tickets] } := by
  have hissued : (s.accepted ++ (s.refused ++ [s.tickets])).Perm
      (s.tickets :: (s.accepted ++ s.refused)) := by
    rw [← List.append_assoc]
    exact List.perm_append_singleton _ _
  obtain ⟨hnodup, hlt⟩ := nodup_lt_of_issue h.nodup h.lt_tickets hissued
  exact ⟨h.counted, h.accepted_eq, h.started_perm, h.dropped_eq, h.queue_eq, hnodup, hlt⟩

/-- A worker that goes on keeps the accounts: an open pool has dropped nothing, and from a closed
one nothing is taken. -/
theorem Sound.turned (h : s.Sound) {pool : ThreadPool Ticket} (hc : Counted 0 pool)
    (hclosed : pool.closed = s.pool.closed) (hjobs : pool.jobs.Perm s.pool.jobs)
    (hhand : (pool.inHand w).toList ++ pool.queue = s.pool.queue
      ∧ (s.pool.closed = true → pool.inHand w = none)) : (s.turned w pool).Sound := by
  obtain ⟨htaken, hnone⟩ := hhand
  have hswap : (pool.inHand w).toList ++ s.dropped = s.dropped ++ (pool.inHand w).toList := by
    cases hc : s.pool.closed with
    | false => simp [h.dropped_eq hc]
    | true => simp [hnone hc]
  have hexec : pool.executing.Perm ((pool.inHand w).toList ++ s.pool.executing) := by
    rw [jobs, jobs, ← htaken] at hjobs
    refine (List.perm_append_left_iff pool.queue).1 (hjobs.trans ?_)
    rw [← List.append_assoc pool.queue]
    exact (List.perm_append_comm).append_right _
  refine ⟨hc, ?_, ?_, fun ho => h.dropped_eq (hclosed ▸ ho), fun hcl => ?_, h.nodup, h.lt_tickets⟩
  · calc s.accepted
        = s.started ++ s.dropped ++ ((pool.inHand w).toList ++ pool.queue) := by
          rw [htaken, h.accepted_eq]
      _ = s.started ++ (s.dropped ++ (pool.inHand w).toList) ++ pool.queue := by
          simp only [List.append_assoc]
      _ = s.started ++ (pool.inHand w).toList ++ s.dropped ++ pool.queue := by
          rw [← hswap, ← List.append_assoc s.started]
  · calc s.started ++ (pool.inHand w).toList
        ~ (pool.inHand w).toList ++ s.started := List.perm_append_comm
      _ ~ (pool.inHand w).toList ++ (s.pool.executing ++ s.endedTasks) :=
          h.started_perm.append_left _
      _ = (pool.inHand w).toList ++ s.pool.executing ++ s.endedTasks :=
          (List.append_assoc _ _ _).symm
      _ ~ pool.executing ++ s.endedTasks := hexec.symm.append_right _
  · have hqueue := h.queue_eq (hclosed ▸ hcl)
    rw [← htaken] at hqueue
    exact (List.append_eq_nil_iff.1 hqueue).2

theorem Sound.finish (h : s.Sound) {task : Ticket} (how : Ending)
    (hw : s.pool.workers.get? w = some (.executing task)) :
    Sound { s with pool := s.pool.finish w, ended := s.ended ++ [(task, how)] } := by
  have hexec : s.pool.executing.Perm (task :: (s.pool.finish w).executing) :=
    (perm_executing hw).trans ((perm_executing_set s.pool w .looking).symm.cons task)
  refine ⟨step_counted h.counted (.finish w task hw), h.accepted_eq, ?_, h.dropped_eq, h.queue_eq,
    h.nodup, h.lt_tickets⟩
  refine (h.started_perm.trans (hexec.append_right _)).trans ?_
  simp only [endedTasks, List.map_append, List.map_cons, List.map_nil, List.cons_append,
    ← List.append_assoc]
  exact (List.perm_append_singleton _ _).symm

theorem Sound.shutDown_eq (h : s.Sound) :
    s.shutDown.pool.queue = [] ∧ s.shutDown.dropped = s.dropped ++ s.pool.queue := by
  cases hc : s.pool.closed with
  | false => simp [PoolRun.shutDown, ThreadPool.shutDown, hc]
  | true => simp [PoolRun.shutDown, ThreadPool.shutDown, hc, h.queue_eq hc]

theorem Sound.shutDown (h : s.Sound) : s.shutDown.Sound := by
  obtain ⟨hqueue, hdropped⟩ := h.shutDown_eq
  refine ⟨step_counted h.counted .shutDown, ?_, h.started_perm, fun ho => ?_, fun _ => hqueue,
    h.nodup, h.lt_tickets⟩
  · rw [hqueue, hdropped, List.append_nil, ← List.append_assoc]
    exact h.accepted_eq
  · simp [PoolRun.shutDown, ThreadPool.shutDown] at ho

theorem Sound.step (h : s.Sound) (hs : Step s s') : s'.Sound := by
  cases hs with
  | submit hs => exact h.submit hs
  | refuse => exact h.refuse
  | look w hw =>
    exact h.turned (h.counted.look hw rfl) (closed_look _ _) (perm_jobs_look hw rfl)
      (inHand_look _ _)
  | wake w timedOut hw =>
    exact h.turned (h.counted.wake hw timedOut) (closed_wake _ _ _) (perm_jobs_wake hw timedOut)
      (inHand_wake _ _ _)
  | finish w task how hw => exact h.finish how hw
  | shutDown => exact h.shutDown

/-- Once a pool is shut down no task is started or dropped. -/
theorem Step.of_closed (hs : Step s s') (hsound : s.Sound) (hc : s.pool.closed = true) :
    s'.pool.closed = true ∧ s'.started = s.started ∧ s'.dropped = s.dropped := by
  cases hs with
  | submit hs => simp [(closed_push hs).1] at hc
  | refuse => exact ⟨hc, rfl, rfl⟩
  | look w hw =>
    refine ⟨(closed_look _ _).trans hc, ?_, rfl⟩
    simp [turned, (inHand_look s.pool w).2 hc]
  | wake w timedOut hw =>
    refine ⟨(closed_wake _ _ _).trans hc, ?_, rfl⟩
    simp [turned, (inHand_wake s.pool w timedOut).2 hc]
  | finish w task how hw => exact ⟨hc, rfl, rfl⟩
  | shutDown => exact ⟨rfl, rfl, by rw [hsound.shutDown_eq.2, hsound.queue_eq hc, List.append_nil]⟩

/-! ## Every run -/

theorem Reachable.sound (h : Reachable shape s) : s.Sound := by
  induction h with
  | @founded _ _ pool _ hf =>
    obtain ⟨hc, -, -, hq, ho⟩ := hf.state (Nat.le_refl _)
    obtain ⟨-, hexec⟩ := List.append_eq_nil_iff.1 (hf.jobs_eq (Nat.le_refl _))
    exact ⟨hc, hq.symm, by simp [endedTasks, hexec], fun _ => rfl, fun _ => hq, List.nodup_nil,
      fun k hk => nomatch hk⟩
  | step _ hstep ih => exact ih.step hstep

theorem Sound.runs_of_closed (h : s.Sound) (hc : s.pool.closed = true)
    (hrun : ReflTransGen Step s s') : s'.started = s.started ∧ s'.dropped = s.dropped := by
  suffices hall : s'.Sound ∧ s'.pool.closed = true ∧ s'.started = s.started
      ∧ s'.dropped = s.dropped from hall.2.2
  induction hrun with
  | refl => exact ⟨h, hc, rfl, rfl⟩
  | tail _ hstep ih =>
    obtain ⟨hsound, hclosed, hstarted, hdropped⟩ := ih
    obtain ⟨hclosed', hstarted', hdropped'⟩ := hstep.of_closed hsound hclosed
    exact ⟨hsound.step hstep, hclosed', hstarted'.trans hstarted, hdropped'.trans hdropped⟩

/-- Each accepted task is queued, or executed, or has ended, or was dropped, and is one of these
only. Tasks start in the order in which they were accepted, and a refused one never does. A shutdown
drops what is queued, and nothing starts after it; once the workers of a pool that is shut down have
left, it counts none. -/
theorem Reachable.tasks_accounted (h : Reachable shape s) :
    s.accepted.Nodup
      ∧ s.accepted.Perm (s.pool.queue ++ s.pool.executing ++ s.endedTasks ++ s.dropped)
      ∧ s.started <+: s.accepted ∧ s.started.Perm (s.pool.executing ++ s.endedTasks)
      ∧ (∀ k ∈ s.refused, k ∉ s.started)
      ∧ s.shutDown.pool.queue = [] ∧ s.shutDown.dropped = s.dropped ++ s.pool.queue
      ∧ (∀ s', ReflTransGen Step s.shutDown s' →
          s'.started = s.started ∧ s'.dropped = s.shutDown.dropped)
      ∧ (s.pool.closed = true → s.pool.workers.size = 0 → s.pool.threads = 0) := by
  have hsound := h.sound
  obtain ⟨hqueue, hdropped⟩ := hsound.shutDown_eq
  have hfirst : s.started <+: s.accepted :=
    ⟨s.dropped ++ s.pool.queue, by rw [← List.append_assoc]; exact hsound.accepted_eq.symm⟩
  refine ⟨(List.nodup_append.1 hsound.nodup).1, ?_, hfirst, hsound.started_perm,
    fun k hk hstarted => ?_, hqueue, hdropped, fun s' hrun => ?_, fun _ hnone => ?_⟩
  · rw [hsound.accepted_eq]
    have hperm := List.perm_append_comm.trans (hsound.started_perm.append_right s.dropped
      |>.append_left s.pool.queue)
    simpa only [List.append_assoc] using hperm
  · exact List.disjoint_of_nodup_append hsound.nodup (hfirst.subset hstarted) hk
  · exact hsound.shutDown.runs_of_closed rfl hrun
  · rw [hsound.counted.threads_eq, hnone]

/-- A pool that was shut down while task 1 was executed and task 3 was queued: task 0 had panicked,
and task 2 was refused as the queue was full then. -/
def concluded : PoolRun where
  pool.shape := ⟨"pool", 0, 1, 1⟩
  pool.closed := true
  pool.threads := 1
  pool.workers := ⟨[(0, .executing 1)], by decide⟩
  pool.nextWorker := 1
  tickets := 4
  accepted := [0, 1, 3]
  refused := [2]
  started := [0, 1]
  ended := [(0, .panicked)]
  dropped := [3]

theorem tasks_accounted_concluded : Reachable ⟨"pool", 0, 1, 1⟩ concluded
    ∧ concluded.accepted.Nodup
      ∧ concluded.accepted.Perm (concluded.pool.queue ++ concluded.pool.executing
          ++ concluded.endedTasks ++ concluded.dropped)
      ∧ concluded.started <+: concluded.accepted
      ∧ concluded.started.Perm (concluded.pool.executing ++ concluded.endedTasks)
      ∧ (∀ k ∈ concluded.refused, k ∉ concluded.started)
      ∧ concluded.shutDown.pool.queue = []
      ∧ concluded.shutDown.dropped = concluded.dropped ++ concluded.pool.queue
      ∧ (∀ s', ReflTransGen Step concluded.shutDown s' →
          s'.started = concluded.started ∧ s'.dropped = concluded.shutDown.dropped)
      ∧ (concluded.pool.closed = true → concluded.pool.workers.size = 0 →
          concluded.pool.threads = 0) := by
  have h0 : Reachable ⟨"pool", 0, 1, 1⟩ _ :=
    .founded (show ThreadPool.build .none _ = .ok _ from rfl) .empty
  have h1 := ((h0.step (.submit rfl)).step (.look 0 rfl)).step (.submit rfl)
  have h2 := (h1.step (.refuse rfl)).step (.finish 0 0 .panicked rfl)
  have h3 := ((h2.step (.look 0 rfl)).step (.submit rfl)).step .shutDown
  have h4 : Reachable ⟨"pool", 0, 1, 1⟩ concluded := h3
  exact ⟨h4, h4.tasks_accounted⟩

end PoolRun

end QueryHost
