import Mathlib.Data.List.Perm.Basic
import Mathlib.Tactic.Common
import QueryHost.Pipeline.Scheduler
import QueryHost.Proofs.AssocRows
import QueryHost.Proofs.ListParts

/-!
# Where the tasks of the pipeline are

Executors take tasks, steal them from each other and give them back, callers submit new ones, and
the poller moves tasks that are ready; whatever happens under one lock is one step
(`PipelineStep`). A task is known by the number of its submission, and the record keeps what became
of it.

Every task that was submitted is in one place (`Scheduler.tasks`), or has ended. So a task that
has ended is met by no further step, and one that waits until it is ready is executed by nobody
(`Reachable.tasks_conserved`).
-/

namespace QueryHost

open scoped List

abbrev TaskNumber := Nat

inductive TaskEvent where
  /-- An executor begins to execute the task for a slice. -/
  | begun
  | over (how : Slice)
  /-- The poller asked whether the task is ready, and it was. -/
  | foundReady
  deriving DecidableEq, Repr

/-- A scheduler at work. -/
structure PipelineRun where
  scheduler : Scheduler TaskNumber
  /-- How many tasks were submitted. -/
  submitted : Nat := 0
  record : List (TaskEvent × TaskNumber) := []
  deriving Repr

/-- Whether a task is over with the slice. -/
def Slice.ends : Slice → Bool
  | finished | panicked => true
  | yielded | blocked => false

namespace Scheduler

variable {τ : Type}

/-- Puts a task in the sub-queue whose turn it was; others may have had their turns since. -/
def put (s : Scheduler τ) (task : τ) (idx turn : Nat) : Scheduler τ :=
  { s with queue := { s.queue.pushTo idx task with turn } }

def hand (s : Scheduler τ) (executor : Nat) (task : τ) (idx : Nat) (rest : List τ) : Scheduler τ :=
  { s with queue := s.queue.setSub idx rest, hands := s.hands.put executor task }

end Scheduler

namespace PipelineRun

def began (s : PipelineRun) (executor : Nat) (task : TaskNumber) (idx : Nat)
    (rest : List TaskNumber) : PipelineRun :=
  { s with
    scheduler := s.scheduler.hand executor task idx rest
    record := s.record ++ [(.begun, task)] }

def concluded (s : PipelineRun) (executor : Nat) (task : TaskNumber) (how : Slice) : PipelineRun :=
  { s with
    scheduler := s.scheduler.conclude executor task how
    record := s.record ++ [(.over how, task)] }

def gathered (s : PipelineRun) (isReady : TaskNumber → Bool) : PipelineRun :=
  { s with
    scheduler := s.scheduler.gather isReady
    record := s.record ++ (s.scheduler.blocked.filter isReady).map (.foundReady, ·) }

end PipelineRun

/-- One step of anybody. A caller who has found the queue open may put its task there later, and an
executor looks at one sub-queue after the other, so that either may be late. -/
inductive PipelineStep : PipelineRun → PipelineRun → Prop
  | start {s : PipelineRun} (refuses : ThreadRefusals) :
      PipelineStep s { s with scheduler := (s.scheduler.start refuses).1 }
  | submit {s : PipelineRun} (idx turn : Nat) :
      PipelineStep s { s with
        scheduler := s.scheduler.put s.submitted idx turn, submitted := s.submitted + 1 }
  /-- A free executor takes the oldest task of its own sub-queue. -/
  | take {s : PipelineRun} (executor : Nat) {task : TaskNumber} {rest : List TaskNumber} :
      s.scheduler.started = true → s.scheduler.hands.get? executor = none →
      s.scheduler.queue.sub executor = task :: rest →
      PipelineStep s (s.began executor task executor rest)
  /-- A free executor takes the newest task of another sub-queue. -/
  | steal {s : PipelineRun} (executor idx : Nat) {task : TaskNumber} :
      s.scheduler.started = true → s.scheduler.hands.get? executor = none →
      (s.scheduler.queue.sub idx).getLast? = some task →
      PipelineStep s (s.began executor task idx (s.scheduler.queue.sub idx).dropLast)
  | conclude {s : PipelineRun} (executor : Nat) {task : TaskNumber} (how : Slice) :
      s.scheduler.hands.get? executor = some task →
      PipelineStep s (s.concluded executor task how)
  | gather {s : PipelineRun} (isReady : TaskNumber → Bool) :
      s.scheduler.started = true → s.scheduler.ready = [] → PipelineStep s (s.gathered isReady)
  | deliver {s : PipelineRun} (idx turn : Nat) {task : TaskNumber} {rest : List TaskNumber} :
      s.scheduler.ready = task :: rest →
      PipelineStep s { s with
        scheduler := { s.scheduler with ready := rest }.put task idx turn }
  | shutDown {s : PipelineRun} : PipelineStep s { s with scheduler := s.scheduler.shutDown }

namespace PipelineRun

/-- The states of a scheduler with so many executors. -/
inductive Reachable (executors : Nat) : PipelineRun → Prop
  | new : Reachable executors { scheduler := .new executors }
  | step {s s' : PipelineRun} : Reachable executors s → PipelineStep s s' → Reachable executors s'

end PipelineRun

/-! ## The sub-queues -/

namespace TaskQueue

variable {τ : Type} {q : TaskQueue τ} {idx : Nat} {task : τ}

def tasks (q : TaskQueue τ) : List τ := q.queues.flatten

@[simp] theorem width_pushTo (q : TaskQueue τ) (idx : Nat) (task : τ) :
    (q.pushTo idx task).width = q.width := List.length_modify _ _ _

@[simp] theorem width_setSub (q : TaskQueue τ) (idx : Nat) (rest : List τ) :
    (q.setSub idx rest).width = q.width := List.length_set

theorem perm_tasks_pushTo (h : 0 < q.width) (idx : Nat) (task : τ) :
    (q.pushTo idx task).tasks.Perm (task :: q.tasks) :=
  perm_flatten_modify (Nat.mod_lt _ h) fun l => List.perm_append_singleton task l

theorem getElem?_sub (h : q.sub idx ≠ []) : q.queues[idx % q.width]? = some (q.sub idx) := by
  unfold sub at *
  rw [List.getD_eq_getElem?_getD] at *
  cases hq : q.queues[idx % q.width]? with
  | none => simp [hq] at h
  | some l => rfl

theorem perm_tasks_setSub {rest : List τ} (h : (q.sub idx).Perm (task :: rest)) :
    q.tasks.Perm (task :: (q.setSub idx rest).tasks) := by
  refine perm_flatten_set_rest (getElem?_sub fun hnil => ?_) h
  rw [hnil] at h
  exact List.cons_ne_nil _ _ h.nil_eq.symm

theorem perm_sub_dropLast (h : (q.sub idx).getLast? = some task) :
    (q.sub idx).Perm (task :: (q.sub idx).dropLast) := by
  have hl := dropLast_append_getLast? (q.sub idx)
  rw [h] at hl
  calc q.sub idx
      = (q.sub idx).dropLast ++ [task] := hl.symm
    _ ~ task :: (q.sub idx).dropLast := List.perm_append_singleton _ _

/-- Whoever looks at the sub-queues in turn takes the newest task of one of them. -/
theorem steal_cases {q' : TaskQueue τ} : ∀ (count idx : Nat),
    q.steal idx count = some (task, q') →
      ∃ j, (q.sub j).getLast? = some task ∧ q' = q.setSub j (q.sub j).dropLast
  | 0, _, h => by simp [steal] at h
  | count + 1, idx, h => by
    unfold steal at h
    split at h
    · rename_i task' hl
      obtain ⟨rfl, rfl⟩ := Prod.mk.inj (Option.some.inj h)
      exact ⟨idx, hl, rfl⟩
    · exact steal_cases count (idx + 1) h

/-- `take` gives the oldest task of the executor's own, the newest one of another, or nothing. -/
theorem take_cases (q : TaskQueue τ) (idx : Nat) :
    (∃ task rest, q.sub idx = task :: rest ∧ q.take idx = (q.setSub idx rest, .done (some task)))
      ∨ (∃ task j, (q.sub j).getLast? = some task
        ∧ q.take idx = (q.setSub j (q.sub j).dropLast, .done (some task)))
      ∨ q.take idx = (q, .done none) ∨ q.take idx = (q, .mustWait) := by
  unfold take tryTake
  split_ifs with hc
  · exact .inr (.inr (.inl rfl))
  · cases hsub : q.sub idx with
    | cons task rest => exact .inl ⟨task, rest, rfl, rfl⟩
    | nil =>
      cases hs : q.steal (idx + 1) (q.width - 1) with
      | none => exact .inr (.inr (.inr rfl))
      | some found =>
        obtain ⟨j, hl, hq⟩ := steal_cases _ _ hs
        exact .inr (.inl ⟨found.1, j, hl, by rw [← hq]⟩)

end TaskQueue

/-! ## The tasks of a scheduler -/

namespace Scheduler

variable {τ : Type} {s : Scheduler τ} {executor : Nat} {task : τ}

/-- The tasks that have not ended. -/
def tasks (s : Scheduler τ) : List τ := s.queue.tasks ++ s.hands.values ++ s.blocked ++ s.ready

theorem perm_tasks_put (h : 0 < s.queue.width) (task : τ) (idx turn : Nat) :
    (s.put task idx turn).tasks.Perm (task :: s.tasks) :=
  (((TaskQueue.perm_tasks_pushTo h idx task).append_right s.hands.values).append_right
    s.blocked).append_right s.ready

theorem perm_tasks_hand {idx : Nat} {rest : List τ} (hfree : s.hands.get? executor = none)
    (hsub : (s.queue.sub idx).Perm (task :: rest)) :
    (s.hand executor task idx rest).tasks.Perm s.tasks := by
  have hqueue := TaskQueue.perm_tasks_setSub hsub
  have hhands := Assoc.values_put_perm_of_none task hfree
  have hmoved :=
    calc (s.queue.setSub idx rest).tasks ++ (s.hands.put executor task).values
        ~ (s.queue.setSub idx rest).tasks ++ task :: s.hands.values := hhands.append_left _
      _ ~ task :: ((s.queue.setSub idx rest).tasks ++ s.hands.values) := List.perm_middle
      _ ~ s.queue.tasks ++ s.hands.values := hqueue.symm.append_right _
  exact (hmoved.append_right s.blocked).append_right s.ready

theorem perm_tasks_erase (hw : s.hands.get? executor = some task) :
    s.tasks.Perm (task :: { s with hands := s.hands.erase executor }.tasks) := by
  have hhands := (Assoc.values_perm hw).append_left s.queue.tasks
  exact ((hhands.trans List.perm_middle).append_right s.blocked).append_right s.ready

theorem perm_tasks_setAside (s : Scheduler τ) (task : τ) :
    (s.setAside task).tasks.Perm (task :: s.tasks) := by
  simp only [tasks, setAside, List.append_assoc, List.singleton_append]
  calc s.queue.tasks ++ (s.hands.values ++ (s.blocked ++ task :: s.ready))
      ~ s.queue.tasks ++ (s.hands.values ++ task :: (s.blocked ++ s.ready)) :=
        (List.perm_middle.append_left _).append_left _
    _ ~ s.queue.tasks ++ task :: (s.hands.values ++ (s.blocked ++ s.ready)) :=
        List.perm_middle.append_left _
    _ ~ task :: (s.queue.tasks ++ (s.hands.values ++ (s.blocked ++ s.ready))) := List.perm_middle

theorem perm_tasks_conclude (h : 0 < s.queue.width) (hw : s.hands.get? executor = some task)
    (how : Slice) :
    s.tasks.Perm ((if how.ends then [task] else []) ++ (s.conclude executor task how).tasks) := by
  have hleft := perm_tasks_erase hw
  cases how with
  | finished | panicked => exact hleft
  | yielded =>
    exact hleft.trans (perm_tasks_put (s := { s with hands := s.hands.erase executor }) h task
      executor s.queue.turn).symm
  | blocked => exact hleft.trans (perm_tasks_setAside _ task).symm

theorem perm_tasks_gather (s : Scheduler τ) (isReady : τ → Bool) :
    (s.gather isReady).tasks.Perm s.tasks := by
  have hparts := List.filter_append_perm isReady s.blocked
  have hmoved :=
    calc (s.blocked.filter fun t => !isReady t) ++ (s.ready ++ s.blocked.filter isReady)
        ~ s.ready ++ s.blocked.filter isReady ++ s.blocked.filter fun t => !isReady t :=
          List.perm_append_comm
      _ = s.ready ++ (s.blocked.filter isReady ++ s.blocked.filter fun t => !isReady t) :=
          List.append_assoc _ _ _
      _ ~ s.ready ++ s.blocked := hparts.append_left _
      _ ~ s.blocked ++ s.ready := List.perm_append_comm
  simp only [tasks, gather, List.append_assoc]
  exact (hmoved.append_left s.hands.values).append_left s.queue.tasks

theorem perm_tasks_ready {rest : List τ} (h : s.ready = task :: rest) :
    s.tasks.Perm (task :: { s with ready := rest }.tasks) := by
  simp only [tasks, h]
  exact List.perm_middle

/-- A start changes nothing but who is at work, wherever the threads end. -/
theorem start_cases (s : Scheduler τ) (refuses : ThreadRefusals) :
    (s.start refuses).1 = s
      ∨ ∃ polling staff, (s.start refuses).1 = { s with started := true, polling, staff } := by
  unfold start
  split
  · exact .inl rfl
  · split
    · exact .inr ⟨_, _, rfl⟩
    · dsimp only
      split <;> exact .inr ⟨_, _, rfl⟩

end Scheduler

/-! ## What the scheduler does in one go -/

namespace PipelineRun

variable {s s' : PipelineRun} {executors : Nat}

theorem step_of_submit {scheduler : Scheduler TaskNumber}
    (h : s.scheduler.submit s.submitted = .ok scheduler) :
    PipelineStep s { s with scheduler, submitted := s.submitted + 1 } := by
  unfold Scheduler.submit at h
  split_ifs at h
  obtain rfl := Except.ok.inj h
  exact .submit s.scheduler.queue.turn _

/-- A free executor that takes what it finds takes a step, or finds nothing. -/
theorem step_of_take {executor : Nat} (hstarted : s.scheduler.started = true)
    (hfree : s.scheduler.hands.get? executor = none) :
    s.scheduler.take executor = s.scheduler
      ∨ ∃ s', PipelineStep s s' ∧ s'.scheduler = s.scheduler.take executor := by
  unfold Scheduler.take
  rcases s.scheduler.queue.take_cases executor with
    ⟨task, rest, hsub, ht⟩ | ⟨task, j, hl, ht⟩ | ht | ht
  · exact .inr ⟨_, .take executor hstarted hfree hsub, by rw [ht]; rfl⟩
  · exact .inr ⟨_, .steal executor j hstarted hfree hl, by rw [ht]; rfl⟩
  · exact .inl (by rw [ht])
  · exact .inl (by rw [ht])

theorem step_of_deliver (h : s.scheduler.ready ≠ []) :
    PipelineStep s { s with scheduler := s.scheduler.deliver } := by
  unfold Scheduler.deliver
  split
  · rename_i task rest hr
    exact .deliver s.scheduler.queue.turn _ hr
  · rename_i hr
    exact absurd hr h

/-! ## The record -/

/-- The task that has ended with an event. -/
def endedBy : TaskEvent × TaskNumber → Option TaskNumber
  | (.over how, k) => if how.ends then some k else none
  | _ => none

/-- The tasks that have returned that they are finished, or have panicked. -/
def ended (s : PipelineRun) : List TaskNumber := s.record.filterMap endedBy

/-- What the record says of tasks that have ended and of tasks that were set aside. -/
structure Lawful (record : List (TaskEvent × TaskNumber)) (blocked : List TaskNumber) : Prop where
  last_of_ended : ∀ before how k after, record = before ++ (.over how, k) :: after →
    how.ends = true → ∀ e ∈ after, e.2 ≠ k
  blocked_of_blocked : ∀ before k after, record = before ++ (.over .blocked, k) :: after →
    (.foundReady, k) ∉ after → k ∈ blocked
  ready_between : ∀ before k mid after,
    record = before ++ (.over .blocked, k) :: (mid ++ (.begun, k) :: after) →
    (.foundReady, k) ∈ mid

section Lawful

variable {record new : List (TaskEvent × TaskNumber)} {blocked blocked' : List TaskNumber}

/-- What is new is about no task that has ended, and begins none that is set aside. -/
theorem Lawful.append (h : Lawful record blocked)
    (hended : ∀ e ∈ new, e.2 ∉ record.filterMap endedBy)
    (hbegun : ∀ k, (.begun, k) ∈ new → k ∉ blocked)
    (hkept : ∀ k ∈ blocked, (.foundReady, k) ∉ new → k ∈ blocked')
    (hblocked : ∀ k, (.over .blocked, k) ∈ new → k ∈ blocked')
    (hlast : ∀ before how k after, new = before ++ (.over how, k) :: after → after = []) :
    Lawful (record ++ new) blocked' where
  last_of_ended before how k after heq hends e he := by
    rcases append_eq_append_cons heq with ⟨mid, hrecord, rfl⟩ | ⟨mid, -, hnew⟩
    · rcases List.mem_append.1 he with he | he
      · exact h.last_of_ended before how k mid hrecord hends e he
      · rintro rfl
        exact hended e he (List.mem_filterMap.2
          ⟨(.over how, e.2), by simp [hrecord], by simp [endedBy, hends]⟩)
    · simp [hlast _ _ _ _ hnew] at he
  blocked_of_blocked before k after heq hnot := by
    rcases append_eq_append_cons heq with ⟨mid, hrecord, rfl⟩ | ⟨mid, -, hnew⟩
    · simp only [List.mem_append, not_or] at hnot
      exact hkept k (h.blocked_of_blocked before k mid hrecord hnot.1) hnot.2
    · exact hblocked k (by simp [hnew])
  ready_between before k mid after heq := by
    rcases append_eq_append_cons heq with ⟨rest, hrecord, hrest⟩ | ⟨rest, -, hnew⟩
    · rcases append_eq_append_cons hrest.symm with ⟨rest', rfl, -⟩ | ⟨rest', rfl, hnew⟩
      · exact h.ready_between before k mid rest' hrecord
      · -- the slice that is new begins while the task is set aside, unless it was found ready
        by_contra hnot
        have hk := h.blocked_of_blocked before k rest hrecord fun hmem =>
          hnot (List.mem_append_left _ hmem)
        exact hbegun k (by simp [hnew]) hk
    · exact absurd (hlast _ _ _ _ hnew) (by simp)

end Lawful

/-! ## Every step -/

structure Sound (s : PipelineRun) : Prop where
  width_pos : 0 < s.scheduler.queue.width
  places_perm : (s.scheduler.tasks ++ s.ended).Perm (List.range s.submitted)
  finished_eq : s.scheduler.finished = s.ended.length
  lawful : Lawful s.record s.scheduler.blocked

theorem Sound.nodup (h : s.Sound) : (s.scheduler.tasks ++ s.ended).Nodup :=
  h.places_perm.nodup_iff.2 List.nodup_range

theorem Sound.not_ended (h : s.Sound) {k : TaskNumber} (hk : k ∈ s.scheduler.tasks) :
    k ∉ s.ended := fun hended => List.disjoint_of_nodup_append h.nodup hk hended

theorem ended_of_snoc {s s' : PipelineRun} {e : TaskEvent × TaskNumber}
    (h : s'.record = s.record ++ [e]) : s'.ended = s.ended ++ (endedBy e).toList := by
  cases he : endedBy e <;> simp [ended, h, he]

theorem Lawful.snoc {record : List (TaskEvent × TaskNumber)} {blocked blocked' : List TaskNumber}
    {e : TaskEvent × TaskNumber} (h : Lawful record blocked)
    (hended : e.2 ∉ record.filterMap endedBy) (hbegun : e.1 = .begun → e.2 ∉ blocked)
    (hkept : ∀ k ∈ blocked, e ≠ (.foundReady, k) → k ∈ blocked')
    (hblocked : e.1 = .over .blocked → e.2 ∈ blocked') : Lawful (record ++ [e]) blocked' := by
  refine h.append (by simpa using hended) (fun k hk => ?_) (fun k hk hnot => ?_) (fun k hk => ?_)
    fun before how k after heq => ?_
  · obtain rfl := List.mem_singleton.1 hk
    exact hbegun rfl
  · exact hkept k hk fun heq => hnot (by simp [heq])
  · obtain rfl := List.mem_singleton.1 hk
    exact hblocked rfl
  · cases before with
    | nil => exact (List.cons.inj heq).2.symm
    | cons e' before => simp at heq

theorem Sound.submit (h : s.Sound) (idx turn : Nat) :
    Sound { s with
      scheduler := s.scheduler.put s.submitted idx turn, submitted := s.submitted + 1 } := by
  refine ⟨?_, ?_, h.finished_eq, h.lawful⟩
  · exact Nat.lt_of_lt_of_eq h.width_pos (TaskQueue.width_pushTo _ _ _).symm
  · have hput := (Scheduler.perm_tasks_put h.width_pos s.submitted idx turn).append_right s.ended
    simp only [List.range_succ]
    exact hput.trans ((h.places_perm.cons _).trans (List.perm_append_singleton _ _).symm)

theorem Sound.began (h : s.Sound) {executor idx : Nat} {task : TaskNumber}
    {rest : List TaskNumber} (hfree : s.scheduler.hands.get? executor = none)
    (hsub : (s.scheduler.queue.sub idx).Perm (task :: rest)) :
    (s.began executor task idx rest).Sound := by
  have hqueued : task ∈ s.scheduler.queue.tasks :=
    (TaskQueue.perm_tasks_setSub hsub).mem_iff.2 List.mem_cons_self
  have hended : (s.began executor task idx rest).ended = s.ended := by
    rw [ended_of_snoc (s := s) (e := (.begun, task)) rfl]
    exact List.append_nil _
  refine ⟨?_, ?_, hended ▸ h.finished_eq, ?_⟩
  · exact Nat.lt_of_lt_of_eq h.width_pos (TaskQueue.width_setSub _ _ _).symm
  · rw [hended]
    exact ((Scheduler.perm_tasks_hand hfree hsub).append_right _).trans h.places_perm
  · refine h.lawful.snoc (h.not_ended ?_) (fun _ hblocked => ?_) (fun k hk _ => hk) (by simp)
    · simp [Scheduler.tasks, hqueued]
    · have hapart := List.disjoint_of_nodup_append
        (List.nodup_append.1 (List.nodup_append.1 h.nodup).1).1
      exact hapart (List.mem_append_left _ hqueued) hblocked

theorem Sound.concluded (h : s.Sound) {executor : Nat} {task : TaskNumber}
    (hw : s.scheduler.hands.get? executor = some task) (how : Slice) :
    (s.concluded executor task how).Sound := by
  have hleft := Scheduler.perm_tasks_conclude h.width_pos hw how
  have hended : (s.concluded executor task how).ended
      = s.ended ++ if how.ends then [task] else [] := by
    rw [ended_of_snoc (s := s) (e := (.over how, task)) rfl]
    cases how <;> rfl
  have htask : task ∈ s.scheduler.tasks :=
    (Scheduler.perm_tasks_erase hw).mem_iff.2 List.mem_cons_self
  refine ⟨?_, ?_, ?_, ?_⟩
  · cases how with
    | yielded => exact Nat.lt_of_lt_of_eq h.width_pos (TaskQueue.width_pushTo _ _ _).symm
    | finished | panicked | blocked => exact h.width_pos
  · rw [hended, ← List.append_assoc]
    refine (List.perm_append_comm.trans ?_).trans h.places_perm
    rw [← List.append_assoc]
    exact hleft.symm.append_right _
  · rw [hended]
    cases how with
    | finished | panicked =>
      exact (congrArg (· + 1) h.finished_eq).trans (by simp [Slice.ends])
    | yielded | blocked => exact h.finished_eq.trans (by simp [Slice.ends])
  · refine h.lawful.snoc (h.not_ended htask) (by simp) (fun k hk _ => ?_) (fun heq => ?_)
    · cases how with
      | blocked => exact List.mem_append_left _ hk
      | finished | panicked | yielded => exact hk
    · obtain rfl := TaskEvent.over.inj heq
      exact List.mem_append_right _ (List.mem_singleton_self _)

theorem Sound.gathered (h : s.Sound) (isReady : TaskNumber → Bool) :
    (s.gathered isReady).Sound := by
  have hended : (s.gathered isReady).ended = s.ended := by
    simp [ended, PipelineRun.gathered, endedBy, List.filterMap_map, Function.comp_def]
  refine ⟨h.width_pos, ?_, hended ▸ h.finished_eq, ?_⟩
  · rw [hended]
    exact ((Scheduler.perm_tasks_gather _ isReady).append_right _).trans h.places_perm
  · refine h.lawful.append (fun e he => ?_) (by simp) (fun k hk hnot => ?_) (by simp)
      fun before how k after heq => ?_
    · obtain ⟨k, hk, rfl⟩ := List.mem_map.1 he
      have hblocked := List.mem_of_mem_filter hk
      exact h.not_ended (by simp [Scheduler.tasks, hblocked])
    · have hnotReady : isReady k = false := by
        by_contra hready
        exact hnot (by simpa [hk] using hready)
      exact List.mem_filter.2 ⟨hk, by simp [hnotReady]⟩
    · have hmem : (TaskEvent.over how, k) ∈
          (s.scheduler.blocked.filter isReady).map (TaskEvent.foundReady, ·) := by simp [heq]
      simp at hmem

theorem Sound.deliver (h : s.Sound) (idx turn : Nat) {task : TaskNumber} {rest : List TaskNumber}
    (hr : s.scheduler.ready = task :: rest) :
    Sound { s with scheduler := { s.scheduler with ready := rest }.put task idx turn } := by
  refine ⟨?_, ?_, h.finished_eq, h.lawful⟩
  · exact Nat.lt_of_lt_of_eq h.width_pos (TaskQueue.width_pushTo _ _ _).symm
  · have hput := Scheduler.perm_tasks_put (s := { s.scheduler with ready := rest }) h.width_pos
      task idx turn
    exact ((hput.trans (Scheduler.perm_tasks_ready hr).symm).append_right _).trans h.places_perm

/-- Every step keeps each task in one place. -/
theorem Sound.step (h : s.Sound) (hs : PipelineStep s s') : s'.Sound := by
  cases hs with
  | start refuses =>
    rcases s.scheduler.start_cases refuses with heq | ⟨polling, staff, heq⟩
    · rw [heq]
      exact h
    · rw [heq]
      exact ⟨h.width_pos, h.places_perm, h.finished_eq, h.lawful⟩
  | submit idx turn => exact h.submit idx turn
  | take executor _ hfree hsub => exact h.began hfree (.of_eq hsub)
  | steal executor idx _ hfree hl => exact h.began hfree (TaskQueue.perm_sub_dropLast hl)
  | conclude executor how hw => exact h.concluded hw how
  | gather isReady => exact h.gathered isReady
  | deliver idx turn hr => exact h.deliver idx turn hr
  | shutDown => exact ⟨h.width_pos, h.places_perm, h.finished_eq, h.lawful⟩

/-! ## Every run -/

theorem sound_new (executors : Nat) : Sound { scheduler := .new executors } where
  width_pos := by
    simp only [Scheduler.new, TaskQueue.new, TaskQueue.width, List.length_replicate]
    omega
  places_perm := by
    simp [Scheduler.new, TaskQueue.new, Scheduler.tasks, TaskQueue.tasks, ended, Assoc.values]
    rfl
  finished_eq := rfl
  lawful := ⟨by simp, by simp, by simp⟩

theorem Reachable.sound (h : Reachable executors s) : s.Sound := by
  induction h with
  | new => exact sound_new executors
  | step _ hstep ih => exact ih.step hstep

/-- Every task that was submitted is in one place: in a sub-queue, in the hands of one executor, set
aside, in the batch of the poller, or among those that have ended, which are counted. Nothing
happens to a task that has ended, and one that has blocked was found ready before it is executed
again. -/
theorem Reachable.tasks_conserved (h : Reachable executors s) :
    (s.scheduler.queue.queues.flatten ++ s.scheduler.hands.values ++ s.scheduler.blocked
        ++ s.scheduler.ready ++ s.ended).Perm (List.range s.submitted)
      ∧ s.scheduler.finished = s.ended.length
      ∧ (∀ before how k after, s.record = before ++ (.over how, k) :: after → how.ends = true →
          ∀ e ∈ after, e.2 ≠ k)
      ∧ (∀ before k mid after,
          s.record = before ++ (.over .blocked, k) :: (mid ++ (.begun, k) :: after) →
          (.foundReady, k) ∈ mid) :=
  ⟨h.sound.places_perm, h.sound.finished_eq, h.sound.lawful.last_of_ended,
    h.sound.lawful.ready_between⟩

/-- Task 0 has blocked, was found ready, and finished with the next slice, and task 1, which was
stolen, has panicked. An executor has task 2, task 3 is set aside and task 4 is queued. -/
def underWay : PipelineRun where
  scheduler.queue := { queues := [[], [4]], pending := 1, turn := 6 }
  scheduler.hands := ⟨[(1, 2)], by decide⟩
  scheduler.blocked := [3]
  scheduler.started := true
  scheduler.polling := true
  scheduler.staff := 2
  scheduler.finished := 2
  submitted := 5
  record := [(.begun, 0), (.over .blocked, 0), (.begun, 1), (.over .panicked, 1), (.foundReady, 0),
    (.begun, 0), (.over .finished, 0), (.begun, 3), (.over .blocked, 3), (.begun, 2)]

theorem tasks_conserved_underWay : Reachable 2 underWay
    ∧ (underWay.scheduler.queue.queues.flatten ++ underWay.scheduler.hands.values
        ++ underWay.scheduler.blocked ++ underWay.scheduler.ready
        ++ underWay.ended).Perm (List.range underWay.submitted)
    ∧ underWay.scheduler.finished = underWay.ended.length
    ∧ (∀ before how k after, underWay.record = before ++ (.over how, k) :: after →
        how.ends = true → ∀ e ∈ after, e.2 ≠ k)
    ∧ (∀ before k mid after,
        underWay.record = before ++ (.over .blocked, k) :: (mid ++ (.begun, k) :: after) →
        (.foundReady, k) ∈ mid) := by
  have h1 : Reachable 2 _ := (Reachable.new.step (.start .none)).step (.submit 0 1)
  have h2 := ((h1.step (.submit 1 2)).step (.take 0 rfl rfl rfl)).step (.conclude 0 .blocked rfl)
  have h3 := (h2.step (.steal 0 1 rfl rfl rfl)).step (.conclude 0 .panicked rfl)
  have h4 := (h3.step (.gather (· == 0) rfl rfl)).step (.deliver 0 3 rfl)
  have h5 := (h4.step (.take 0 rfl rfl rfl)).step (.conclude 0 .finished rfl)
  have h6 := ((h5.step (.submit 1 4)).step (.submit 0 5)).step (.take 0 rfl rfl rfl)
  have h7 := (h6.step (.conclude 0 .blocked rfl)).step (.take 1 rfl rfl rfl)
  have h8 := h7.step (.submit 1 6)
  have h9 : Reachable 2 underWay := h8
  exact ⟨h9, h9.tasks_conserved⟩

end PipelineRun

end QueryHost
