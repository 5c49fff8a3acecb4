import Mathlib.Tactic.Common
import QueryHost.Proofs.AssocRows
import QueryHost.Threads.Pool

/-!
# What a pool counts, and that it conserves work

A pool decides by its counts of workers and of those that wait, and both are right in every
reachable state (`Counted`). So a submission hires a worker whenever the free workers could become
fewer than the queued tasks, and a worker is let go only when nothing is queued: until the shutdown
there are `maxThreads` workers, or at least as many free ones as tasks in the queue (`Balanced`).

The first workers of a pool are hired one by one, and those that are there already go on meanwhile
(`Founding`).
-/

namespace QueryHost

variable {τ : Type}

namespace Worker

def isExecuting : Worker τ → Bool
  | .executing _ => true
  | _ => false

def isWaiting : Worker τ → Bool
  | .waiting => true
  | _ => false

@[simp] theorem isExecuting_looking : isExecuting (.looking : Worker τ) = false := rfl
@[simp] theorem isExecuting_waiting : isExecuting (.waiting : Worker τ) = false := rfl
@[simp] theorem isExecuting_executing (t : τ) : isExecuting (.executing t) = true := rfl
@[simp] theorem isWaiting_looking : isWaiting (.looking : Worker τ) = false := rfl
@[simp] theorem isWaiting_waiting : isWaiting (.waiting : Worker τ) = true := rfl
@[simp] theorem isWaiting_executing (t : τ) : isWaiting (.executing t) = false := rfl

end Worker

namespace ThreadPool

/-- How many workers execute no task: they wait, or look at the queue next. -/
def free (p : ThreadPool τ) : Nat := p.workers.values.countP (!·.isExecuting)

/-- A pool in the making, with so many workers hired. -/
inductive Founding (shape : PoolShape) : Nat → ThreadPool τ → Prop
  | empty : Founding shape 0 { shape }
  | hire {n : Nat} {p : ThreadPool τ} : Founding shape n p → Founding shape (n + 1) p.hire
  | look {n : Nat} {p : ThreadPool τ} (w : WorkerId) : Founding shape n p →
      p.workers.get? w = some .looking → Founding shape n (p.look w)
  | wake {n : Nat} {p : ThreadPool τ} (w : WorkerId) (timedOut : Bool) : Founding shape n p →
      p.workers.get? w = some .waiting → Founding shape n (p.wake w timedOut)

/-- The states of a pool of a shape that can be built. -/
inductive Reachable (shape : PoolShape) : ThreadPool τ → Prop
  | founded {refuses : ThreadRefusals} {built p : ThreadPool τ} : build refuses shape = .ok built →
      Founding shape shape.minThreads p → Reachable shape p
  | step {p q : ThreadPool τ} : Reachable shape p → PoolStep p q → Reachable shape q

/-- The counts are right when `k` of the waiting workers are not counted. -/
structure Counted (k : Nat) (p : ThreadPool τ) : Prop where
  lt_next : ∀ w stage, p.workers.get? w = some stage → w < p.nextWorker
  threads_eq : p.threads = p.workers.size
  idle_eq : p.idle + k = p.workers.values.countP Worker.isWaiting

structure Balanced (p : ThreadPool τ) : Prop where
  queue_le : p.queue.length ≤ p.shape.maxQueue
  threads_le : p.threads ≤ p.shape.maxThreads
  min_le : p.closed = false → p.shape.minThreads ≤ p.threads
  conserves : p.closed = false → p.threads = p.shape.maxThreads ∨ p.queue.length ≤ p.free

/-! ## What a step can do -/

/-- `push` queues the task, and hires a worker or does not. -/
theorem push_cases {p q : ThreadPool τ} {task : τ} (h : p.push task = .ok q) :
    p.closed = false ∧ p.queue.length < p.shape.maxQueue
      ∧ ((p.idle ≤ p.queue.length ∧ p.threads < p.shape.maxThreads
          ∧ q = { p with queue := p.queue ++ [task] }.hire)
        ∨ ((p.queue.length < p.idle ∨ p.shape.maxThreads ≤ p.threads)
          ∧ q = { p with queue := p.queue ++ [task] })) := by
  unfold push at h
  dsimp only at h
  split_ifs at h with hc hq hg
  · obtain rfl := Except.ok.inj h
    simp only [List.length_append, List.length_singleton] at hg
    exact ⟨by simpa using hc, by omega, .inl ⟨by omega, hg.2, rfl⟩⟩
  · obtain rfl := Except.ok.inj h
    simp only [List.length_append, List.length_singleton] at hg
    exact ⟨by simpa using hc, by omega, .inr ⟨by omega, rfl⟩⟩

/-- A submission that hires nobody, or whose worker starts, queues the task and no more. -/
@[simp] theorem submit_none (p : ThreadPool τ) (task : τ) : p.submit none task = p.push task := by
  unfold submit
  cases p.push task <;> rfl

/-- `look` makes a worker leave a closed pool, take the first task, or wait. -/
theorem look_cases (p : ThreadPool τ) (w : WorkerId) :
    (p.closed = true ∧ p.look w = p.leave w)
      ∨ (∃ task rest, p.closed = false ∧ p.queue = task :: rest
          ∧ p.look w = { p.set w (.executing task) with queue := rest })
      ∨ (p.closed = false ∧ p.queue = []
          ∧ p.look w = { p.set w .waiting with idle := p.idle + 1 }) := by
  unfold look
  split_ifs with hc
  · exact .inl ⟨hc, rfl⟩
  · simp only [Bool.not_eq_true] at hc
    split
    · rename_i task rest hq
      exact .inr (.inl ⟨task, rest, hc, hq, rfl⟩)
    · rename_i hq
      exact .inr (.inr ⟨hc, hq, rfl⟩)

theorem wake_cases (p : ThreadPool τ) (w : WorkerId) (timedOut : Bool) :
    (p.queue = [] ∧ p.shape.minThreads < p.threads
        ∧ p.wake w timedOut = { p with idle := p.idle - 1 }.leave w)
      ∨ p.wake w timedOut = { p with idle := p.idle - 1 }.look w := by
  unfold wake
  dsimp only
  split_ifs with h
  · simp only [Bool.and_eq_true, decide_eq_true_eq, List.isEmpty_iff] at h
    exact .inl ⟨h.1.2, h.2, rfl⟩
  · exact .inr rfl

/-! ## Counts -/

section Counts

variable {p : ThreadPool τ} {k : Nat} {w : WorkerId} {stage : Worker τ}

theorem Counted.get?_next (h : Counted k p) : p.workers.get? p.nextWorker = none := by
  by_contra hne
  obtain ⟨stage, hs⟩ := Option.ne_none_iff_exists'.1 hne
  exact absurd (h.lt_next _ _ hs) (Nat.lt_irrefl _)

theorem free_hire (h : Counted k p) : p.hire.free = p.free + 1 :=
  Assoc.countP_values_put_of_none _ _ h.get?_next

theorem Counted.hire (h : Counted k p) : Counted k p.hire where
  lt_next v stage hv := by
    simp only [ThreadPool.hire, Assoc.get?_put] at hv
    split_ifs at hv with hvw
    · exact hvw ▸ Nat.lt_succ_self _
    · exact Nat.lt_succ_of_lt (h.lt_next v stage hv)
  threads_eq := by
    have := Assoc.countP_values_put_of_none (fun _ => true) .looking h.get?_next
    rw [← Assoc.size_eq_countP, ← Assoc.size_eq_countP, ← h.threads_eq] at this
    simpa [ThreadPool.hire] using this.symm
  idle_eq := by
    have := Assoc.countP_values_put_of_none Worker.isWaiting .looking h.get?_next
    simpa [ThreadPool.hire, h.idle_eq] using this.symm

/-- A worker that is not counted among the waiting ones goes over to another stage; it is counted
again if it waits after that. -/
theorem Counted.set (h : Counted k p) (hw : p.workers.get? w = some stage)
    (hk : k = if stage.isWaiting then 1 else 0) (next : Worker τ) (queue : List τ) :
    Counted 0 { p.set w next with
      queue, idle := p.idle + if next.isWaiting then 1 else 0 } where
  lt_next v stage' hv := by
    simp only [ThreadPool.set, Assoc.get?_put] at hv
    split_ifs at hv with hvw
    · exact hvw ▸ h.lt_next w stage hw
    · exact h.lt_next v stage' hv
  threads_eq := by
    have := Assoc.countP_values_put (fun _ => true) next hw
    rw [← Assoc.size_eq_countP, ← Assoc.size_eq_countP, ← h.threads_eq] at this
    simpa [ThreadPool.set] using this.symm
  idle_eq := by
    have hput := Assoc.countP_values_put Worker.isWaiting next hw
    have hidle := h.idle_eq
    simp only [ThreadPool.set]
    omega

theorem Counted.leave (h : Counted k p) (hw : p.workers.get? w = some stage)
    (hk : k = if stage.isWaiting then 1 else 0) : Counted 0 (p.leave w) where
  lt_next v stage' hv := by
    simp only [ThreadPool.leave, Assoc.get?_erase] at hv
    split_ifs at hv
    exact h.lt_next v stage' hv
  threads_eq := by
    have := Assoc.countP_values_erase (fun _ => true) hw
    rw [← Assoc.size_eq_countP, ← Assoc.size_eq_countP, ← h.threads_eq] at this
    simp only [ThreadPool.leave, this]
    simp
  idle_eq := by
    have herase := Assoc.countP_values_erase Worker.isWaiting hw
    have hidle := h.idle_eq
    simp only [ThreadPool.leave]
    omega

theorem Counted.look (h : Counted k p) (hw : p.workers.get? w = some stage)
    (hk : k = if stage.isWaiting then 1 else 0) : Counted 0 (p.look w) := by
  rcases look_cases p w with ⟨-, hl⟩ | ⟨task, rest, -, -, hl⟩ | ⟨-, -, hl⟩
  · exact hl ▸ h.leave hw hk
  · exact hl ▸ h.set hw hk (.executing task) rest
  · exact hl ▸ h.set hw hk .waiting p.queue

/-- The count of the waiting workers once one of them is awake and has not yet looked. -/
theorem Counted.awake (h : Counted 0 p) (hw : p.workers.get? w = some .waiting) :
    Counted 1 { p with idle := p.idle - 1 } where
  lt_next := h.lt_next
  threads_eq := h.threads_eq
  idle_eq := by
    have herase := Assoc.countP_values_erase Worker.isWaiting hw
    have hidle := h.idle_eq
    simp only [Worker.isWaiting_waiting, if_true] at herase
    simp only
    omega

theorem Counted.wake (h : Counted 0 p) (hw : p.workers.get? w = some .waiting)
    (timedOut : Bool) : Counted 0 (p.wake w timedOut) := by
  rcases wake_cases p w timedOut with ⟨-, -, hl⟩ | hl
  · exact hl ▸ (h.awake hw).leave hw rfl
  · exact hl ▸ (h.awake hw).look hw rfl

theorem Counted.idle_le_free (h : Counted 0 p) : p.idle ≤ p.free := by
  have hidle := h.idle_eq
  have hle : p.workers.values.countP Worker.isWaiting ≤ p.free := by
    refine List.countP_mono_left fun s _ hs => ?_
    cases s <;> simp_all
  omega

theorem Counted.free_le_threads (h : Counted k p) : p.free ≤ p.threads := by
  rw [h.threads_eq, Assoc.size_eq_countP]
  exact List.countP_mono_left fun _ _ _ => rfl

end Counts

/-! ## Conservation -/

section Balance

variable {p q : ThreadPool τ} {k : Nat} {w : WorkerId} {stage : Worker τ}

theorem free_set (hw : p.workers.get? w = some stage) (next : Worker τ) :
    (p.set w next).free + (if stage.isExecuting then 0 else 1)
      = p.free + if next.isExecuting then 0 else 1 := by
  have := Assoc.countP_values_put (!·.isExecuting) next hw
  change (p.set w next).free + _ = p.free + _ at this
  cases hs : stage.isExecuting <;> cases hn : next.isExecuting <;> simpa [hs, hn] using this

theorem Balanced.of_idle (h : Balanced p) (idle : Nat) : Balanced { p with idle } :=
  ⟨h.queue_le, h.threads_le, h.min_le, h.conserves⟩

theorem Balanced.look (h : Balanced p) (hw : p.workers.get? w = some stage)
    (hs : stage.isExecuting = false) : Balanced (p.look w) := by
  rcases look_cases p w with ⟨hc, hl⟩ | ⟨task, rest, hc, hq, hl⟩ | ⟨hc, hq, hl⟩
  · rw [hl]
    have hopen : ∀ {P : Prop}, (p.leave w).closed = false → P := fun h => by
      simp [leave, hc] at h
    exact ⟨h.queue_le, Nat.le_trans (Nat.sub_le _ _) h.threads_le, hopen, hopen⟩
  · have hqueue := h.queue_le
    have hfree := free_set hw (.executing task)
    rw [hl]
    refine ⟨?_, h.threads_le, h.min_le, fun _ => (h.conserves hc).imp_right fun hle => ?_⟩
    · rw [hq, List.length_cons] at hqueue
      exact Nat.le_of_succ_le hqueue
    · rw [hq, List.length_cons] at hle
      simp only [hs, Worker.isExecuting_executing, Bool.false_eq_true, if_false, if_true] at hfree
      change rest.length ≤ (p.set w (.executing task)).free
      omega
  · rw [hl]
    refine ⟨h.queue_le, h.threads_le, h.min_le, fun _ => .inr ?_⟩
    change p.queue.length ≤ _
    rw [hq]
    exact Nat.zero_le _

/-- A worker whose time is over goes only when nothing is queued. -/
theorem Balanced.wake (h : Balanced p) (hw : p.workers.get? w = some .waiting)
    (timedOut : Bool) : Balanced (p.wake w timedOut) := by
  rcases wake_cases p w timedOut with ⟨hq, hmin, hl⟩ | hl
  · rw [hl]
    refine ⟨h.queue_le, Nat.le_trans (Nat.sub_le _ _) h.threads_le,
      fun _ => Nat.le_sub_one_of_lt hmin, fun _ => .inr ?_⟩
    change p.queue.length ≤ _
    rw [hq]
    exact Nat.zero_le _
  · exact hl ▸ (h.of_idle _).look hw rfl

theorem Balanced.finish (h : Balanced p) {task : τ}
    (hw : p.workers.get? w = some (.executing task)) : Balanced (p.finish w) := by
  refine ⟨h.queue_le, h.threads_le, h.min_le, fun hc => (h.conserves hc).imp_right fun hle => ?_⟩
  have hfree := free_set hw .looking
  simp only [Worker.isExecuting_executing, Worker.isExecuting_looking, Bool.false_eq_true,
    if_false, if_true] at hfree
  change p.queue.length ≤ (p.set w .looking).free
  omega

/-- A submission that hires nobody finds as many waiting workers as there are tasks then, or all
the workers there may be. -/
theorem Balanced.push (h : Balanced p) (hc : Counted 0 p) {task : τ}
    (hs : p.push task = .ok q) : Balanced q := by
  obtain ⟨ho, hlen, ⟨-, hlt, rfl⟩ | ⟨hno, rfl⟩⟩ := push_cases hs
  · refine ⟨by simpa [hire] using Nat.succ_le_of_lt hlen, hlt,
      fun _ => Nat.le_trans (h.min_le ho) (Nat.le_succ _), fun _ => ?_⟩
    have hfree := free_hire hc
    have hcons := h.conserves ho
    change p.threads + 1 = p.shape.maxThreads
      ∨ (p.queue ++ [task]).length ≤ p.hire.free
    rw [List.length_append, List.length_singleton, hfree]
    omega
  · refine ⟨by simpa using Nat.succ_le_of_lt hlen, h.threads_le, h.min_le, fun _ => ?_⟩
    have hle := hc.idle_le_free
    have hmax := h.threads_le
    change p.threads = p.shape.maxThreads ∨ (p.queue ++ [task]).length ≤ p.free
    rw [List.length_append, List.length_singleton]
    omega

theorem Balanced.shutDown (h : Balanced p) : Balanced p.shutDown where
  queue_le := by
    have := h.queue_le
    unfold ThreadPool.shutDown
    split <;> simp_all
  threads_le := h.threads_le
  min_le ho := by simp [ThreadPool.shutDown] at ho
  conserves ho := by simp [ThreadPool.shutDown] at ho

end Balance

/-! ## Every reachable state -/

section Reach

variable {shape : PoolShape} {p q : ThreadPool τ} {n : Nat}

theorem look_shape (p : ThreadPool τ) (w : WorkerId) : (p.look w).shape = p.shape := by
  rcases look_cases p w with ⟨-, hl⟩ | ⟨_, _, -, -, hl⟩ | ⟨-, -, hl⟩ <;> rw [hl] <;> rfl

theorem wake_shape (p : ThreadPool τ) (w : WorkerId) (timedOut : Bool) :
    (p.wake w timedOut).shape = p.shape := by
  rcases wake_cases p w timedOut with ⟨-, -, hl⟩ | hl
  · rw [hl]
    rfl
  · rw [hl, look_shape]

theorem push_shape {task : τ} (h : p.push task = .ok q) : q.shape = p.shape := by
  obtain ⟨-, -, ⟨-, -, rfl⟩ | ⟨-, rfl⟩⟩ := push_cases h <;> rfl

theorem step_shape (h : PoolStep p q) : q.shape = p.shape := by
  cases h with
  | submit task h => exact push_shape h
  | look w h => exact look_shape p w
  | wake w timedOut h => exact wake_shape p w timedOut
  | finish w task h => rfl
  | shutDown => rfl

theorem step_counted (hc : Counted 0 p) (h : PoolStep p q) : Counted 0 q := by
  cases h with
  | submit task h =>
    have hpush : Counted 0 { p with queue := p.queue ++ [task] } :=
      ⟨hc.lt_next, hc.threads_eq, hc.idle_eq⟩
    obtain ⟨-, -, ⟨-, -, rfl⟩ | ⟨-, rfl⟩⟩ := push_cases h
    · exact hpush.hire
    · exact hpush
  | look w h => exact hc.look h rfl
  | wake w timedOut h => exact hc.wake h timedOut
  | finish w task h => exact hc.set h rfl .looking p.queue
  | shutDown => exact ⟨hc.lt_next, hc.threads_eq, hc.idle_eq⟩

theorem step_balanced (hc : Counted 0 p) (hb : Balanced p) (h : PoolStep p q) : Balanced q := by
  cases h with
  | submit task h => exact hb.push hc h
  | look w h => exact hb.look h rfl
  | wake w timedOut h => exact hb.wake h timedOut
  | finish w task h => exact hb.finish h
  | shutDown => exact hb.shutDown

/-- What `build` gives was staffed, for a shape that passes its check. -/
theorem build_ok {refuses : ThreadRefusals} {built : ThreadPool τ}
    (h : build refuses shape = .ok built) :
    shape.check = .ok () ∧ staff refuses shape.minThreads { shape := shape } = .ok built := by
  unfold build at h
  cases hc : shape.check with
  | error f => simp [hc, bind, Except.bind] at h
  | ok u => exact ⟨rfl, by simpa [hc, bind, Except.bind] using h⟩

theorem bounds_of_build {refuses : ThreadRefusals} {built : ThreadPool τ}
    (h : build refuses shape = .ok built) :
    0 < shape.maxThreads ∧ shape.minThreads ≤ shape.maxThreads := by
  have hcheck := (build_ok h).1
  unfold PoolShape.check at hcheck
  split_ifs at hcheck with h0 hmin
  omega

theorem look_of_empty (hc : p.closed = false) (hq : p.queue = []) (w : WorkerId) :
    p.look w = { p.set w .waiting with idle := p.idle + 1 } := by
  simp [look, hc, hq]

/-- A pool in the making has hired its workers, queued nothing and let nobody go. -/
theorem Founding.state (h : Founding shape n p) (hn : n ≤ shape.minThreads) :
    Counted 0 p ∧ p.shape = shape ∧ p.threads = n ∧ p.queue = [] ∧ p.closed = false := by
  induction h with
  | empty => exact ⟨⟨fun w stage hw => by simp at hw, rfl, rfl⟩, rfl, rfl, rfl, rfl⟩
  | hire _ ih =>
    obtain ⟨hc, hs, ht, hq, ho⟩ := ih (by omega)
    exact ⟨hc.hire, hs, congrArg (· + 1) ht, hq, ho⟩
  | look w _ hw ih =>
    obtain ⟨hc, hs, ht, hq, ho⟩ := ih hn
    refine ⟨hc.look hw rfl, by rw [look_shape, hs], ?_⟩
    rw [look_of_empty ho hq]
    exact ⟨ht, hq, ho⟩
  | wake w timedOut _ hw ih =>
    obtain ⟨hc, hs, ht, hq, ho⟩ := ih hn
    refine ⟨hc.wake hw timedOut, by rw [wake_shape, hs], ?_⟩
    rcases wake_cases _ w timedOut with ⟨-, hlt, -⟩ | hl
    · rw [hs, ht] at hlt
      omega
    · rw [hl, look_of_empty]
      · exact ⟨ht, hq, ho⟩
      · exact ho
      · exact hq

theorem Founding.balanced {refuses : ThreadRefusals} {built : ThreadPool τ}
    (hb : build refuses shape = .ok built)
    (h : Founding shape shape.minThreads p) : Balanced p := by
  obtain ⟨-, hs, ht, hq, -⟩ := h.state (Nat.le_refl _)
  have hmax := (bounds_of_build hb).2
  subst hs
  exact ⟨by simp [hq], by omega, fun _ => by omega, fun _ => .inr (by simp [hq])⟩

theorem founding_staff {refuses : ThreadRefusals} {q : ThreadPool τ} (m : Nat) :
    ∀ {n : Nat} {p : ThreadPool τ}, Founding shape n p → staff refuses m p = .ok q →
      Founding shape (n + m) q := by
  induction m with
  | zero =>
    intro n p h hs
    exact Except.ok.inj hs ▸ h
  | succ m ih =>
    intro n p h hs
    unfold staff at hs
    split at hs
    · simpa only [Nat.add_assoc, Nat.add_comm m 1] using ih h.hire hs
    · cases hs

/-- A pool that was built with no worker stepping in. -/
theorem reachable_of_build {refuses : ThreadRefusals} (h : build refuses shape = .ok p) :
    Reachable shape p := by
  have hf := founding_staff shape.minThreads .empty (build_ok h).2
  rw [Nat.zero_add] at hf
  exact .founded h hf

theorem Reachable.balanced (h : Reachable shape p) :
    Counted 0 p ∧ Balanced p ∧ p.shape = shape := by
  induction h with
  | founded hb hf =>
    obtain ⟨hc, hs, -⟩ := hf.state (Nat.le_refl _)
    exact ⟨hc, hf.balanced hb, hs⟩
  | step _ hstep ih =>
    obtain ⟨hc, hb, hs⟩ := ih
    exact ⟨step_counted hc hstep, step_balanced hc hb hstep, (step_shape hstep).trans hs⟩

theorem Reachable.maxThreads_pos (h : Reachable shape p) : 0 < shape.maxThreads := by
  induction h with
  | founded hb _ => exact (bounds_of_build hb).1
  | step _ _ ih => exact ih

/-- In every reachable state the counts are right and within the bounds of the pool, and until the
shutdown it has its workers and conserves work, so that no task is queued without a worker. -/
theorem reachable_bounds (h : Reachable shape p) :
    p.queue.length ≤ shape.maxQueue ∧ p.idle ≤ p.free ∧ p.threads ≤ shape.maxThreads
      ∧ p.threads = p.workers.size
      ∧ (p.closed = false → shape.minThreads ≤ p.threads
          ∧ (p.threads = shape.maxThreads ∨ p.queue.length ≤ p.free)
          ∧ (p.queue ≠ [] → 0 < p.threads)) := by
  obtain ⟨hc, hb, rfl⟩ := h.balanced
  refine ⟨hb.queue_le, hc.idle_le_free, hb.threads_le, hc.threads_eq, fun ho =>
    ⟨hb.min_le ho, hb.conserves ho, fun hq => ?_⟩⟩
  rcases hb.conserves ho with hmax | hle
  · exact hmax ▸ h.maxThreads_pos
  · have hpos := List.length_pos_iff.2 hq
    have hfree := hc.free_le_threads
    omega

/-- A pool that has grown: one worker executes a task, the other one is about to take the next. -/
def grown : ThreadPool String where
  shape := ⟨"elastic", 1, 2, 4⟩
  queue := ["b"]
  threads := 2
  workers := ⟨[(0, .executing "a"), (1, .looking)], by decide⟩
  nextWorker := 2

theorem reachable_bounds_grown : Reachable ⟨"elastic", 1, 2, 4⟩ grown
    ∧ grown.queue.length ≤ 4 ∧ grown.idle ≤ grown.free ∧ grown.threads ≤ 2
      ∧ grown.threads = grown.workers.size
      ∧ (grown.closed = false → 1 ≤ grown.threads
          ∧ (grown.threads = 2 ∨ grown.queue.length ≤ grown.free)
          ∧ (grown.queue ≠ [] → 0 < grown.threads)) := by
  have h0 := reachable_of_build
    (show build (τ := String) .none ⟨"elastic", 1, 2, 4⟩ = .ok _ from rfl)
  have h1 := (h0.step (.submit "a" rfl)).step (.submit "b" rfl)
  have h2 : Reachable ⟨"elastic", 1, 2, 4⟩ grown := h1.step (.look 0 rfl)
  exact ⟨h2, reachable_bounds h2⟩

end Reach

end ThreadPool

end QueryHost
