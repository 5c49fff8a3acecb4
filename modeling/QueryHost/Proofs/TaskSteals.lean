import Mathlib.Algebra.Ring.Nat
import Mathlib.Order.Nat
import QueryHost.Proofs.Calls
import QueryHost.Proofs.PipelinePlaces

/-!
# Who gets which task

The sub-queues of a task queue hold what was pushed to them in the order of the pushes, less what
was taken, and the count of what is pending is never off. An executor gets the oldest task of its
own sub-queue; if that is empty, the newest one of the first of its peers, from the next one on and
around, that has any (`TaskQueue.Gets`). It looks at all of them, so it waits only if there is no
task at all (`TaskQueue.tasks_taken_once`).
-/

namespace QueryHost

open scoped List

variable {τ : Type}

inductive TaskQueueCall (τ : Type) where
  | push (task : τ)
  | pushTo (idx : Nat) (task : τ)
  | take (idx : Nat)
  | close

/-- A call with what it gave; a push also tells for which executor it was. -/
inductive TaskQueueEvent (τ : Type) where
  | pushed (idx : Nat) (task : τ)
  | took (idx : Nat) (answer : Attempt (Option τ))
  | closed

namespace TaskQueueEvent

def pushed? : TaskQueueEvent τ → Option τ
  | pushed _ task => some task
  | _ => none

/-- The task that was pushed to a sub-queue of so many. -/
def pushedTo? (width idx : Nat) : TaskQueueEvent τ → Option τ
  | pushed idx' task => if idx' % width = idx % width then some task else none
  | _ => none

def taken? : TaskQueueEvent τ → Option τ
  | took _ (.done task?) => task?
  | _ => none

end TaskQueueEvent

open TaskQueueEvent

namespace TaskQueue

def call (q : TaskQueue τ) : TaskQueueCall τ → TaskQueue τ × TaskQueueEvent τ
  | .push task => (q.push task, .pushed q.turn task)
  | .pushTo idx task => (q.pushTo idx task, .pushed idx task)
  | .take idx => ((q.take idx).1, .took idx (q.take idx).2)
  | .close => (q.close, .closed)

/-- How far the first of the peers is that has tasks. -/
def FirstPeer (q : TaskQueue τ) (idx : Nat) (offset : Nat) : Prop :=
  IsLeast {j | 0 < j ∧ j < q.width ∧ q.sub (idx + j) ≠ []} offset

/-- What an executor is to get, and what it leaves. -/
inductive Gets (q : TaskQueue τ) (idx : Nat) : τ → TaskQueue τ → Prop
  | own {task : τ} {rest : List τ} : q.sub idx = task :: rest → Gets q idx task (q.setSub idx rest)
  | stolen {offset : Nat} {rest : List τ} {task : τ} : q.sub idx = [] → q.FirstPeer idx offset →
      q.sub (idx + offset) = rest ++ [task] → Gets q idx task (q.setSub (idx + offset) rest)

variable {q q' : TaskQueue τ} {idx : Nat} {task : τ} {rest : List τ}

/-! ## The sub-queues -/

theorem sub_eq (q : TaskQueue τ) (i : Nat) : q.sub i = q.queues[i % q.width]?.getD [] :=
  List.getD_eq_getElem?_getD

theorem getElem?_mod_width (h : 0 < q.width) (i : Nat) :
    q.queues[i % q.width]? = some (q.sub i) := by
  have hi : i % q.width < q.queues.length := Nat.mod_lt i h
  rw [sub_eq, List.getElem?_eq_getElem hi]
  rfl

theorem sub_setSub (h : 0 < q.width) (idx : Nat) (rest : List τ) (i : Nat) :
    (q.setSub idx rest).sub i = if i % q.width = idx % q.width then rest else q.sub i := by
  have hidx : idx % q.width < q.queues.length := Nat.mod_lt idx h
  rw [sub_eq, width_setSub, setSub, sub_eq]
  split_ifs with heq
  · rw [heq, List.getElem?_set_self hidx]
    rfl
  · rw [List.getElem?_set_ne (Ne.symm heq)]

theorem sub_pushTo (h : 0 < q.width) (idx : Nat) (task : τ) (i : Nat) :
    (q.pushTo idx task).sub i
      = if idx % q.width = i % q.width then q.sub i ++ [task] else q.sub i := by
  rw [sub_eq, width_pushTo, pushTo, List.getElem?_modify, getElem?_mod_width h]
  split_ifs <;> rfl

/-- Whoever goes round comes to every place. -/
theorem exists_offset {n i : Nat} (h : i < n) (idx : Nat) : ∃ j < n, (idx + j) % n = i := by
  have hpos : 0 < n := Nat.zero_lt_of_lt h
  have hmod := Nat.mod_lt idx hpos
  refine ⟨(i + (n - idx % n)) % n, Nat.mod_lt _ hpos, ?_⟩
  calc (idx + (i + (n - idx % n)) % n) % n
      = (idx % n + (i + (n - idx % n))) % n := by rw [Nat.add_mod_mod, Nat.mod_add_mod]
    _ = (i + n) % n := by congr 1; omega
    _ = i := by rw [Nat.add_mod_right, Nat.mod_eq_of_lt h]

theorem exists_sub_ne_nil (h : q.tasks ≠ []) (idx : Nat) :
    ∃ j < q.width, q.sub (idx + j) ≠ [] := by
  obtain ⟨task, htask⟩ := List.exists_mem_of_ne_nil _ h
  obtain ⟨l, hl, htask⟩ := List.mem_flatten.1 htask
  obtain ⟨i, hi, rfl⟩ := List.mem_iff_getElem.1 hl
  obtain ⟨j, hj, hij⟩ := exists_offset (n := q.width) hi idx
  refine ⟨j, hj, List.ne_nil_of_mem (a := task) ?_⟩
  rwa [sub_eq, hij, List.getElem?_eq_getElem hi]

/-! ## What an executor gets -/

theorem steal_of_first : ∀ {offset count start : Nat}, offset < count →
    (∀ i < offset, q.sub (start + i) = []) → q.sub (start + offset) = rest ++ [task] →
    q.steal start count = some (task, q.setSub (start + offset) rest)
  | 0, count + 1, start, _, _, hsub => by
    have hsub : q.sub start = rest ++ [task] := hsub
    simp [steal, hsub]
  | offset + 1, count + 1, start, hlt, hempty, hsub => by
    have hstart : q.sub start = [] := hempty 0 (Nat.succ_pos _)
    have hnext : ∀ i, start + 1 + i = start + (i + 1) := fun i => by omega
    rw [← hnext] at hsub ⊢
    simp only [steal, hstart, List.getLast?_nil]
    exact steal_of_first (Nat.lt_of_succ_lt_succ hlt)
      (fun i hi => hnext i ▸ hempty (i + 1) (Nat.succ_lt_succ hi)) hsub

theorem steal_of_empty : ∀ {count start : Nat}, (∀ i < count, q.sub (start + i) = []) →
    q.steal start count = none
  | 0, _, _ => rfl
  | count + 1, start, hempty => by
    have hstart : q.sub start = [] := hempty 0 (Nat.succ_pos _)
    have hnext : ∀ i, start + 1 + i = start + (i + 1) := fun i => by omega
    simp only [steal, hstart, List.getLast?_nil]
    exact steal_of_empty fun i hi => hnext i ▸ hempty (i + 1) (Nat.succ_lt_succ hi)

theorem Gets.tryTake_eq (h : q.Gets idx task q') : q.tryTake idx = some (task, q') := by
  cases h with
  | own hsub => simp [tryTake, hsub]
  | @stolen offset rest _ hempty hfirst hsub =>
    obtain ⟨⟨hpos, hlt, -⟩, hleast⟩ := hfirst
    obtain ⟨offset, rfl⟩ := Nat.exists_eq_succ_of_ne_zero (Nat.ne_of_gt hpos)
    have hnext : ∀ i, idx + 1 + i = idx + i.succ := fun i => by omega
    have hbefore : ∀ i < offset, q.sub (idx + 1 + i) = [] := fun i hi => by
      by_contra hne
      have hle : offset.succ ≤ i.succ := hleast ⟨i.succ_pos, by omega, hnext i ▸ hne⟩
      omega
    simp only [tryTake, hempty]
    rw [← hnext offset] at hsub ⊢
    exact steal_of_first (Nat.lt_sub_of_add_lt hlt) hbefore hsub

theorem tryTake_of_empty (h : q.tasks = []) (idx : Nat) : q.tryTake idx = none := by
  have hempty : ∀ i, q.sub i = [] := fun i => by
    by_contra hne
    obtain ⟨task, htask⟩ := List.exists_mem_of_ne_nil _ hne
    have hmem := List.mem_flatten_of_mem (List.mem_of_getElem? (getElem?_sub hne)) htask
    exact List.ne_nil_of_mem hmem h
  simp only [tryTake, hempty]
  exact steal_of_empty fun i _ => hempty _

/-- An executor gets a task if there is one anywhere. -/
theorem exists_gets (h : q.tasks ≠ []) (idx : Nat) : ∃ task q', q.Gets idx task q' := by
  cases hown : q.sub idx with
  | cons task rest => exact ⟨task, _, .own hown⟩
  | nil =>
    classical
    have hpeer : ∃ j, 0 < j ∧ j < q.width ∧ q.sub (idx + j) ≠ [] := by
      obtain ⟨j, hlt, hne⟩ := exists_sub_ne_nil h idx
      refine ⟨j, Nat.pos_of_ne_zero fun hzero => hne ?_, hlt, hne⟩
      rw [hzero]
      exact hown
    have hfirst : q.FirstPeer idx (Nat.find hpeer) := Nat.isLeast_find hpeer
    obtain hnil | ⟨rest, task, hsub⟩ := List.eq_nil_or_concat' (q.sub (idx + Nat.find hpeer))
    · exact absurd hnil hfirst.1.2.2
    · exact ⟨task, _, .stolen hown hfirst hsub⟩

theorem take_of_empty (hopen : q.closed = false) (h : q.tasks = []) (idx : Nat) :
    q.take idx = (q, .mustWait) := by
  rw [take, if_neg (by simp [hopen]), tryTake_of_empty h]

theorem Gets.take_eq (hopen : q.closed = false) (h : q.Gets idx task q') :
    q.take idx = (q', .done (some task)) := by
  rw [take, if_neg (by simp [hopen]), h.tryTake_eq]

/-- An open queue gives what an executor is to get, and nothing else. -/
theorem take_iff (hopen : q.closed = false) :
    q.take idx = (q', .done (some task)) ↔ q.Gets idx task q' := by
  refine ⟨fun heq => ?_, Gets.take_eq hopen⟩
  by_cases hnil : q.tasks = []
  · exact nomatch (take_of_empty hopen hnil idx).symm.trans heq
  · obtain ⟨task', q'', hgets⟩ := exists_gets hnil idx
    obtain ⟨rfl, hanswer⟩ := Prod.mk.inj ((hgets.take_eq hopen).symm.trans heq)
    obtain rfl := Option.some.inj (Attempt.done.inj hanswer)
    exact hgets

/-! ## Every call -/

/-- There are `n` sub-queues, each with what was pushed to it and not taken, in its order, and as
many tasks pending as they hold. -/
structure Kept (n : Nat) (q : TaskQueue τ) (events : List (TaskQueueEvent τ)) : Prop where
  width_eq : q.width = n
  pending_eq : q.pending = q.tasks.length
  places_perm : (events.filterMap taken? ++ q.tasks).Perm (events.filterMap pushed?)
  sub_sublist : ∀ i, (q.sub i).Sublist (events.filterMap (pushedTo? n i))

section Kept

variable {n : Nat} {events : List (TaskQueueEvent τ)} {e : TaskQueueEvent τ}

theorem kept_new (n : Nat) : Kept (max n 1) (new n : TaskQueue τ) [] where
  width_eq := List.length_replicate
  pending_eq := by simp [new, tasks]
  places_perm := by simp [new, tasks]
  sub_sublist i := by
    rw [sub_eq, new, List.getElem?_replicate]
    split_ifs <;> exact List.nil_sublist _

/-- A call that neither pushes nor takes. -/
theorem Kept.idle (h : Kept n q events) (htaken : e.taken? = none) (hpushed : e.pushed? = none) :
    Kept n q (events ++ [e]) := by
  have hpushedTo : ∀ i, e.pushedTo? n i = none := fun i => by
    cases e with
    | pushed idx task => exact nomatch hpushed
    | took idx answer => rfl
    | closed => rfl
  refine ⟨h.width_eq, h.pending_eq, ?_, fun i => ?_⟩
  · simpa [htaken, hpushed] using h.places_perm
  · simpa [hpushedTo] using h.sub_sublist i

theorem Kept.pushTo (h : Kept n q events) (hpos : 0 < n) (idx : Nat) (task : τ) :
    Kept n (q.pushTo idx task) (events ++ [.pushed idx task]) := by
  have hpos : 0 < q.width := h.width_eq ▸ hpos
  have htasks := perm_tasks_pushTo hpos idx task
  refine ⟨(width_pushTo q idx task).trans h.width_eq, ?_, ?_, fun i => ?_⟩
  · rw [htasks.length_eq]
    exact congrArg (· + 1) h.pending_eq
  · rw [List.filterMap_append, List.filterMap_append]
    calc events.filterMap taken? ++ [] ++ (q.pushTo idx task).tasks
        ~ events.filterMap taken? ++ task :: q.tasks := by simpa using htasks.append_left _
      _ ~ task :: (events.filterMap taken? ++ q.tasks) := List.perm_middle
      _ ~ task :: events.filterMap pushed? := h.places_perm.cons task
      _ ~ events.filterMap pushed? ++ [task] := (List.perm_append_singleton _ _).symm
  · rw [sub_pushTo hpos, h.width_eq, List.filterMap_append]
    split_ifs with hi
    · simpa [pushedTo?, hi] using (h.sub_sublist i).append_right [task]
    · simpa [pushedTo?, hi] using h.sub_sublist i

theorem Kept.setSub (h : Kept n q events) (hpos : 0 < n) (i : Nat)
    (hsub : (q.sub idx).Perm (task :: rest)) (hrest : rest.Sublist (q.sub idx)) :
    Kept n (q.setSub idx rest) (events ++ [.took i (.done (some task))]) := by
  have hpos : 0 < q.width := h.width_eq ▸ hpos
  have htasks := perm_tasks_setSub hsub
  refine ⟨(width_setSub q idx rest).trans h.width_eq, ?_, ?_, fun j => ?_⟩
  · exact congrArg (· - 1) (h.pending_eq.trans htasks.length_eq)
  · rw [List.filterMap_append, List.filterMap_append]
    calc events.filterMap taken? ++ [task] ++ (q.setSub idx rest).tasks
        = events.filterMap taken? ++ task :: (q.setSub idx rest).tasks := by simp
      _ ~ events.filterMap taken? ++ q.tasks := htasks.symm.append_left _
      _ ~ events.filterMap pushed? ++ [] := by simpa using h.places_perm
  · rw [sub_setSub hpos, List.filterMap_append]
    split_ifs with hj
    · have hsame : q.sub j = q.sub idx := by rw [sub_eq, hj, ← sub_eq]
      exact (hrest.trans (hsame ▸ h.sub_sublist j)).trans (List.sublist_append_left _ _)
    · exact (h.sub_sublist j).trans (List.sublist_append_left _ _)

theorem Kept.take (h : Kept n q events) (hpos : 0 < n) (idx : Nat) :
    Kept n (q.take idx).1 (events ++ [.took idx (q.take idx).2]) := by
  rcases q.take_cases idx with ⟨task, rest, hsub, heq⟩ | ⟨task, j, hlast, heq⟩ | heq | heq
  · rw [heq]
    exact h.setSub hpos idx (.of_eq hsub) (hsub ▸ List.sublist_cons_self task rest)
  · rw [heq]
    exact h.setSub hpos idx (perm_sub_dropLast hlast) (List.dropLast_sublist _)
  · rw [heq]
    exact h.idle rfl rfl
  · rw [heq]
    exact h.idle rfl rfl

theorem Kept.call (h : Kept n q events) (hpos : 0 < n) (c : TaskQueueCall τ) :
    Kept n (q.call c).1 (events ++ [(q.call c).2]) := by
  cases c with
  | push task =>
    have hput := h.pushTo hpos q.turn task
    exact ⟨hput.width_eq, hput.pending_eq, hput.places_perm, hput.sub_sublist⟩
  | pushTo idx task => exact h.pushTo hpos idx task
  | take idx => exact h.take hpos idx
  | close =>
    have hidle : Kept n q (events ++ [.closed]) := h.idle rfl rfl
    exact ⟨hidle.width_eq, hidle.pending_eq, hidle.places_perm, hidle.sub_sublist⟩

/-! ## Runs -/

theorem Kept.run (h : Kept n q events) (hpos : 0 < n) (calls : List (TaskQueueCall τ)) :
    Kept n (callAll TaskQueue.call q calls).1 (events ++ (callAll TaskQueue.call q calls).2) :=
  callAll_history (fun _ _ c h => h.call hpos c) calls q events h

theorem closed_take (q : TaskQueue τ) (idx : Nat) : (q.take idx).1.closed = q.closed := by
  rcases q.take_cases idx with ⟨_, _, _, heq⟩ | ⟨_, _, _, heq⟩ | heq | heq <;> rw [heq] <;> rfl

theorem closed_run : ∀ (calls : List (TaskQueueCall τ)) (q : TaskQueue τ),
    (callAll call q calls).1.closed = true ↔ q.closed = true ∨ .close ∈ calls
  | [], q => by simp [callAll]
  | c :: calls, q => by
    have hrest : (callAll TaskQueue.call q (c :: calls)).1.closed = true
        ↔ (q.call c).1.closed = true ∨ .close ∈ calls := closed_run calls (q.call c).1
    rw [hrest, List.mem_cons, ← or_assoc]
    refine or_congr_left ?_
    cases c with
    | push task => simp [TaskQueue.call, push, TaskQueue.pushTo]
    | pushTo idx task => simp [TaskQueue.call, TaskQueue.pushTo]
    | take idx => simp [TaskQueue.call, closed_take]
    | close => simp [TaskQueue.call, close]

/-- After any calls, as many tasks are pending as the sub-queues hold. They hold what was pushed to
them in its order; what they hold and what was taken is, in all, what was pushed, so nothing is
taken twice. As long as the queue is open, an executor gets a task if any is pending: the oldest
one of its own sub-queue, or else the newest one of the first of its peers that has any. Once it is
closed, it gives nothing. -/
theorem tasks_taken_once (queues : Nat) (calls : List (TaskQueueCall τ)) (idx : Nat) :
    let run := callAll call (new queues) calls
    let q := run.1
    let pushed := run.2.filterMap pushed?
    let taken := run.2.filterMap taken?
    q.width = max queues 1
      ∧ q.pending = (q.queues.map List.length).sum
      ∧ q.pending + taken.length = pushed.length
      ∧ (taken ++ q.queues.flatten).Perm pushed
      ∧ (pushed.Nodup → taken.Nodup)
      ∧ (∀ i, q.queues[i % q.width]? = some (q.sub i)
        ∧ (q.sub i).Sublist (run.2.filterMap (pushedTo? q.width i)))
      ∧ (.close ∉ calls →
        ((∃ task, (q.take idx).2 = .done (some task)) ↔ 0 < q.pending)
          ∧ (∀ task q', q.take idx = (q', .done (some task)) ↔ q.Gets idx task q')
          ∧ (q.pending = 0 → q.take idx = (q, .mustWait)))
      ∧ (.close ∈ calls → q.take idx = (q, .done none)) := by
  intro run q pushed taken
  have hpos : 0 < max queues 1 := Nat.lt_of_lt_of_le Nat.one_pos (Nat.le_max_right _ _)
  have hkept : Kept (max queues 1) q run.2 := (kept_new queues).run hpos calls
  have hclosed : q.closed = true ↔ .close ∈ calls :=
    (closed_run calls (new queues)).trans (by simp [new])
  refine ⟨hkept.width_eq, ?_, ?_, hkept.places_perm, fun hnodup => ?_, fun i => ?_,
    fun hopen => ?_, fun hclose => ?_⟩
  · rw [hkept.pending_eq, tasks, List.length_flatten]
  · have hlen := hkept.places_perm.length_eq
    rw [List.length_append] at hlen
    rw [hkept.pending_eq, Nat.add_comm]
    exact hlen
  · exact (List.nodup_append.1 (hkept.places_perm.nodup_iff.2 hnodup)).1
  · exact ⟨getElem?_mod_width (hkept.width_eq ▸ hpos) i, hkept.width_eq ▸ hkept.sub_sublist i⟩
  · have hopen : q.closed = false := Bool.eq_false_iff.2 (mt hclosed.1 hopen)
    have hnil : q.pending = 0 ↔ q.tasks = [] := by rw [hkept.pending_eq, List.length_eq_zero_iff]
    refine ⟨⟨?_, fun hpending => ?_⟩, fun task q' => take_iff hopen,
      fun hzero => take_of_empty hopen (hnil.1 hzero) idx⟩
    · rintro ⟨task, htask⟩
      refine Nat.pos_of_ne_zero fun hzero => ?_
      rw [take_of_empty hopen (hnil.1 hzero)] at htask
      cases htask
    · obtain ⟨task, q', hgets⟩ := exists_gets (mt hnil.2 (Nat.ne_of_gt hpending)) idx
      exact ⟨task, congrArg Prod.snd (hgets.take_eq hopen)⟩
  · rw [TaskQueue.take, if_pos (hclosed.2 hclose)]

end Kept

/-- Of three executors the last one has taken the newest task of the first, and the second its own;
then the second one has to go to the first, past the last. -/
def scattered : List (TaskQueueCall Char) :=
  [.pushTo 0 'a', .push 'b', .push 'c', .take 2, .take 1]

theorem tasks_taken_once_scattered :
    let run := callAll call (new 3) scattered
    let q := run.1
    .close ∉ scattered ∧ q.pending = 1 ∧ q.queues = [['a'], [], []]
      ∧ run.2.filterMap taken? = ['b', 'c']
      ∧ (['b', 'c'] ++ q.queues.flatten).Perm ['a', 'b', 'c'] ∧ q.FirstPeer 1 2
      ∧ q.take 1 = (q.setSub 3 [], .done (some 'a')) ∧ (∃ task, (q.take 1).2 = .done (some task))
      ∧ ((callAll call (new 3) (scattered ++ [.close])).1.take 1).2 = .done none := by
  intro run q
  have hopen : .close ∉ scattered := by simp [scattered]
  have hfirst : q.FirstPeer 1 2 := by
    refine ⟨⟨by decide, by decide, by decide⟩, ?_⟩
    rintro j ⟨hpos, -, hne⟩
    rcases Nat.lt_or_ge j 2 with hlt | hge
    · obtain rfl : j = 1 := by omega
      exact absurd rfl hne
    · exact hge
  have hsub : q.sub (1 + 2) = [] ++ ['a'] := by decide
  obtain ⟨-, -, -, hperm, -, -, htake, -⟩ := tasks_taken_once 3 scattered 1
  obtain ⟨-, -, -, -, -, -, -, hclosed⟩ := tasks_taken_once 3 (scattered ++ [.close]) 1
  exact ⟨hopen, rfl, rfl, rfl, hperm, hfirst, ((htake hopen).2.1 'a' _).2 (.stolen rfl hfirst hsub),
    (htake hopen).1.2 Nat.one_pos, congrArg Prod.snd (hclosed (by simp))⟩

end TaskQueue

end QueryHost
