import QueryHost.Proofs.TokenAcceptance

/-!
# Submissions to a pool that is shut down

A pool that is shut down takes no job, and only what its workers execute by then goes on. But a
serial token does not see that its pool is closed: while it is running it takes tasks and accepts
them, counting on a drain. One that was queued is dropped by the shutdown, so that the tasks wait
for ever, and one that a worker executes goes on and runs them.

`After` is what can have happened since the shutdown, and `Reachable.late_submissions` says which
submissions are accepted then, and whose tasks can run.
-/

namespace QueryHost

open Relation

/-- What a job comes from: the submission of a task, or a token. -/
def Job.source {α : Type} : Job α → α ⊕ TokenId
  | .direct task => .inl task
  | .drain t _ => .inr t

@[simp] theorem Job.source_direct {α : Type} (task : α) :
    (Job.direct task).source = .inl task := rfl

@[simp] theorem Job.source_drain {α : Type} (t : TokenId) (current : Option α) :
    (Job.drain t current).source = .inr t := rfl

theorem Job.source_eq_inr {α : Type} {t : TokenId} {job : Job α} :
    job.source = .inr t ↔ job.isDrainOf t = true := by
  cases job <;> simp

namespace Mark

/-- Whether the mark is given while the task is submitted. -/
def early : Mark → Bool
  | pushed | accepted | declined => true
  | withdrawn | started | takenBack => false

end Mark

namespace ThreadPool

theorem submit_of_closed {τ : Type} {p : ThreadPool τ} (hc : p.closed = true)
    (refusal : Option IoFault) (task : τ) : p.submit refusal task
      = .error (.unavailable ("thread pool " ++ p.shape.name ++ " is shut down")) := by
  simp [submit, push, hc, closedFailure, bind, Except.bind]

end ThreadPool

namespace Crew

variable {α : Type} {c : Crew α}

theorem offer_error {t : TokenId} {k : Token α} {task : α} {f : Failure}
    (h : c.offer t k task = .error f) :
    (k.closed = true ∨ c.pool.shape.maxQueue ≤ k.pending.length) ∧ ∃ m, f = .unavailable m := by
  unfold offer at h
  split_ifs at h with hc hq
  · exact ⟨.inl hc, _, (Except.error.inj h).symm⟩
  · exact ⟨.inr hq, _, (Except.error.inj h).symm⟩

theorem enqueue_of_closed (hc : c.pool.closed = true) (refusal : Option IoFault)
    (job : Job α) : ∃ m, c.enqueue refusal job = .error (.unavailable m) := by
  unfold enqueue
  rw [ThreadPool.submit_of_closed hc]
  exact ⟨_, rfl⟩

end Crew

namespace TokenRun

open TokenView ThreadPool

variable {shape : PoolShape} {s s' u u' : TokenRun} {t : TokenId}

/-- The token takes a task and counts on its drain. -/
def Admits (s : TokenRun) (t : TokenId) : Prop :=
  ∃ k, s.crew.tokens[t]? = some k ∧ k.mode = .serial ∧ k.running = true ∧ k.closed = false
    ∧ k.pending.length < s.crew.pool.shape.maxQueue

/-- The submissions to the token that have left their tasks there, or were turned away at once. -/
def asked (s : TokenRun) (t : TokenId) : List Ticket := s.marked t .pushed ++ s.marked t .declined

theorem mem_marked {m : Mark} {k : Ticket} :
    k ∈ s.marked t m ↔ (⟨t, m, k⟩ : MarkedTask) ∈ s.record := by
  simp only [marked, marks, view, List.mem_map, List.mem_filter, decide_eq_true_eq]
  constructor
  · rintro ⟨⟨m', k'⟩, ⟨⟨r, ⟨hr, rfl⟩, hmk⟩, rfl⟩, rfl⟩
    obtain ⟨rfl, rfl⟩ := Prod.mk.inj hmk
    exact hr
  · intro h
    exact ⟨(m, k), ⟨⟨_, ⟨h, rfl⟩, rfl⟩, rfl⟩, rfl⟩

theorem marked_of_append {new : List MarkedTask} {m : Mark} (h : s'.record = s.record ++ new)
    (hnot : ∀ r ∈ new, r.mark = m → r.token ≠ t) : s'.marked t m = s.marked t m := by
  have hnone : marks ((new.filter (·.token = t)).map fun r => (r.mark, r.ticket)) m = [] := by
    simp only [marks, List.map_eq_nil_iff, List.filter_eq_nil_iff, List.mem_map, List.mem_filter,
      decide_eq_true_eq]
    rintro _ ⟨r, ⟨hr, ht⟩, rfl⟩ hm
    exact hnot r hr hm ht
  simp only [marked, view, h, List.filter_append, List.map_append, marks_append, hnone,
    List.append_nil]

theorem drainsOf_ne_nil_iff : s.drainsOf t ≠ [] ↔ .inr t ∈ s.crew.pool.jobs.map Job.source := by
  simp only [drainsOf, ne_eq, List.filter_eq_nil_iff, not_forall, not_not, List.mem_map,
    Job.source_eq_inr, exists_prop]

/-! ## What can happen since the shutdown -/

/-- What can have happened since the pool of `s` was shut down. -/
structure After (s s' : TokenRun) : Prop where
  closed : s'.crew.pool.closed = true
  sources : s'.crew.pool.jobs.map Job.source ⊆ s.crew.pool.jobs.map Job.source
  tickets_le : s.tickets ≤ s'.tickets
  record : ∃ new, s'.record = s.record ++ new
    ∧ ∀ r ∈ new, (r.mark.early = true → s.tickets ≤ r.ticket)
      ∧ (r.mark = .started → s.drainsOf r.token ≠ [])

theorem After.refl (hc : s.crew.pool.closed = true) : After s s :=
  ⟨hc, List.Subset.refl _, Nat.le_refl _, [], by simp, by simp⟩

theorem After.trans {s'' : TokenRun} (h : After s s') (h' : After s' s'') : After s s'' := by
  obtain ⟨new, hrecord, hnew⟩ := h.record
  obtain ⟨new', hrecord', hnew'⟩ := h'.record
  refine ⟨h'.closed, List.Subset.trans h'.sources h.sources,
    Nat.le_trans h.tickets_le h'.tickets_le, new ++ new', by rw [hrecord', hrecord,
    List.append_assoc], fun r hr => ?_⟩
  rcases List.mem_append.1 hr with hr | hr
  · exact hnew r hr
  · refine ⟨fun hm => Nat.le_trans h.tickets_le ((hnew' r hr).1 hm), fun hm => ?_⟩
    exact drainsOf_ne_nil_iff.2 (h.sources (drainsOf_ne_nil_iff.1 ((hnew' r hr).2 hm)))

theorem After.of_pool {pool : ThreadPool (Job Ticket)} (hc : pool.closed = true)
    (hjobs : pool.jobs.map Job.source ⊆ s.crew.pool.jobs.map Job.source) :
    After s { s with crew.pool := pool } :=
  ⟨hc, hjobs, Nat.le_refl _, [], by simp, by simp⟩

theorem After.of_record {new : List MarkedTask} (hc : s.crew.pool.closed = true)
    (hpool : s'.crew.pool = s.crew.pool) (htickets : s.tickets ≤ s'.tickets)
    (hrecord : s'.record = s.record ++ new)
    (hnew : ∀ r ∈ new, r.mark ≠ .started ∧ (r.mark.early = true → s.tickets ≤ r.ticket)) :
    After s s' :=
  ⟨hpool ▸ hc, hpool ▸ List.Subset.refl _, htickets, new, hrecord,
    fun r hr => ⟨(hnew r hr).2, fun hm => absurd hm (hnew r hr).1⟩⟩

theorem After.of_idle (hc : s.crew.pool.closed = true) (hpool : s'.crew.pool = s.crew.pool)
    (htickets : s'.tickets = s.tickets) (hrecord : s'.record = s.record) : After s s' :=
  .of_record hc hpool (Nat.le_of_eq htickets.symm) (hrecord.trans (List.append_nil _).symm)
    (by simp)

theorem sources_of_perm {p q : ThreadPool (Job Ticket)} (h : q.jobs.Perm p.jobs) :
    q.jobs.map Job.source ⊆ p.jobs.map Job.source := (h.map _).subset

theorem sources_set {p : ThreadPool (Job Ticket)} {w : WorkerId} {job next : Job Ticket}
    (hw : p.workers.get? w = some (.executing job)) (hsame : next.source = job.source) :
    (p.set w (.executing next)).jobs.map Job.source ⊆ p.jobs.map Job.source := by
  have hset := (perm_jobs_set p w next).map Job.source
  have hjobs := (perm_jobs_of_executing hw).map Job.source
  rw [List.map_cons, hsame, ← List.map_cons] at hset
  exact (hset.trans hjobs.symm).subset

theorem sources_finish {p : ThreadPool (Job Ticket)} {w : WorkerId} {job : Job Ticket}
    (hw : p.workers.get? w = some (.executing job)) :
    (p.finish w).jobs.map Job.source ⊆ p.jobs.map Job.source := by
  refine List.Subset.trans ((perm_jobs_finish p w).map _).subset ?_
  exact List.Subset.trans (List.subset_cons_self _ _)
    ((perm_jobs_of_executing hw).map Job.source).symm.subset

theorem After.drained (hc : s.crew.pool.closed = true) {w : WorkerId}
    (hw : s.crew.pool.workers.get? w = some (.executing (.drain t none))) :
    After s (s.drained w t) := by
  have hdrain : s.drainsOf t ≠ [] := by
    refine drainsOf_ne_nil_iff.2 (List.mem_map.2 ⟨.drain t none, ?_, rfl⟩)
    exact (perm_jobs_of_executing hw).mem_iff.2 List.mem_cons_self
  have hpool : (s.drained w t).crew.pool.closed = true
      ∧ (s.drained w t).crew.pool.jobs.map Job.source ⊆ s.crew.pool.jobs.map Job.source := by
    rcases s.crew.proceed_cases w t with ⟨k, task, rest, -, -, heq⟩ | ⟨-, heq⟩
    · rw [TokenRun.drained, heq]
      exact ⟨hc, sources_set hw rfl⟩
    · rw [TokenRun.drained, heq]
      exact ⟨hc, sources_finish hw⟩
  refine ⟨hpool.1, hpool.2, Nat.le_refl _, _, rfl, fun r hr => ?_⟩
  obtain ⟨k, -, rfl⟩ := List.mem_map.1 hr
  exact ⟨fun hm => by simp [Mark.early] at hm, fun _ => hdrain⟩

theorem After.step (hc : s.crew.pool.closed = true) (h : TokenStep s s') : After s s' := by
  have hrefused : ∀ {job : Job Ticket} {crew : Crew Ticket},
      s.crew.enqueue none job ≠ .ok crew := by
    intro job crew hok
    obtain ⟨m, hm⟩ := Crew.enqueue_of_closed hc none job
    rw [hm] at hok
    cases hok
  cases h with
  | newToken mode => exact .of_idle hc rfl rfl rfl
  | submit h => exact absurd h hrefused
  | @offer _ t k start hk _ h =>
    obtain ⟨-, -, -, rfl⟩ := Crew.offer_cases h
    refine .of_record hc rfl (Nat.le_succ _) rfl fun r hr => ?_
    cases start <;> simp at hr <;> rcases hr with rfl | rfl <;> simp
  | decline t =>
    refine .of_record hc rfl (Nat.le_succ _) rfl fun r hr => ?_
    obtain rfl := List.mem_singleton.1 hr
    simp
  | handOver c _ _ h => exact absurd h hrefused
  | refuse c => exact .of_idle hc rfl rfl rfl
  | withdraw c =>
    refine .of_record hc rfl (Nat.le_refl _) rfl fun r hr => ?_
    rcases List.mem_append.1 hr with hr | hr
    · obtain ⟨k, -, rfl⟩ := List.mem_map.1 hr
      simp [Mark.early]
    · obtain rfl := List.mem_singleton.1 hr
      simp [Mark.early]
  | look w hw =>
    exact .of_pool ((closed_look _ _).trans hc) (sources_of_perm (perm_jobs_look hw rfl))
  | wake w timedOut hw =>
    exact .of_pool ((closed_wake _ _ _).trans hc) (sources_of_perm (perm_jobs_wake hw timedOut))
  | finish w task _ hw => exact .of_pool hc (sources_finish hw)
  | proceed w t hw => exact .drained hc hw
  | conclude w t task _ hw => exact .of_pool hc (sources_set hw rfl)
  | closeToken t => exact .of_idle hc rfl rfl rfl
  | shutDown => exact .of_pool rfl ((jobs_shutDown _).map _).subset

theorem After.run (hc : s.crew.pool.closed = true) (h : ReflTransGen TokenStep s s') :
    After s s' := by
  induction h with
  | refl => exact .refl hc
  | tail _ hstep ih => exact ih.trans (.step ih.closed hstep)

theorem Reachable.run (h : Reachable shape s) (hrun : ReflTransGen TokenStep s s') :
    Reachable shape s' := by
  induction hrun with
  | refl => exact h
  | tail _ hstep ih => exact ih.step hstep

/-! ## What is decided while a task is submitted -/

/-- The next ticket has no mark that is given while a task is submitted. -/
theorem Reachable.fresh (h : Reachable shape s) (t : TokenId) {m : Mark} (hm : m.early = true) :
    s.tickets ∉ s.marked t m := by
  have hticketed : (s.view t).Ticketed :=
    h.view_of_moves t ⟨List.nodup_nil, fun k hk => nomatch hk⟩ fun hv hmove => hv.move hmove
  have hreturned : (s.view t).Returned [] :=
    h.view_of_moves t (.refl _) fun hv hmove => hv.move hmove
  have hissued : s.tickets ∉ (s.view t).issued := fun hk =>
    Nat.lt_irrefl _ (hticketed.lt_tickets _ hk)
  have hpushed : s.tickets ∉ s.marked t .pushed := fun hk =>
    hissued (List.mem_append_left _ hk)
  cases m with
  | pushed => exact hpushed
  | declined => exact fun hk => hissued (List.mem_append_right _ hk)
  | accepted =>
    refine fun hk => hpushed (hreturned.mem_iff.2 ?_)
    exact List.mem_append_left _ (List.mem_append_left _ hk)
  | withdrawn | started | takenBack => cases hm

theorem After.mem_marked_iff (h : After s s') {k : Ticket} (hk : k < s.tickets) {m : Mark}
    (hm : m.early = true) : k ∈ s'.marked t m ↔ k ∈ s.marked t m := by
  obtain ⟨new, hrecord, hnew⟩ := h.record
  rw [mem_marked, mem_marked, hrecord, List.mem_append]
  refine ⟨fun hor => hor.elim id fun hr => ?_, .inl⟩
  exact absurd hk (Nat.not_lt.2 ((hnew _ hr).1 hm))

theorem After.started_eq (h : After s s') (hidle : s.drainsOf t = []) :
    s'.marked t .started = s.marked t .started := by
  obtain ⟨new, hrecord, hnew⟩ := h.record
  refine marked_of_append hrecord fun r hr hm ht => ?_
  exact (hnew r hr).2 hm (ht ▸ hidle)

theorem After.direct_mem (h : After s s') {k : Ticket} (hk : .direct k ∈ s'.crew.pool.jobs) :
    .direct k ∈ s.crew.pool.jobs := by
  obtain ⟨job, hjob, hsource⟩ := List.mem_map.1 (h.sources (List.mem_map_of_mem hk))
  cases job with
  | direct task => exact Sum.inl.inj hsource ▸ hjob
  | drain t current => cases hsource

/-- Only a serial token gives a ticket when the pool is shut down. -/
theorem ticket_cases (hc : u.crew.pool.closed = true) (h : TokenStep u u')
    (hticket : u'.tickets = u.tickets + 1) :
    ∃ t k, u.crew.tokens[t]? = some k ∧ k.mode = .serial
      ∧ ((∃ crew start, u.crew.offer t k u.tickets = .ok (crew, start)
          ∧ u' = u.offered t crew start)
        ∨ (∃ f, u.crew.offer t k u.tickets = .error f
          ∧ u' = { u with
              tickets := u.tickets + 1
              record := u.record ++ [⟨t, .declined, u.tickets⟩] })) := by
  cases h with
  | submit h =>
    obtain ⟨m, hm⟩ := Crew.enqueue_of_closed hc none (.direct u.tickets)
    exact absurd (hm.symm.trans h) (by simp)
  | offer t hk hmode h => exact ⟨t, _, hk, hmode, .inl ⟨_, _, h, rfl⟩⟩
  | decline t hk hmode h => exact ⟨t, _, hk, hmode, .inr ⟨_, h, rfl⟩⟩
  | _ => exact absurd hticket (Nat.ne_of_lt (Nat.lt_succ_self _))

theorem admits_iff_of_offer {k : Token Ticket} {task : Ticket} {crew : Crew Ticket} {start : Bool}
    (hk : u.crew.tokens[t]? = some k) (hmode : k.mode = .serial)
    (h : u.crew.offer t k task = .ok (crew, start)) : u.Admits t ↔ start = false := by
  obtain ⟨hopen, hroom, hstart, -⟩ := Crew.offer_cases h
  constructor
  · rintro ⟨k', hk', -, hrunning, -⟩
    obtain rfl := Option.some.inj (hk.symm.trans hk')
    simp [hstart, hrunning]
  · intro hs
    exact ⟨k, hk, hmode, by simpa [hs] using hstart, hopen, hroom⟩

theorem not_admits_of_decline {k : Token Ticket} {task : Ticket} {f : Failure}
    (hk : u.crew.tokens[t]? = some k) (h : u.crew.offer t k task = .error f) : ¬ u.Admits t := by
  rintro ⟨k', hk', -, -, hopen, hroom⟩
  obtain rfl := Option.some.inj (hk.symm.trans hk')
  rcases (Crew.offer_error h).1 with hclosed | hfull
  · simp [hopen] at hclosed
  · exact absurd hroom (Nat.not_lt.2 hfull)

/-- A submission to a serial token of a pool that is shut down is accepted if and only if the token
takes the task when it is offered. -/
theorem accepted_iff_admits (h : Reachable shape u) (hc : u.crew.pool.closed = true)
    (hstep : TokenStep u u') (hticket : u'.tickets = u.tickets + 1) (hafter : After u' s')
    (hasked : u.tickets ∈ s'.asked t) : u.tickets ∈ s'.marked t .accepted ↔ u.Admits t := by
  have hlt : u.tickets < u'.tickets := hticket ▸ Nat.lt_succ_self _
  have hasked : u.tickets ∈ u'.asked t := by
    rcases List.mem_append.1 hasked with hk | hk
    · exact List.mem_append_left _ ((hafter.mem_marked_iff hlt rfl).1 hk)
    · exact List.mem_append_right _ ((hafter.mem_marked_iff hlt rfl).1 hk)
  have hpushed : ⟨t, .pushed, u.tickets⟩ ∉ u.record := fun hr => h.fresh t rfl (mem_marked.2 hr)
  have hdeclined : ⟨t, .declined, u.tickets⟩ ∉ u.record := fun hr => h.fresh t rfl (mem_marked.2 hr)
  have haccepted : ⟨t, .accepted, u.tickets⟩ ∉ u.record := fun hr => h.fresh t rfl (mem_marked.2 hr)
  rw [hafter.mem_marked_iff hlt rfl, mem_marked]
  rw [asked, List.mem_append, mem_marked, mem_marked] at hasked
  obtain ⟨t', k, hk, hmode, ⟨crew, start, hoffer, rfl⟩ | ⟨f, hoffer, rfl⟩⟩ :=
    ticket_cases hc hstep hticket
  · obtain rfl : t = t' := by
      cases start <;> simpa [offered, hpushed, hdeclined] using hasked
    rw [admits_iff_of_offer hk hmode hoffer]
    cases start <;> simp [offered, haccepted]
  · obtain rfl : t = t' := by simpa [hpushed, hdeclined] using hasked
    simp [haccepted, not_admits_of_decline hk hoffer]

/-- Nobody stepping in, a submission by way of a token is accepted if and only if the token takes
the task. -/
theorem submitOn_of_closed (hc : s.crew.pool.closed = true) (refusal : Option IoFault)
    (t : TokenId) (task : Ticket) :
    (s.Admits t ∧ ∃ crew, s.crew.submitOn refusal t task = .ok crew)
      ∨ (¬ s.Admits t ∧ ∃ m, s.crew.submitOn refusal t task = .error (.unavailable m)) := by
  cases hk : s.crew.tokens[t]? with
  | none =>
    simp only [Crew.submitOn, hk]
    refine .inr ⟨?_, Crew.enqueue_of_closed hc refusal _⟩
    rintro ⟨k, hk', -⟩
    simp [hk] at hk'
  | some k =>
    cases hmode : k.mode with
    | concurrent =>
      simp only [Crew.submitOn, hk, hmode]
      refine .inr ⟨?_, Crew.enqueue_of_closed hc refusal _⟩
      rintro ⟨k', hk', hmode', -⟩
      obtain rfl := Option.some.inj (hk.symm.trans hk')
      simp [hmode] at hmode'
    | serial =>
      simp only [Crew.submitOn, hk, hmode, bind, Except.bind]
      cases hoffer : s.crew.offer t k task with
      | error f =>
        obtain ⟨-, m, rfl⟩ := Crew.offer_error hoffer
        exact .inr ⟨not_admits_of_decline hk hoffer, m, rfl⟩
      | ok r =>
        obtain ⟨crew, start⟩ := r
        have hadmits := admits_iff_of_offer hk hmode hoffer
        cases start with
        | false => exact .inl ⟨hadmits.2 rfl, crew, rfl⟩
        | true =>
          obtain ⟨-, -, -, rfl⟩ := Crew.offer_cases hoffer
          simp only [if_true]
          exact .inr
            ⟨by simp [hadmits], Crew.enqueue_of_closed (c := s.crew.onToken t _) hc refusal _⟩

/-- A pool that is shut down takes no job, and what there still is of direct tasks is old. A
submission by way of a token is accepted then if and only if the token is serial, running and not
full when the task is offered, and fails otherwise. No task of a token is started any more unless a
drain was at work when the pool was shut down. -/
theorem Reachable.late_submissions (h : Reachable shape s) (hc : s.crew.pool.closed = true)
    (hrun : ReflTransGen TokenStep s s') :
    (∀ refusal job, s'.crew.pool.submit refusal job
        = .error (.unavailable ("thread pool " ++ s'.crew.pool.shape.name ++ " is shut down")))
      ∧ (∀ k, .direct k ∈ s'.crew.pool.jobs → .direct k ∈ s.crew.pool.jobs)
      ∧ (∀ refusal t task, (s'.Admits t ∧ ∃ crew, s'.crew.submitOn refusal t task = .ok crew)
          ∨ (¬ s'.Admits t ∧ ∃ m, s'.crew.submitOn refusal t task = .error (.unavailable m)))
      ∧ (∀ t u u', ReflTransGen TokenStep s u → TokenStep u u' → u'.tickets = u.tickets + 1 →
          ReflTransGen TokenStep u' s' → u.tickets ∈ s'.asked t →
          (u.tickets ∈ s'.marked t .accepted ↔ u.Admits t))
      ∧ (∀ t, s.drainsOf t = [] → s'.marked t .started = s.marked t .started) := by
  have hafter := After.run hc hrun
  refine ⟨submit_of_closed hafter.closed, fun k hk => hafter.direct_mem hk,
    submitOn_of_closed hafter.closed, fun t u u' hu hstep hticket hu' hasked => ?_,
    fun t hidle => hafter.started_eq hidle⟩
  have hclosed := (After.run hc hu).closed
  have hclosed' := (After.step hclosed hstep).closed
  exact accepted_iff_admits (h.run hu) hclosed hstep hticket (.run hclosed' hu') hasked

/-- A pool that was shut down while the drain of its token executes task 0. -/
def serving : TokenRun where
  crew.pool.shape := ⟨"pool", 1, 1, 4⟩
  crew.pool.threads := 1
  crew.pool.closed := true
  crew.pool.workers := ⟨[(0, .executing (.drain 0 (some 0)))], by decide⟩
  crew.pool.nextWorker := 1
  crew.tokens := [{ mode := .serial, running := true }]
  tickets := 1
  record := [⟨0, .pushed, 0⟩, ⟨0, .accepted, 0⟩, ⟨0, .started, 0⟩]

/-- Task 1 was submitted then, accepted and run. -/
def served : TokenRun where
  crew.pool.shape := ⟨"pool", 1, 1, 4⟩
  crew.pool.threads := 1
  crew.pool.closed := true
  crew.pool.workers := ⟨[(0, .executing (.drain 0 none))], by decide⟩
  crew.pool.nextWorker := 1
  crew.tokens := [{ mode := .serial, running := true }]
  tickets := 2
  record := serving.record ++ [⟨0, .pushed, 1⟩, ⟨0, .accepted, 1⟩, ⟨0, .started, 1⟩]

theorem reachable_staffed : Reachable ⟨"pool", 1, 1, 4⟩ {
    crew.pool.shape := ⟨"pool", 1, 1, 4⟩
    crew.pool.threads := 1
    crew.pool.workers := ⟨[(0, .looking)], by decide⟩
    crew.pool.nextWorker := 1
    crew.tokens := [{ mode := .serial }] } :=
  (Reachable.founded (show ThreadPool.build .none _ = .ok _ from rfl) (.hire .empty)).step
    (.newToken .serial)

theorem reachable_serving : Reachable ⟨"pool", 1, 1, 4⟩ serving := by
  have h1 := reachable_staffed.step (.offer 0 rfl rfl rfl)
  have h2 := h1.step (.handOver ⟨0, 0, false⟩ List.mem_cons_self rfl rfl)
  have h3 := (h2.step (.look 0 rfl)).step (.proceed 0 0 rfl)
  exact h3.step .shutDown

theorem serving_served : ReflTransGen TokenStep serving served := by
  have h1 : ReflTransGen TokenStep serving _ := .single (.offer 0 rfl rfl rfl)
  have h2 := h1.tail (.conclude 0 0 0 .returned rfl)
  exact (h2.tail (.proceed 0 0 rfl)).tail (.conclude 0 0 1 .returned rfl)

theorem late_submissions_served : Reachable ⟨"pool", 1, 1, 4⟩ serving
    ∧ serving.crew.pool.closed = true ∧ ReflTransGen TokenStep serving served
    ∧ (∀ refusal job, served.crew.pool.submit refusal job
        = .error (.unavailable ("thread pool " ++ "pool" ++ " is shut down")))
    ∧ (∀ k, .direct k ∈ served.crew.pool.jobs → .direct k ∈ serving.crew.pool.jobs)
    ∧ (∀ refusal t task, (served.Admits t ∧ ∃ crew, served.crew.submitOn refusal t task = .ok crew)
        ∨ (¬ served.Admits t
          ∧ ∃ m, served.crew.submitOn refusal t task = .error (.unavailable m)))
    ∧ (∀ t u u', ReflTransGen TokenStep serving u → TokenStep u u' → u'.tickets = u.tickets + 1 →
        ReflTransGen TokenStep u' served → u.tickets ∈ served.asked t →
        (u.tickets ∈ served.marked t .accepted ↔ u.Admits t))
    ∧ (∀ t, serving.drainsOf t = [] → served.marked t .started = serving.marked t .started) :=
  ⟨reachable_serving, rfl, serving_served, reachable_serving.late_submissions rfl serving_served⟩

/-- A pool that was shut down while its worker executed task 0 and the drain of its token, which
holds task 1, was queued. -/
def stranded : TokenRun where
  crew.pool.shape := ⟨"pool", 1, 1, 4⟩
  crew.pool.closed := true
  crew.pool.nextWorker := 1
  crew.tokens := [{ mode := .serial, pending := [1], running := true }]
  tickets := 2
  record := [⟨0, .pushed, 1⟩, ⟨0, .accepted, 1⟩]

theorem reachable_stranded : Reachable ⟨"pool", 1, 1, 4⟩ stranded := by
  have h1 := (reachable_staffed.step (.submit rfl)).step (.look 0 rfl)
  have h2 := h1.step (.offer 0 rfl rfl rfl)
  have h3 := h2.step (.handOver ⟨0, 1, false⟩ List.mem_cons_self rfl rfl)
  have h4 := h3.step .shutDown
  exact (h4.step (.finish 0 0 .returned rfl)).step (.look 0 rfl)

/-- A submission to a pool that is shut down can return well, though nobody will run its task, and
the task of one can be run. -/
theorem accepted_when_closed :
    (Reachable ⟨"pool", 1, 1, 4⟩ stranded ∧ stranded.crew.pool.closed = true
      ∧ stranded.drainsOf 0 = []
      ∧ (stranded.crew.submitOn none 0 2).map (·.pending 0) = .ok 2)
    ∧ (Reachable ⟨"pool", 1, 1, 4⟩ serving ∧ serving.crew.pool.closed = true
      ∧ ReflTransGen TokenStep serving served ∧ serving.tickets = 1
      ∧ 1 ∈ served.marked 0 .accepted ∧ 1 ∈ served.marked 0 .started) :=
  ⟨⟨reachable_stranded, rfl, rfl, rfl⟩,
    ⟨reachable_serving, rfl, serving_served, rfl, by decide, by decide⟩⟩

end TokenRun

end QueryHost
