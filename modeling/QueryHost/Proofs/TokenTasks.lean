import QueryHost.Proofs.ClosedPools

/-!
# The task of a token that is under way

A drain is queued between two tasks of its token, and whoever has to do with a token has one that is
there (`Known`). So nothing has happened to a token that is yet to be made (`Known.unused`). At most
one worker drains a token with one owner (`works_unique`); a task is marked as started just when its
worker goes over to it (`started_of_step`), and ends only as the worker concludes it
(`works_of_step`). A token that is there stays there, and stays closed once it is (`token_of_step`).
-/

namespace QueryHost

namespace ThreadPool

variable {τ : Type} {p q : ThreadPool τ} {w v : WorkerId} {task : τ} {job : τ}

theorem mem_executing (hw : p.workers.get? w = some (.executing job)) : job ∈ p.executing :=
  (perm_executing hw).mem_iff.2 List.mem_cons_self

theorem executing_of_push (h : p.push task = .ok q)
    (hv : q.workers.get? v = some (.executing job)) : p.workers.get? v = some (.executing job) := by
  obtain ⟨-, -, ⟨-, -, rfl⟩ | ⟨-, rfl⟩⟩ := push_cases h
  · simp only [hire, Assoc.get?_put] at hv
    split_ifs at hv with hnext
    · simp at hv
    · exact hv
  · exact hv

theorem mem_queue_of_push (h : p.push task = .ok q) (hjob : job ∈ q.queue) :
    job ∈ p.queue ∨ job = task := by
  obtain ⟨-, -, ⟨-, -, rfl⟩ | ⟨-, rfl⟩⟩ := push_cases h
  · exact (List.mem_append.1 hjob).imp_right List.mem_singleton.1
  · exact (List.mem_append.1 hjob).imp_right List.mem_singleton.1

theorem executing_of_leave (hv : (p.leave w).workers.get? v = some (.executing job)) :
    p.workers.get? v = some (.executing job) := by
  simp only [leave, Assoc.get?_erase] at hv
  split_ifs at hv
  exact hv

theorem executing_of_look (hv : (p.look w).workers.get? v = some (.executing job)) :
    p.workers.get? v = some (.executing job) ∨ job ∈ p.queue := by
  rcases look_cases p w with ⟨-, hl⟩ | ⟨first, rest, -, hq, hl⟩ | ⟨-, -, hl⟩
  · rw [hl] at hv
    exact .inl (executing_of_leave hv)
  · simp only [hl, set, Assoc.get?_put] at hv
    split_ifs at hv with hw
    · obtain rfl : first = job := by simpa using hv
      exact .inr (hq ▸ List.mem_cons_self)
    · exact .inl hv
  · simp only [hl, set, Assoc.get?_put] at hv
    split_ifs at hv with hw
    · simp at hv
    · exact .inl hv

theorem mem_queue_of_look (hjob : job ∈ (p.look w).queue) : job ∈ p.queue := by
  rcases look_cases p w with ⟨-, hl⟩ | ⟨first, rest, -, hq, hl⟩ | ⟨-, -, hl⟩
  · rwa [hl] at hjob
  · rw [hl] at hjob
    exact hq ▸ List.mem_cons_of_mem _ hjob
  · rwa [hl] at hjob

theorem executing_of_wake {timedOut : Bool}
    (hv : (p.wake w timedOut).workers.get? v = some (.executing job)) :
    p.workers.get? v = some (.executing job) ∨ job ∈ p.queue := by
  rcases wake_cases p w timedOut with ⟨-, -, hl⟩ | hl
  · rw [hl] at hv
    exact .inl (executing_of_leave hv)
  · rw [hl] at hv
    exact executing_of_look (p := { p with idle := p.idle - 1 }) hv

theorem mem_queue_of_wake {timedOut : Bool} (hjob : job ∈ (p.wake w timedOut).queue) :
    job ∈ p.queue := by
  rcases wake_cases p w timedOut with ⟨-, -, hl⟩ | hl
  · rwa [hl] at hjob
  · rw [hl] at hjob
    exact mem_queue_of_look (p := { p with idle := p.idle - 1 }) hjob

/-- A submission, and what another worker does, leaves what a worker is about. -/
theorem get?_push {stage : Worker τ} (hc : Counted 0 p) (h : p.push task = .ok q)
    (hv : p.workers.get? v = some stage) : q.workers.get? v = some stage := by
  have hne : v ≠ p.nextWorker := Nat.ne_of_lt (hc.lt_next v _ hv)
  obtain ⟨-, -, ⟨-, -, rfl⟩ | ⟨-, rfl⟩⟩ := push_cases h
  · rw [hire, Assoc.get?_put, if_neg hne]
    exact hv
  · exact hv

theorem get?_set_of_ne (p : ThreadPool τ) (h : v ≠ w) (stage : Worker τ) :
    (p.set w stage).workers.get? v = p.workers.get? v := by
  rw [set, Assoc.get?_put, if_neg h]

theorem get?_leave_of_ne (p : ThreadPool τ) (h : v ≠ w) :
    (p.leave w).workers.get? v = p.workers.get? v := by
  rw [leave, Assoc.get?_erase, if_neg h]

theorem get?_look_of_ne (p : ThreadPool τ) (h : v ≠ w) :
    (p.look w).workers.get? v = p.workers.get? v := by
  rcases look_cases p w with ⟨-, hl⟩ | ⟨first, rest, -, -, hl⟩ | ⟨-, -, hl⟩
  · rw [hl, get?_leave_of_ne p h]
  · rw [hl]
    exact get?_set_of_ne p h _
  · rw [hl]
    exact get?_set_of_ne p h _

theorem get?_wake_of_ne (p : ThreadPool τ) (h : v ≠ w) (timedOut : Bool) :
    (p.wake w timedOut).workers.get? v = p.workers.get? v := by
  rcases wake_cases p w timedOut with ⟨-, -, hl⟩ | hl
  · rw [hl]
    exact get?_leave_of_ne _ h
  · rw [hl]
    exact get?_look_of_ne { p with idle := p.idle - 1 } h

/-- The drains are those of the first `n` tokens, and none is queued amid a task. -/
structure Known (n : Nat) (p : ThreadPool (Job Ticket)) : Prop where
  queue : ∀ t current, .drain t current ∈ p.queue → t < n ∧ current = none
  works : ∀ w t current, p.workers.get? w = some (.executing (.drain t current)) → t < n

namespace Known

variable {p q : ThreadPool (Job Ticket)} {w : WorkerId} {n m : Nat}

theorem mono (h : Known n p) (hle : n ≤ m) : Known m p :=
  ⟨fun t current hmem => (h.queue t current hmem).imp_left (Nat.lt_of_lt_of_le · hle),
    fun w t current hw => Nat.lt_of_lt_of_le (h.works w t current hw) hle⟩

theorem submit (h : Known n p) {job : Job Ticket} (hp : p.push job = .ok q)
    (hjob : ∀ t current, .drain t current = job → t < n ∧ current = none) : Known n q :=
  ⟨fun t current hmem => (mem_queue_of_push hp hmem).elim (h.queue t current) (hjob t current),
    fun w t current hw => h.works w t current (executing_of_push hp hw)⟩

theorem turn (h : Known n p) (hqueue : ∀ job ∈ q.queue, job ∈ p.queue)
    (hworks : ∀ w job, q.workers.get? w = some (.executing job) →
      p.workers.get? w = some (.executing job) ∨ job ∈ p.queue) : Known n q :=
  ⟨fun t current hmem => h.queue t current (hqueue _ hmem),
    fun w t current hw => (hworks w _ hw).elim (h.works w t current)
      fun hmem => (h.queue t current hmem).1⟩

theorem set (h : Known n p) (stage : Worker (Job Ticket))
    (hstage : ∀ t current, stage = .executing (.drain t current) → t < n) :
    Known n (p.set w stage) := by
  refine ⟨h.queue, fun v t current hv => ?_⟩
  simp only [ThreadPool.set, Assoc.get?_put] at hv
  split_ifs at hv with hvw
  · exact hstage t current (Option.some.inj hv)
  · exact h.works v t current hv

end Known

end ThreadPool

namespace TokenRun

open TokenView ThreadPool

variable {shape : PoolShape} {s s' : TokenRun} {t u : TokenId} {w v : WorkerId}

/-- Whoever has to do with a token has one that is there. -/
structure Known (s : TokenRun) : Prop where
  jobs : ThreadPool.Known s.crew.tokens.length s.crew.pool
  callers : ∀ c ∈ s.callers, c.token < s.crew.tokens.length
  record : ∀ r ∈ s.record, r.token < s.crew.tokens.length

/-- A worker drains a token, between two of its tasks or executing one. -/
def Works (s : TokenRun) (t : TokenId) (w : WorkerId) (current : Option Ticket) : Prop :=
  s.crew.pool.workers.get? w = some (.executing (.drain t current))

theorem Known.unused (h : s.Known) (ht : s.crew.tokens.length ≤ t) :
    (∀ m, s.marked t m = []) ∧ ∀ w current, ¬ s.Works t w current := by
  refine ⟨fun m => List.eq_nil_iff_forall_not_mem.2 fun k hk => ?_, fun w current hw => ?_⟩
  · exact Nat.not_lt_of_le ht (h.record _ (mem_marked.1 hk))
  · exact Nat.not_lt_of_le ht (h.jobs.works w t current hw)

theorem lt_of_tokens {c : Crew Ticket} {k : Token Ticket} (hk : c.tokens[t]? = some k) :
    t < c.tokens.length := (List.getElem?_eq_some_iff.1 hk).1

theorem length_onToken (c : Crew Ticket) (t : TokenId) (f : Token Ticket → Token Ticket) :
    (c.onToken t f).tokens.length = c.tokens.length := List.length_modify _ _ _

theorem Known.proceed {c : Crew Ticket} (h : ThreadPool.Known c.tokens.length c.pool)
    (hw : c.pool.workers.get? w = some (.executing (.drain t none))) :
    (c.proceed w t).tokens.length = c.tokens.length
      ∧ ThreadPool.Known c.tokens.length (c.proceed w t).pool := by
  rcases c.proceed_cases w t with ⟨k, task, rest, -, -, heq⟩ | ⟨-, heq⟩
  · rw [heq]
    refine ⟨length_onToken _ _ _, h.set _ fun u current hu => ?_⟩
    cases hu
    exact h.works w t none hw
  · rw [heq]
    exact ⟨length_onToken _ _ _, h.set _ (by simp)⟩

theorem Known.of_length (hlen : s'.crew.tokens.length = s.crew.tokens.length)
    (hjobs : ThreadPool.Known s.crew.tokens.length s'.crew.pool)
    (hcallers : ∀ c ∈ s'.callers, c.token < s.crew.tokens.length)
    (hrecord : ∀ r ∈ s'.record, r.token < s.crew.tokens.length) : s'.Known :=
  ⟨hlen ▸ hjobs, hlen ▸ hcallers, hlen ▸ hrecord⟩

/-- Every step keeps the tasks under way known. -/
theorem Known.step (h : s.Known) (hstep : TokenStep s s') : s'.Known := by
  have hmarks : ∀ {new : List MarkedTask} {t : TokenId}, t < s.crew.tokens.length →
      (∀ r ∈ new, r.token = t) → ∀ r ∈ s.record ++ new, r.token < s.crew.tokens.length := by
    intro new t ht hnew r hr
    rcases List.mem_append.1 hr with hr | hr
    · exact h.record r hr
    · exact hnew r hr ▸ ht
  have herase : ∀ {c c' : Caller}, c' ∈ s.callers.erase c → c'.token < s.crew.tokens.length :=
    fun hc => h.callers _ (List.mem_of_mem_erase hc)
  cases hstep with
  | newToken mode =>
    have hle : s.crew.tokens.length ≤ (s.crew.newToken mode).1.tokens.length := by
      simp [Crew.newToken]
    exact ⟨h.jobs.mono hle, fun c hc => Nat.lt_of_lt_of_le (h.callers c hc) hle,
      fun r hr => Nat.lt_of_lt_of_le (h.record r hr) hle⟩
  | submit hok =>
    obtain ⟨pool, hp, rfl⟩ := Crew.enqueue_cases hok
    exact ⟨h.jobs.submit hp (by simp), h.callers, h.record⟩
  | @offer _ t k start hk _ hok =>
    obtain ⟨-, -, -, rfl⟩ := Crew.offer_cases hok
    have ht := lt_of_tokens hk
    refine .of_length (length_onToken _ _ _) h.jobs (fun c hc => ?_) (hmarks ht ?_)
    · cases start with
      | false => exact h.callers c hc
      | true =>
        rcases List.mem_append.1 hc with hc | hc
        · exact h.callers c hc
        · exact List.mem_singleton.1 hc ▸ ht
    · cases start <;> simp
  | decline t hk =>
    exact ⟨h.jobs, h.callers, hmarks (lt_of_tokens hk) (by simp)⟩
  | handOver c hmem _ hok =>
    obtain ⟨pool, hp, rfl⟩ := Crew.enqueue_cases hok
    have hc := h.callers c hmem
    refine ⟨h.jobs.submit hp fun u current hu => ?_, fun c' => herase, hmarks hc (by simp)⟩
    cases hu
    exact ⟨hc, rfl⟩
  | refuse c hmem =>
    refine ⟨h.jobs, fun c' hc' => ?_, h.record⟩
    rcases List.mem_cons.1 hc' with rfl | hc'
    · exact h.callers c hmem
    · exact herase hc'
  | withdraw c hmem =>
    refine .of_length (length_onToken _ _ _) h.jobs (fun c' => herase)
      (hmarks (h.callers c hmem) fun r hr => ?_)
    rcases List.mem_append.1 hr with hr | hr
    · obtain ⟨k, -, rfl⟩ := List.mem_map.1 hr
      rfl
    · exact List.mem_singleton.1 hr ▸ rfl
  | look w hw =>
    exact ⟨h.jobs.turn (fun _ => mem_queue_of_look) fun _ _ => executing_of_look, h.callers,
      h.record⟩
  | wake w timedOut hw =>
    exact ⟨h.jobs.turn (fun _ => mem_queue_of_wake) fun _ _ => executing_of_wake, h.callers,
      h.record⟩
  | finish w task _ hw => exact ⟨h.jobs.set _ (by simp), h.callers, h.record⟩
  | proceed w t hw =>
    obtain ⟨hlen, hjobs⟩ := Known.proceed h.jobs hw
    refine .of_length hlen hjobs h.callers (hmarks (h.jobs.works w t none hw) fun r hr => ?_)
    obtain ⟨k, -, rfl⟩ := List.mem_map.1 hr
    rfl
  | conclude w t task _ hw =>
    refine ⟨h.jobs.set _ fun u current hu => ?_, h.callers, h.record⟩
    cases hu
    exact h.jobs.works w t _ hw
  | closeToken t => exact .of_length (length_onToken _ _ _) h.jobs h.callers h.record
  | shutDown =>
    refine ⟨h.jobs.turn (fun job hjob => ?_) fun _ _ hv => .inl hv, h.callers, h.record⟩
    simp only [Crew.shutDown, ThreadPool.shutDown] at hjob
    split_ifs at hjob
    · exact hjob
    · exact absurd hjob List.not_mem_nil

theorem Reachable.known (h : Reachable shape s) : s.Known := by
  induction h with
  | @founded _ built pool _ hf =>
    have hjobs := hf.jobs_eq (Nat.le_refl _)
    obtain ⟨hqueue, hexecuting⟩ := List.append_eq_nil_iff.1 hjobs
    refine ⟨⟨fun t current hmem => ?_, fun w t current hw => ?_⟩,
      fun _ hc => absurd hc List.not_mem_nil, fun _ hr => absurd hr List.not_mem_nil⟩
    · exact absurd (hqueue ▸ hmem) List.not_mem_nil
    · exact absurd (hexecuting ▸ mem_executing hw) List.not_mem_nil
  | step _ hstep ih => exact ih.step hstep

/-- At most one worker drains a token into whose owners nobody has strayed. -/
theorem works_unique (howned : (s.view t).Owned 0) {c c' : Option Ticket} (hw : s.Works t w c)
    (hv : s.Works t v c') : w = v ∧ c = c' := by
  by_cases hwv : w = v
  · subst hwv
    have heq := Option.some.inj (hw.symm.trans hv)
    exact ⟨rfl, by simpa using heq⟩
  · -- otherwise there would be two drains
    have hother : (s.crew.pool.leave w).workers.get? v = some (.executing (.drain t c')) := by
      rw [ThreadPool.leave, Assoc.get?_erase, if_neg (Ne.symm hwv)]
      exact hv
    have hmem : .drain t c' ∈ s.crew.pool.jobsBeside w :=
      List.mem_append_right _ (mem_executing hother)
    have hpos : 0 < (s.crew.pool.jobsBeside w).countP (Job.isDrainOf t) :=
      List.countP_pos_iff.2 ⟨_, hmem, by simp⟩
    have hdrains : (s.view t).drains = (s.crew.pool.jobsBeside w).countP (Job.isDrainOf t) + 1 := by
      rw [view, (perm_jobs_of_executing hw).countP_eq, List.countP_cons_of_pos (by simp)]
    have hle := howned.owners_le
    rw [owners, hdrains] at hle
    omega

/-- A task is marked as started when the worker that drains its token goes over to it, and nobody
comes to execute a task of the token in another way. -/
theorem started_of_step (h : s.Known) (hstep : TokenStep s s') (t : TokenId) :
    (s'.marked t .started = s.marked t .started
        ∧ ∀ w task, s'.Works t w (some task) → s.Works t w (some task))
      ∨ ∃ w task, s.Works t w none ∧ s'.Works t w (some task)
          ∧ s'.marked t .started = s.marked t .started ++ [task] := by
  have hqueue : ∀ {task}, .drain t (some task) ∉ s.crew.pool.queue := fun hmem =>
    absurd (h.jobs.queue t _ hmem).2 (Option.some_ne_none _)
  have hset : ∀ {v w task} (stage : Worker (Job Ticket)),
      stage ≠ .executing (.drain t (some task)) →
      (s.crew.pool.set w stage).workers.get? v = some (.executing (.drain t (some task))) →
      s.Works t v (some task) := by
    intro v w task stage hne hv
    simp only [ThreadPool.set, Assoc.get?_put] at hv
    split_ifs at hv
    · exact absurd (Option.some.inj hv) hne
    · exact hv
  cases hstep with
  | newToken mode => exact .inl ⟨rfl, fun w task hw => hw⟩
  | submit hok =>
    obtain ⟨pool, hp, rfl⟩ := Crew.enqueue_cases hok
    exact .inl ⟨rfl, fun w task hw => executing_of_push hp hw⟩
  | @offer _ u k start hk _ hok =>
    obtain ⟨-, -, -, rfl⟩ := Crew.offer_cases hok
    exact .inl ⟨marked_of_append rfl (by cases start <;> simp), fun w task hw => hw⟩
  | decline u => exact .inl ⟨marked_of_append rfl (by simp), fun w task hw => hw⟩
  | handOver c _ _ hok =>
    obtain ⟨pool, hp, rfl⟩ := Crew.enqueue_cases hok
    exact .inl ⟨marked_of_append rfl (by simp), fun w task hw => executing_of_push hp hw⟩
  | refuse c => exact .inl ⟨rfl, fun w task hw => hw⟩
  | withdraw c =>
    refine .inl ⟨marked_of_append rfl fun r hr => ?_, fun w task hw => hw⟩
    rcases List.mem_append.1 hr with hr | hr
    · obtain ⟨k, -, rfl⟩ := List.mem_map.1 hr
      simp
    · obtain rfl := List.mem_singleton.1 hr
      simp
  | look v => exact .inl ⟨rfl, fun w task hw => (executing_of_look hw).resolve_right hqueue⟩
  | wake v timedOut =>
    exact .inl ⟨rfl, fun w task hw => (executing_of_wake hw).resolve_right hqueue⟩
  | finish v k => exact .inl ⟨rfl, fun w task hw => hset .looking (by simp) hw⟩
  | proceed v u hv =>
    rcases s.crew.proceed_cases v u with ⟨k, task, rest, hk, hp, heq⟩ | ⟨hp, heq⟩
    · have hpending : (s.crew.token u).pending = task :: rest := by rw [Crew.token_eq hk, hp]
      by_cases hu : u = t
      · subst hu
        refine .inr ⟨v, task, hv, ?_, ?_⟩
        · simp [Works, drained, heq, ThreadPool.set]
        · simp [marked, view, drained, hpending]
      · refine .inl ⟨marked_of_append rfl (by simp [hu]), fun w task' hw => ?_⟩
        simp only [Works, drained, heq] at hw
        exact hset _ (by simp [hu]) hw
    · refine .inl ⟨marked_of_append rfl (by simp [hp]), fun w task hw => ?_⟩
      simp only [Works, drained, heq] at hw
      exact hset .looking (by simp) hw
  | conclude v u k =>
    exact .inl ⟨rfl, fun w task hw => hset _ (by simp) hw⟩
  | closeToken u => exact .inl ⟨rfl, fun w task hw => hw⟩
  | shutDown => exact .inl ⟨rfl, fun w task hw => hw⟩

/-- A task of a token ends only as its worker concludes it. -/
theorem works_of_step (hc : Counted 0 s.crew.pool) (hstep : TokenStep s s') {task : Ticket}
    (hw : s.Works t w (some task)) :
    s'.Works t w (some task) ∨ s' = { s with crew := s.crew.set w (.drain t none) } := by
  have hne : ∀ {v stage}, s.crew.pool.workers.get? v = some stage →
      stage ≠ .executing (.drain t (some task)) → w ≠ v := by
    rintro v stage hv hstage rfl
    exact hstage (Option.some.inj (hv.symm.trans hw))
  cases hstep with
  | submit hok =>
    obtain ⟨pool, hp, rfl⟩ := Crew.enqueue_cases hok
    exact .inl (get?_push hc hp hw)
  | offer _ _ _ hok =>
    obtain ⟨-, -, -, rfl⟩ := Crew.offer_cases hok
    exact .inl hw
  | handOver _ _ _ hok =>
    obtain ⟨pool, hp, rfl⟩ := Crew.enqueue_cases hok
    exact .inl (get?_push hc hp hw)
  | look v hv => exact .inl ((get?_look_of_ne _ (hne hv (by simp))).trans hw)
  | wake v timedOut hv => exact .inl ((get?_wake_of_ne _ (hne hv (by simp)) timedOut).trans hw)
  | finish v k _ hv => exact .inl ((get?_set_of_ne _ (hne hv (by simp)) _).trans hw)
  | proceed v u hv =>
    have hwv := hne hv (by simp)
    rcases s.crew.proceed_cases v u with ⟨k, task, rest, -, -, heq⟩ | ⟨-, heq⟩
    · simp only [Works, drained, heq]
      exact .inl ((get?_set_of_ne _ hwv _).trans hw)
    · simp only [Works, drained, heq]
      exact .inl ((get?_set_of_ne _ hwv _).trans hw)
  | conclude v u k _ hv =>
    by_cases hwv : w = v
    · subst hwv
      obtain ⟨rfl, -⟩ : u = t ∧ k = task := by simpa using hv.symm.trans hw
      exact .inr rfl
    · exact .inl ((get?_set_of_ne _ hwv _).trans hw)
  | newToken | decline | refuse | withdraw | closeToken | shutDown => exact .inl hw

section Tokens

variable {k : Token Ticket} {c : Crew Ticket}

theorem token_onToken_kept (hk : c.tokens[t]? = some k) (u : TokenId)
    {f : Token Ticket → Token Ticket} (hmode : ∀ k, (f k).mode = k.mode)
    (hclosed : ∀ k, k.closed = true → (f k).closed = true) :
    ∃ k', (c.onToken u f).tokens[t]? = some k' ∧ k'.mode = k.mode
      ∧ (k.closed = true → k'.closed = true) := by
  simp only [Crew.onToken, List.getElem?_modify, hk]
  by_cases hu : u = t
  · exact ⟨f k, by simp [hu], hmode k, hclosed k⟩
  · exact ⟨k, by simp [hu], rfl, id⟩

/-- A token that is there stays there, and closed if it is. -/
theorem token_of_step (hstep : TokenStep s s') (hk : s.crew.tokens[t]? = some k) :
    ∃ k', s'.crew.tokens[t]? = some k' ∧ k'.mode = k.mode
      ∧ (k.closed = true → k'.closed = true) := by
  cases hstep with
  | newToken mode =>
    exact ⟨k, (List.getElem?_append_left (lt_of_tokens hk)).trans hk, rfl, id⟩
  | submit hok =>
    obtain ⟨pool, hp, rfl⟩ := Crew.enqueue_cases hok
    exact ⟨k, hk, rfl, id⟩
  | offer u _ _ hok =>
    obtain ⟨-, -, -, rfl⟩ := Crew.offer_cases hok
    exact token_onToken_kept hk u (fun _ => rfl) fun _ => id
  | handOver c _ _ hok =>
    obtain ⟨pool, hp, rfl⟩ := Crew.enqueue_cases hok
    exact ⟨k, hk, rfl, id⟩
  | withdraw c => exact token_onToken_kept hk c.token (fun _ => rfl) fun _ => id
  | proceed w u =>
    rcases s.crew.proceed_cases w u with ⟨k, task, rest, -, -, heq⟩ | ⟨-, heq⟩
    · rw [drained, heq]
      exact token_onToken_kept hk u (fun _ => rfl) fun _ => id
    · rw [drained, heq]
      exact token_onToken_kept hk u (fun _ => rfl) fun _ => id
  | closeToken u => exact token_onToken_kept hk u (fun _ => rfl) fun _ _ => rfl
  | decline | refuse | look | wake | finish | conclude | shutDown => exact ⟨k, hk, rfl, id⟩

end Tokens

end TokenRun

end QueryHost
