import QueryHost.Proofs.ScarceThreads

/-!
# Submissions where threads are refused

A submission by way of a serial token, with nobody stepping in, is a run of steps (`CallerStep`)
that leaves alone whoever executes a job (`Sane.steps_of_submitOn`). As long as no submission has
failed for want of a worker, a refused thread does not change what becomes of a task
(`Reachable.sound`). The workers that drain a token go on as they do where no thread is refused
(`Sane.started_of_step`).
-/

namespace QueryHost

open Relation

namespace ThreadPool

variable {τ : Type} {p q : ThreadPool τ} {task : τ}

/-- What a submission gives: the task is refused, or queued, and then its worker may be given up. -/
theorem submit_cases (p : ThreadPool τ) (refusal : Option IoFault) (task : τ) :
    (∃ f, p.push task = .error f ∧ p.submit refusal task = .error f)
      ∨ (∃ q, p.push task = .ok q ∧ p.submit refusal task = .ok q)
      ∨ ∃ q e, p.push task = .ok q ∧ q.nextWorker ≠ p.nextWorker
          ∧ p.submit refusal task = if (q.unhire p.nextWorker).threads = 0
            then .error (p.refusedFailure e) else .ok (q.unhire p.nextWorker) := by
  cases hp : p.push task with
  | error f => exact .inl ⟨f, rfl, by simp [submit, hp, bind, Except.bind]⟩
  | ok q =>
    cases refusal with
    | none =>
      refine .inr (.inl ⟨q, rfl, ?_⟩)
      rw [submit, hp]
      rfl
    | some e =>
      by_cases hnext : q.nextWorker = p.nextWorker
      · refine .inr (.inl ⟨q, rfl, ?_⟩)
        rw [submit, hp]
        exact if_pos hnext
      · refine .inr (.inr ⟨q, e, rfl, hnext, ?_⟩)
        rw [submit, hp]
        exact if_neg hnext

/-- A pool without workers is as it was when the worker that it has hired for a task is given up at
once, but for the number of the next one. -/
theorem unhire_of_push (hc : Counted 0 p) (h : p.push task = .ok q)
    (hnext : q.nextWorker ≠ p.nextWorker) (hnone : (q.unhire p.nextWorker).threads = 0) :
    q.unhire p.nextWorker = { p with nextWorker := p.nextWorker + 1 } := by
  obtain ⟨-, -, ⟨-, -, rfl⟩ | ⟨-, rfl⟩⟩ := push_cases h
  · have hworkers := Assoc.erase_put_of_none .looking hc.get?_next
    have hthreads : p.threads = 0 := by
      unfold unhire at hnone
      dsimp only at hnone
      split at hnone <;> simpa [hire, leave] using hnone
    simp [unhire, hire, leave, hworkers, hthreads]
  · exact absurd rfl hnext

/-- Whoever executes a job is none of those who are given up. -/
theorem executing_unhire {w v : WorkerId} {job : τ} (hw : p.workers.get? w = some .looking)
    (hv : p.workers.get? v = some (.executing job)) :
    (p.unhire w).workers.get? v = some (.executing job) := by
  rw [workers_unhire, Assoc.get?_erase, if_neg]
  · exact hv
  · rintro rfl
    exact nomatch hw.symm.trans hv

end ThreadPool

namespace ScarceRun

open TokenView ThreadPool

variable {shape : PoolShape} {s s' : ScarceRun} {t : TokenId}

/-- A task of a token ends only as its worker concludes it, whichever threads are refused. -/
theorem Sane.works_of_step (h : s.Sane) (hstep : ScarceStep s s') {w : WorkerId} {task : Ticket}
    (hw : s.run.Works t w (some task)) :
    s'.run.Works t w (some task)
      ∨ s' = { s with run.crew := s.run.crew.set w (.drain t none) } := by
  cases hstep with
  | other hstep =>
    exact (TokenRun.works_of_step h.counted hstep hw).imp_right fun heq => by rw [heq]
  | hire hp => exact .inl (get?_push h.counted hp hw)
  | hireDrain c _ _ hp => exact .inl (get?_push h.counted hp hw)
  | makeDo a ha | giveUp a ha => exact .inl (executing_unhire (h.looking a ha) hw)

/-- A step of a caller. Whoever executes a job goes on with it. -/
def CallerStep (s s' : ScarceRun) : Prop :=
  ScarceStep s s' ∧ ∀ w job, s.run.crew.pool.workers.get? w = some (.executing job) →
    s'.run.crew.pool.workers.get? w = some (.executing job)

/-- Nothing happens to the workers. -/
theorem Sane.caller_other (h : s.Sane) {run : TokenRun} (hstep : TokenStep s.run run)
    (hpool : run.crew.pool = s.run.crew.pool) : CallerStep s { s with run } :=
  ⟨.other hstep fun a ha => hpool ▸ h.looking a ha, fun _ _ hw => hpool ▸ hw⟩

theorem Sane.caller_handOver (h : s.Sane) {pool : ThreadPool (Job Ticket)} {c : Caller}
    (hc : c ∈ s.run.callers) (hrefused : c.refused = false)
    (hp : s.run.crew.pool.push (.drain c.token none) = .ok pool) :
    CallerStep s { s with
      run.crew.pool := pool
      run.callers := s.run.callers.erase c
      run.record := s.run.record ++ [⟨c.token, .accepted, c.ticket⟩] } := by
  have hok : s.run.crew.handOver none c.token = .ok { s.run.crew with pool } := by
    rw [Crew.handOver, Crew.enqueue, submit_none, hp]
    rfl
  exact ⟨.other (.handOver c hc hrefused hok) fun a ha => get?_push h.counted hp (h.looking a ha),
    fun _ _ hw => get?_push h.counted hp hw⟩

theorem Sane.caller_hireDrain (h : s.Sane) {pool : ThreadPool (Job Ticket)} {c : Caller}
    (hc : c ∈ s.run.callers) (hrefused : c.refused = false)
    (hp : s.run.crew.pool.push (.drain c.token none) = .ok pool)
    (hnext : pool.nextWorker ≠ s.run.crew.pool.nextWorker) :
    CallerStep s { s with
      run.crew.pool := pool
      run.callers := s.run.callers.erase c
      absent := s.absent ++ [⟨s.run.crew.pool.nextWorker, .drain c⟩] } :=
  ⟨.hireDrain c hc hrefused hp hnext, fun _ _ hw => get?_push h.counted hp hw⟩

theorem Sane.caller_makeDo (h : s.Sane) {a : Absentee} (ha : a ∈ s.absent)
    (hsome : (s.poolWithout a).threads ≠ 0) : CallerStep s (s.madeDo a) :=
  ⟨.makeDo a ha hsome, fun _ _ hw => executing_unhire (h.looking a ha) hw⟩

theorem Sane.caller_giveUp (h : s.Sane) {a : Absentee} (ha : a ∈ s.absent)
    (hnone : (s.poolWithout a).threads = 0) : CallerStep s (s.gaveUp a) :=
  ⟨.giveUp a ha hnone, fun _ _ hw => executing_unhire (h.looking a ha) hw⟩

/-- The last steps of a caller whose drain was refused. -/
theorem Sane.caller_withdraw (h : s.Sane) {c : Caller} (hc : c ∈ s.run.callers)
    (hrefused : c.refused = true) : CallerStep s { s with run := s.run.withdrawn c } :=
  h.caller_other (.withdraw c hc hrefused) rfl

theorem marked_withdrawn (r : TokenRun) (c : Caller) :
    c.ticket ∈ (r.withdrawn c).marked c.token .withdrawn :=
  TokenRun.mem_marked.2 (by simp [TokenRun.withdrawn])

/-- To start a drain with nobody stepping in is a run of steps. -/
theorem Sane.steps_of_handOver (h : s.Sane) {c : Caller} (hc : c ∈ s.run.callers)
    (hrefused : c.refused = false) (refusal : Option IoFault) :
    (∀ crew, s.run.crew.handOver refusal c.token = .ok crew →
      ∃ s', ReflTransGen CallerStep s s' ∧ s'.run.crew = crew
        ∧ c.ticket ∈ s'.run.marked c.token .accepted)
    ∧ ∀ f, s.run.crew.handOver refusal c.token = .error f →
      ∃ s' n, ReflTransGen CallerStep s s'
        ∧ s'.run.crew = { s.run.crew.withdraw c.token with pool.nextWorker := n }
        ∧ c.ticket ∈ s'.run.marked c.token .withdrawn := by
  have hmap : ∀ r, s.run.crew.pool.submit refusal (.drain c.token none) = r →
      s.run.crew.handOver refusal c.token = r.map fun pool => { s.run.crew with pool } :=
    fun r hr => congrArg (Except.map _) hr
  rcases s.run.crew.pool.submit_cases refusal (.drain c.token none) with
    ⟨f, hp, hr⟩ | ⟨pool, hp, hr⟩ | ⟨pool, e, hp, hnext, hr⟩
  · rw [hmap _ hr]
    refine ⟨fun crew hcrew => (by cases hcrew), fun _ _ => ?_⟩
    have hrefuse : TokenStep s.run _ := .refuse c hc hrefused (by
      rw [Crew.handOver, Crew.enqueue, submit_none, hp]
      rfl)
    have h1 := h.caller_other hrefuse rfl
    have h2 := (h.step h1.1).caller_withdraw List.mem_cons_self rfl
    exact ⟨_, s.run.crew.pool.nextWorker, .tail (.single h1) h2, rfl, marked_withdrawn _ _⟩
  · rw [hmap _ hr]
    refine ⟨fun crew hcrew => ?_, fun _ hf => (by cases hf)⟩
    obtain rfl := Except.ok.inj hcrew
    exact ⟨_, .single (h.caller_handOver hc hrefused hp), rfl, TokenRun.mem_marked.2 (by simp)⟩
  · rw [hmap _ hr]
    have h1 := h.caller_hireDrain hc hrefused hp hnext
    have hsane := h.step h1.1
    have hmem : (⟨s.run.crew.pool.nextWorker, .drain c⟩ : Absentee)
        ∈ s.absent ++ [⟨s.run.crew.pool.nextWorker, .drain c⟩] :=
      List.mem_append_right _ (List.mem_singleton_self _)
    by_cases hnone : (pool.unhire s.run.crew.pool.nextWorker).threads = 0
    · rw [if_pos hnone]
      refine ⟨fun crew hcrew => (by cases hcrew), fun _ _ => ?_⟩
      have h2 := hsane.caller_giveUp hmem hnone
      have h3 := (hsane.step h2.1).caller_withdraw (c := { c with refused := true })
        List.mem_cons_self rfl
      refine ⟨_, s.run.crew.pool.nextWorker + 1, .tail (.tail (.single h1) h2) h3, ?_,
        marked_withdrawn _ _⟩
      exact congrArg (fun pool => Crew.withdraw ⟨pool, s.run.crew.tokens⟩ c.token)
        (unhire_of_push h.counted hp hnext hnone)
    · rw [if_neg hnone]
      refine ⟨fun crew hcrew => ?_, fun _ hf => (by cases hf)⟩
      obtain rfl := Except.ok.inj hcrew
      exact ⟨_, .tail (.single h1) (hsane.caller_makeDo hmem hnone), rfl,
        TokenRun.mem_marked.2 (by simp [madeDo, Errand.caller?])⟩

/-- To submit a task by way of a serial token with nobody stepping in is a run of steps. If it
fails, all but the number of the next worker is as it was. -/
theorem Sane.steps_of_submitOn (h : s.Sane) {k : Token Ticket}
    (hk : s.run.crew.tokens[t]? = some k) (hmode : k.mode = .serial) (refusal : Option IoFault) :
    (∀ crew, s.run.crew.submitOn refusal t s.run.tickets = .ok crew →
      ∃ s', ReflTransGen CallerStep s s' ∧ s'.run.crew = crew
        ∧ s.run.tickets ∈ s'.run.marked t .accepted)
    ∧ ∀ f, s.run.crew.submitOn refusal t s.run.tickets = .error f →
      ∃ s' n, ReflTransGen CallerStep s s' ∧ s'.run.crew = { s.run.crew with pool.nextWorker := n }
        ∧ (s.run.tickets ∈ s'.run.marked t .declined
          ∨ s.run.tickets ∈ s'.run.marked t .withdrawn) := by
  simp only [Crew.submitOn, hk, hmode, bind, Except.bind]
  cases ho : s.run.crew.offer t k s.run.tickets with
  | error f =>
    refine ⟨fun crew hcrew => (by cases hcrew), fun _ _ => ?_⟩
    exact ⟨_, s.run.crew.pool.nextWorker,
      .single (h.caller_other (.decline t hk hmode ho) rfl), rfl,
      .inl (TokenRun.mem_marked.2 (by simp))⟩
  | ok p =>
    obtain ⟨offered, start⟩ := p
    have hpool : offered.pool = s.run.crew.pool := by
      obtain ⟨-, -, -, rfl⟩ := Crew.offer_cases ho
      rfl
    have h1 := h.caller_other (.offer t hk hmode ho) hpool
    cases start with
    | false =>
      refine ⟨fun crew hcrew => ?_, fun _ hf => (by cases hf)⟩
      obtain rfl := Except.ok.inj hcrew
      exact ⟨_, .single h1, rfl, TokenRun.mem_marked.2 (by simp [TokenRun.offered])⟩
    | true =>
      simp only [if_true]
      have hmem : (⟨t, s.run.tickets, false⟩ : Caller)
          ∈ (s.run.offered t offered true).callers :=
        List.mem_append_right _ (List.mem_singleton_self _)
      obtain ⟨hok, herror⟩ := (h.step h1.1).steps_of_handOver hmem rfl refusal
      refine ⟨fun crew hcrew => ?_, fun f hf => ?_⟩
      · obtain ⟨s', hsteps, hcrew', haccepted⟩ := hok crew hcrew
        exact ⟨s', .head h1 hsteps, hcrew', haccepted⟩
      · obtain ⟨s', n, hsteps, hcrew', hwithdrawn⟩ := herror f hf
        refine ⟨s', n, .head h1 hsteps, hcrew'.trans ?_, .inr hwithdrawn⟩
        exact congrArg (fun crew : Crew Ticket => { crew with pool.nextWorker := n })
          (Crew.withdraw_of_offer hk ho)

/-! ## What becomes of the tasks -/

/-- Nobody drains the token or submits to it. -/
def AtRest (s : ScarceRun) (t : TokenId) : Prop := s.run.AtRest t ∧ s.away t = []

end ScarceRun

namespace TokenView

variable {v v' : TokenView} {away away' : List Ticket}

/-- What is known of an open token is still known when a thread is refused and the submission does
without it. -/
theorem Sound.shift (h : v.Sound away) (hs : Shift v v') (howners : v'.owners = v.owners)
    (hcallers : v'.callers ⊆ v.callers)
    (haway : (marks v'.record .accepted ++ (v'.callers ++ away')).Perm
      (marks v.record .accepted ++ (v.callers ++ away))) : v'.Sound away' := by
  obtain ⟨hpending, hrunning, -⟩ := hs.kept
  have hspares : v'.SparesAccepted → v.SparesAccepted := fun h' =>
    h'.of_subset (hs.marks_eq .takenBack nofun ▸ List.Subset.refl _) hs.accepted_subset
  refine ⟨h.ticketed.shift hs, ?_, ?_, ?_, fun k hk => ?_, fun hs' hr => ?_, ?_⟩
  · rw [Returned, hs.marks_eq .pushed nofun, hs.marks_eq .withdrawn nofun]
    exact h.returned.trans (haway.symm.append_right _)
  · rw [Located, hs.marks_eq .pushed nofun, hs.marks_eq .started nofun,
      hs.marks_eq .takenBack nofun, hpending]
    exact h.located
  · rw [howners, hrunning]
    exact h.led.owners_eq
  · obtain ⟨before, later, hsplit, hlater, hfirst⟩ := h.led.caller_pending k (hcallers hk)
    exact ⟨before, later, hpending.trans hsplit, List.Subset.trans hlater hs.accepted_subset,
      fun h' => hfirst (hspares h')⟩
  · exact hpending.trans (h.led.idle_pending (hspares hs') (hrunning ▸ hr))
  · rw [hs.marks_eq .takenBack nofun, hs.marks_eq .withdrawn nofun]
    exact h.led.length_takenBack

theorem Open.of_shift (hopen : v'.Open) (hs : Shift v v') : v.Open := by
  obtain ⟨-, -, hclosed, hpool, -⟩ := hs.kept
  exact ⟨hclosed ▸ hopen.1, hpool ▸ hopen.2⟩

end TokenView

namespace ScarceRun

open TokenView

variable {shape : PoolShape} {s s' : ScarceRun} {t : TokenId}

/-- What is known of a token while it and its pool are open and no submission has failed for want of
a worker. -/
theorem Reachable.sound (h : Reachable shape s) (hundone : s.undone = []) (t : TokenId)
    (hopen : (s.run.view t).Open) : (s.run.view t).Sound (s.away t) := by
  induction h with
  | founded hr => exact sound_of_moves hr hopen
  | @step s _ hr hstep ih =>
    obtain ⟨run, rfl, hm⟩ | hs | ⟨a, -, -, rfl⟩ := hr.sane.view_step hstep t
    · exact (ih hundone (hopen.of_move hm)).move hm hopen
    · exact (ih (hs.undone ▸ hundone) (hopen.of_shift hs.shift)).shift hs.shift hs.owners hs.callers
        hs.away
    · exact absurd hundone (List.append_ne_nil_of_right_ne_nil _ (List.cons_ne_nil _ _))

/-- At rest, the tasks that were started are the accepted ones in the order in which they were left
with the token, if no submission failed for want of a worker and none took back an accepted task. -/
theorem Reachable.started_eq (h : Reachable shape s) (hundone : s.undone = [])
    (hopen : (s.run.view t).Open) (hrest : s.AtRest t) (hspares : (s.run.view t).SparesAccepted) :
    s.run.marked t .started = (s.run.marked t .pushed).filter (· ∈ s.run.marked t .accepted) := by
  obtain ⟨⟨hdrains, hcallers⟩, haway⟩ := hrest
  have hsound : (s.run.view t).Sound [] := haway ▸ h.sound hundone t hopen
  have hperm : (s.run.marked t .started).Perm (s.run.marked t .accepted) := by
    refine (hsound.started_perm_iff ?_ ?_).2 hspares
    · simpa [TokenRun.view] using hcallers
    · exact List.countP_eq_length_filter.trans (congrArg List.length hdrains)
  have hsub := h.started_sublist t
  refine eq_filter_of_sublist hsub (h.nodup_pushed t) fun k => ?_
  rw [decide_eq_true_eq]
  exact ⟨fun hk => ⟨hsub.subset hk, hperm.mem_iff.1 hk⟩, fun hk => hperm.mem_iff.2 hk.2⟩

/-! ## The task of a token that is under way -/

theorem executing_of_unhire {p : ThreadPool (Job Ticket)} {w v : WorkerId} {job : Job Ticket}
    (hv : (p.unhire w).workers.get? v = some (.executing job)) :
    p.workers.get? v = some (.executing job) := by
  rw [ThreadPool.workers_unhire, Assoc.get?_erase] at hv
  split_ifs at hv
  exact hv

/-- A task is marked as started when the worker that drains its token goes over to it, and nobody
comes to execute a task of the token in another way. -/
theorem Sane.started_of_step (h : s.Sane) (hstep : ScarceStep s s') (t : TokenId) :
    (s'.run.marked t .started = s.run.marked t .started
        ∧ ∀ w task, s'.run.Works t w (some task) → s.run.Works t w (some task))
      ∨ ∃ w task, s.run.Works t w none ∧ s'.run.Works t w (some task)
          ∧ s'.run.marked t .started = s.run.marked t .started ++ [task] := by
  cases hstep with
  | other hstep => exact TokenRun.started_of_step h.known hstep t
  | hire hp | hireDrain c _ _ hp =>
    exact .inl ⟨rfl, fun w task hw => ThreadPool.executing_of_push hp hw⟩
  | makeDo a =>
    refine .inl ⟨TokenRun.marked_of_append rfl fun r hr hm => ?_, fun w task => executing_of_unhire⟩
    obtain ⟨c, -, rfl⟩ := List.mem_map.1 hr
    exact nomatch hm
  | giveUp a => exact .inl ⟨rfl, fun w task => executing_of_unhire⟩

/-- A token that is there stays there, and closed if it is. -/
theorem token_of_step (hstep : ScarceStep s s') {k : Token Ticket}
    (hk : s.run.crew.tokens[t]? = some k) :
    ∃ k', s'.run.crew.tokens[t]? = some k' ∧ k'.mode = k.mode
      ∧ (k.closed = true → k'.closed = true) := by
  cases hstep with
  | other hstep => exact TokenRun.token_of_step hstep hk
  | hire | hireDrain | makeDo | giveUp => exact ⟨k, hk, rfl, id⟩

theorem strays_of_step (hstep : ScarceStep s s') (h : s'.strays t = 0) : s.strays t = 0 := by
  cases hstep with
  | giveUp a =>
    rw [strays, gaveUp, List.countP_append] at h
    exact (Nat.add_eq_zero_iff.1 h).1
  | other | hire | hireDrain | makeDo => exact h

end ScarceRun

end QueryHost
