import QueryHost.Proofs.ListParts
import QueryHost.Proofs.TokenTasks

/-!
# When threads are refused

The system may refuse the thread of a worker that was hired. From the hiring on the worker is
counted, though it never does anything; whoever has hired it finds out and takes the worker back,
and if no other worker is left then, the last job of the queue as well. All others may step in
between (`ScarceStep`).

The tasks of a token always start in the order in which they were left with it. A submission that
fails for want of a worker may find that its drain has ended in the meantime. It withdraws all the
same, and clears the mark of a drain that somebody else has started. So each such failure adds a
drain at most (`Reachable.one_at_a_time_but_for_strays`), and one is enough for two tasks of a token
at once (`two_at_once`).
-/

namespace QueryHost

/-- What a worker was hired for: a task of the pool itself, or the drain that a caller starts. -/
inductive Errand where
  | task (ticket : Ticket)
  | drain (caller : Caller)
  deriving DecidableEq, Repr

namespace Errand

def job : Errand → Job Ticket
  | .task k => .direct k
  | .drain c => .drain c.token none

def caller? : Errand → Option Caller
  | .task _ => none
  | .drain c => some c

/-- The submission to a token that waits for the worker. -/
def ticketsFor (e : Errand) (t : TokenId) : List Ticket :=
  (e.caller?.toList.filter (·.token = t)).map (·.ticket)

theorem ticketsFor_task (k : Ticket) (t : TokenId) : (task k).ticketsFor t = [] := rfl

theorem ticketsFor_drain (c : Caller) (t : TokenId) :
    (drain c).ticketsFor t = if c.token = t then [c.ticket] else [] := by
  by_cases h : c.token = t <;> simp [ticketsFor, caller?, h]

theorem countP_job (e : Errand) (t : TokenId) :
    [e.job].countP (Job.isDrainOf t) = (e.ticketsFor t).length := by
  cases e with
  | task k => rfl
  | drain c =>
    rw [ticketsFor_drain]
    by_cases h : c.token = t <;> simp [job, h]

end Errand

/-- A worker whose thread was refused, while the submission that has hired it does not know yet. -/
structure Absentee where
  worker : WorkerId
  errand : Errand
  deriving DecidableEq, Repr

/-- A crew at work on a system that is short of threads. -/
structure ScarceRun where
  run : TokenRun
  absent : List Absentee := []
  /-- The jobs whose submission failed for want of a worker, each with the job that was taken back
  from the queue. -/
  undone : List (Job Ticket × Option (Job Ticket)) := []
  deriving Repr

namespace ScarceRun

/-- The pool once the submission that has hired the absent worker has found out. -/
def poolWithout (s : ScarceRun) (a : Absentee) : ThreadPool (Job Ticket) :=
  s.run.crew.pool.unhire a.worker

/-- A submission goes on without its worker: there are others. -/
def madeDo (s : ScarceRun) (a : Absentee) : ScarceRun :=
  { s with
    run.crew.pool := s.poolWithout a
    run.record := s.run.record
      ++ a.errand.caller?.toList.map fun c => ⟨c.token, .accepted, c.ticket⟩
    absent := s.absent.erase a }

/-- A submission fails for want of a worker. A caller with a drain goes on to take its task back. -/
def gaveUp (s : ScarceRun) (a : Absentee) : ScarceRun where
  run :=
    { s.run with
      crew.pool := s.poolWithout a
      callers := (a.errand.caller?.toList.map fun c => { c with refused := true })
        ++ s.run.callers }
  absent := s.absent.erase a
  undone := s.undone ++ [(a.errand.job, s.run.crew.pool.queue.getLast?)]

end ScarceRun

/-- One step of anybody, where threads may be refused. -/
inductive ScarceStep : ScarceRun → ScarceRun → Prop
  /-- A step that no absent worker takes. -/
  | other {s : ScarceRun} {run : TokenRun} : TokenStep s.run run →
      (∀ a ∈ s.absent, run.crew.pool.workers.get? a.worker = some .looking) →
      ScarceStep s { s with run }
  /-- A task that is submitted to the pool itself hires a worker whose thread is refused. -/
  | hire {s : ScarceRun} {pool : ThreadPool (Job Ticket)} :
      s.run.crew.pool.push (.direct s.run.tickets) = .ok pool →
      pool.nextWorker ≠ s.run.crew.pool.nextWorker →
      ScarceStep s { s with
        run.crew.pool := pool
        run.tickets := s.run.tickets + 1
        absent := s.absent ++ [⟨s.run.crew.pool.nextWorker, .task s.run.tickets⟩] }
  /-- A drain hires a worker whose thread is refused. -/
  | hireDrain {s : ScarceRun} {pool : ThreadPool (Job Ticket)} (c : Caller) :
      c ∈ s.run.callers → c.refused = false →
      s.run.crew.pool.push (.drain c.token none) = .ok pool →
      pool.nextWorker ≠ s.run.crew.pool.nextWorker →
      ScarceStep s { s with
        run.crew.pool := pool
        run.callers := s.run.callers.erase c
        absent := s.absent ++ [⟨s.run.crew.pool.nextWorker, .drain c⟩] }
  | makeDo {s : ScarceRun} (a : Absentee) : a ∈ s.absent → (s.poolWithout a).threads ≠ 0 →
      ScarceStep s (s.madeDo a)
  | giveUp {s : ScarceRun} (a : Absentee) : a ∈ s.absent → (s.poolWithout a).threads = 0 →
      ScarceStep s (s.gaveUp a)

namespace ScarceRun

/-- The states of a crew whose pool is of a shape that can be built. -/
inductive Reachable (shape : PoolShape) : ScarceRun → Prop
  | founded {run : TokenRun} : TokenRun.Reachable shape run → Reachable shape { run }
  | step {s s' : ScarceRun} : Reachable shape s → ScarceStep s s' → Reachable shape s'

/-- How many submissions to a token failed for want of a worker, and did not find their drain at the
end of the queue. -/
def strays (s : ScarceRun) (t : TokenId) : Nat :=
  s.undone.countP fun u => u.1.isDrainOf t && u.2 ≠ some u.1

/-- The submissions to a token that wait for the thread of a drain which will not come. -/
def away (s : ScarceRun) (t : TokenId) : List Ticket :=
  s.absent.flatMap (·.errand.ticketsFor t)

end ScarceRun

namespace ThreadPool

open List

variable {τ : Type} {p q : ThreadPool τ} {w v : WorkerId} {stage : Worker τ}

theorem workers_unhire (p : ThreadPool τ) (w : WorkerId) :
    (p.unhire w).workers = p.workers.erase w := by
  unfold unhire
  dsimp only
  split <;> rfl

theorem closed_unhire (p : ThreadPool τ) (w : WorkerId) : (p.unhire w).closed = p.closed := by
  unfold unhire
  dsimp only
  split <;> rfl

theorem queue_unhire (p : ThreadPool τ) (w : WorkerId) :
    (p.unhire w).queue = if (p.unhire w).threads = 0 then p.queue.dropLast else p.queue := by
  unfold unhire
  dsimp only
  split_ifs with h
  · rfl
  · rfl

theorem Counted.unhire (hc : Counted 0 p) (hw : p.workers.get? w = some .looking) :
    Counted 0 (p.unhire w) := by
  have hleave := hc.leave hw rfl
  unfold ThreadPool.unhire
  dsimp only
  split
  · exact ⟨hleave.lt_next, hleave.threads_eq, hleave.idle_eq⟩
  · exact hleave

theorem perm_executing_unhire (hw : p.workers.get? w = some .looking) :
    (p.unhire w).executing.Perm p.executing := by
  have hexecuting : (p.unhire w).executing = p.others w := by
    rw [executing, workers_unhire, others]
  exact hexecuting ▸ (perm_executing hw).symm

/-- What a pool is left with when a refused worker is given up: its jobs, but for the one that is
taken back if there is no other worker. -/
theorem perm_jobs_unhire (hw : p.workers.get? w = some .looking) :
    p.jobs.Perm ((p.unhire w).jobs
      ++ if (p.unhire w).threads = 0 then p.queue.getLast?.toList else []) := by
  have hexecuting := perm_executing_unhire hw
  rw [jobs, jobs, queue_unhire]
  split_ifs
  · calc p.queue ++ p.executing
        = p.queue.dropLast ++ (p.queue.getLast?.toList ++ p.executing) := by
          rw [← List.append_assoc, dropLast_append_getLast?]
      _ ~ p.queue.dropLast ++ (p.executing ++ p.queue.getLast?.toList) :=
          List.perm_append_comm.append_left _
      _ ~ p.queue.dropLast ++ (p.unhire w).executing ++ p.queue.getLast?.toList := by
          rw [← List.append_assoc]
          exact (hexecuting.symm.append_left _).append_right _
  · rw [List.append_nil]
    exact hexecuting.symm.append_left _

/-- Who was hired looks at the queue next. -/
theorem looking_of_push {task : τ} (h : p.push task = .ok q) (hnext : q.nextWorker ≠ p.nextWorker) :
    q.workers.get? p.nextWorker = some .looking := by
  obtain ⟨-, -, ⟨-, -, rfl⟩ | ⟨-, rfl⟩⟩ := push_cases h
  · rw [hire, Assoc.get?_put, if_pos rfl]
  · exact absurd rfl hnext

end ThreadPool

/-! ## The view of a token -/

namespace TokenView

/-- What a refused thread changes for a token: who is about to start a drain, how many drains there
are, and who has been told that its task was accepted. -/
inductive Shift : TokenView → TokenView → Prop
  | mk {v : TokenView} {callers accepted : List Ticket} {drains tickets : Nat} :
      v.tickets ≤ tickets →
      Shift v { v with
        callers, drains, tickets, record := v.record ++ accepted.map (.accepted, ·) }

variable {v v' : TokenView}

theorem Shift.kept (hs : Shift v v') :
    v'.pending = v.pending ∧ v'.running = v.running ∧ v'.closed = v.closed
      ∧ v'.poolClosed = v.poolClosed ∧ v.tickets ≤ v'.tickets := by
  cases hs with
  | mk hle => exact ⟨rfl, rfl, rfl, rfl, hle⟩

theorem Shift.marks_eq (hs : Shift v v') (m : Mark) (hm : m ≠ .accepted) :
    marks v'.record m = marks v.record m := by
  cases hs with
  | mk => simp [marks_map, Ne.symm hm]

theorem Shift.accepted_subset (hs : Shift v v') :
    marks v.record .accepted ⊆ marks v'.record .accepted := by
  cases hs with
  | mk => simp

theorem Ticketed.shift (h : v.Ticketed) (hs : Shift v v') : v'.Ticketed := by
  have hissued : v'.issued = v.issued := by
    rw [issued, issued, hs.marks_eq .pushed (by simp), hs.marks_eq .declined (by simp)]
  obtain ⟨-, -, -, -, hle⟩ := hs.kept
  exact ⟨hissued ▸ h.nodup, fun k hk => Nat.lt_of_lt_of_le (h.lt_tickets k (hissued ▸ hk)) hle⟩

theorem Ordered.shift (h : v.Ordered) (hs : Shift v v') : v'.Ordered := by
  rw [Ordered, hs.marks_eq .started (by simp), hs.marks_eq .pushed (by simp), hs.kept.1]
  exact h

theorem Owned.shift {n m : Nat} (h : v.Owned n) (hs : Shift v v')
    (howners : v'.owners + n ≤ v.owners + m) : v'.Owned m := by
  obtain ⟨-, hrunning, -⟩ := hs.kept
  unfold Owned at *
  rw [hrunning]
  omega

end TokenView

namespace ScarceRun

open TokenView ThreadPool
open scoped List

variable {shape : PoolShape} {s s' : ScarceRun} {a : Absentee} {u : TokenId}

/-! ## What a step keeps -/

/-- The counts of the pool are right, and those who are absent are among the workers who look. -/
structure Sane (s : ScarceRun) : Prop where
  counted : Counted 0 s.run.crew.pool
  known : s.run.Known
  looking : ∀ a ∈ s.absent, s.run.crew.pool.workers.get? a.worker = some .looking
  distinct : (s.absent.map (·.worker)).Nodup
  callers : ∀ a ∈ s.absent, ∀ c ∈ a.errand.caller?, c.token < s.run.crew.tokens.length

/-- One absent worker more. -/
theorem Sane.hire (h : s.Sane) {e : Errand} {pool : ThreadPool (Job Ticket)} {run : TokenRun}
    (hp : s.run.crew.pool.push e.job = .ok pool)
    (hnext : pool.nextWorker ≠ s.run.crew.pool.nextWorker)
    (hcrew : run.crew = ⟨pool, s.run.crew.tokens⟩)
    (hcaller : ∀ c ∈ e.caller?, c.token < s.run.crew.tokens.length)
    (hcallers : run.callers ⊆ s.run.callers) (hrecord : run.record = s.run.record) :
    Sane { s with run, absent := s.absent ++ [⟨s.run.crew.pool.nextWorker, e⟩] } := by
  have hpool : run.crew.pool = pool := congrArg Crew.pool hcrew
  have htokens : run.crew.tokens = s.run.crew.tokens := by rw [hcrew]
  refine ⟨?_, ⟨?_, ?_, ?_⟩, fun b hb => ?_, ?_, fun b hb c hc => ?_⟩
  · exact hpool ▸ step_counted h.counted (.submit e.job hp)
  · rw [htokens, hpool]
    refine h.known.jobs.submit hp fun t current hjob => ?_
    cases e with
    | task k => exact nomatch hjob
    | drain c =>
      cases hjob
      exact ⟨hcaller c rfl, rfl⟩
  · exact fun c hc => htokens ▸ h.known.callers c (hcallers hc)
  · exact fun r hr => htokens ▸ h.known.record r (hrecord ▸ hr)
  · rw [hpool]
    rcases List.mem_append.1 hb with hb | hb
    · exact get?_push h.counted hp (h.looking b hb)
    · rw [List.mem_singleton.1 hb]
      exact looking_of_push hp hnext
  · rw [List.map_append, List.nodup_append]
    refine ⟨h.distinct, List.nodup_singleton _, fun w hw v hv => ?_⟩
    obtain ⟨b, hb, rfl⟩ := List.mem_map.1 hw
    obtain rfl : v = s.run.crew.pool.nextWorker := List.mem_singleton.1 hv
    exact Nat.ne_of_lt (h.counted.lt_next _ _ (h.looking b hb))
  · rw [htokens]
    rcases List.mem_append.1 hb with hb | hb
    · exact h.callers b hb c hc
    · rw [List.mem_singleton.1 hb] at hc
      exact hcaller c hc

/-- One absent worker less. -/
theorem Sane.unhire (h : s.Sane) (ha : a ∈ s.absent) {run : TokenRun}
    {undone : List (Job Ticket × Option (Job Ticket))}
    (hcrew : run.crew = ⟨s.poolWithout a, s.run.crew.tokens⟩)
    (hcallers : ∀ c ∈ run.callers, c.token < s.run.crew.tokens.length)
    (hrecord : ∀ r ∈ run.record, r.token < s.run.crew.tokens.length) :
    Sane { run, absent := s.absent.erase a, undone } := by
  have hpool : run.crew.pool = s.poolWithout a := congrArg Crew.pool hcrew
  have htokens : run.crew.tokens = s.run.crew.tokens := by rw [hcrew]
  have hperm : (s.absent.map (·.worker)).Perm (a.worker :: (s.absent.erase a).map (·.worker)) :=
    (List.perm_cons_erase ha).map _
  obtain ⟨hgone, hdistinct⟩ := List.nodup_cons.1 (hperm.nodup_iff.1 h.distinct)
  refine ⟨?_, ⟨?_, htokens ▸ hcallers, htokens ▸ hrecord⟩, fun b hb => ?_, hdistinct,
    fun b hb => htokens ▸ h.callers b (List.mem_of_mem_erase hb)⟩
  · exact hpool ▸ h.counted.unhire (h.looking a ha)
  · rw [htokens, hpool]
    refine h.known.jobs.turn (fun job hjob => ?_) fun w job hw => ?_
    · rw [poolWithout, queue_unhire] at hjob
      split_ifs at hjob
      · exact (List.dropLast_sublist _).subset hjob
      · exact hjob
    · rw [poolWithout, workers_unhire, Assoc.get?_erase] at hw
      split_ifs at hw
      exact .inl hw
  · have hne : b.worker ≠ a.worker := by
      rintro heq
      exact hgone (heq ▸ List.mem_map_of_mem hb)
    rw [hpool, poolWithout, workers_unhire, Assoc.get?_erase, if_neg hne]
    exact h.looking b (List.mem_of_mem_erase hb)

/-- Every step keeps a run `Sane`, whichever threads are refused. -/
theorem Sane.step (h : s.Sane) (hstep : ScarceStep s s') : s'.Sane := by
  cases hstep with
  | @other run hstep hlooking =>
    refine ⟨TokenRun.counted_of_step h.counted hstep, h.known.step hstep, hlooking, h.distinct,
      fun a ha c hc => ?_⟩
    have hlt := h.callers a ha c hc
    obtain ⟨k, hk, -⟩ := TokenRun.token_of_step hstep (List.getElem?_eq_getElem hlt)
    exact TokenRun.lt_of_tokens hk
  | hire hp hnext => exact h.hire (e := .task _) hp hnext rfl nofun (List.Subset.refl _) rfl
  | hireDrain c hc _ hp hnext =>
    refine h.hire (e := .drain c) hp hnext rfl (fun c' hc' => ?_) List.erase_subset rfl
    obtain rfl := Option.some.inj hc'
    exact h.known.callers c hc
  | makeDo a ha =>
    refine h.unhire ha rfl h.known.callers fun r hr => ?_
    rcases List.mem_append.1 hr with hr | hr
    · exact h.known.record r hr
    · obtain ⟨c, hc, rfl⟩ := List.mem_map.1 hr
      exact h.callers a ha c (Option.mem_toList.1 hc)
  | giveUp a ha =>
    refine h.unhire ha rfl (fun c' hc' => ?_) h.known.record
    rcases List.mem_append.1 hc' with hc' | hc'
    · obtain ⟨c, hc, rfl⟩ := List.mem_map.1 hc'
      exact h.callers a ha c (Option.mem_toList.1 hc)
    · exact h.known.callers c' hc'

theorem Reachable.sane (h : Reachable shape s) : s.Sane := by
  induction h with
  | founded hr => exact ⟨hr.counted, hr.known, nofun, List.nodup_nil, nofun⟩
  | step _ hstep ih => exact ih.step hstep

/-! ## What a step does to the view of a token -/

/-- The token itself stays as it is. -/
theorem shift_of_tokens (run run' : TokenRun) (accepted : List Ticket)
    (htokens : run'.crew.tokens = run.crew.tokens)
    (hclosed : run'.crew.pool.closed = run.crew.pool.closed) (htickets : run.tickets ≤ run'.tickets)
    (hrecord : (run'.view u).record = (run.view u).record ++ accepted.map (.accepted, ·)) :
    Shift (run.view u) (run'.view u) := by
  have htoken : run'.crew.token u = run.crew.token u := by
    rw [Crew.token, htokens, Crew.token]
  have hview : run'.view u = { run.view u with
      callers := (run'.view u).callers
      drains := (run'.view u).drains
      tickets := run'.tickets
      record := (run.view u).record ++ accepted.map (.accepted, ·) } := by
    rw [TokenView.mk.injEq]
    exact ⟨by simp [TokenRun.view, htoken], by simp [TokenRun.view, htoken],
      by simp [TokenRun.view, htoken], rfl, rfl, hclosed, rfl, hrecord⟩
  exact hview ▸ .mk (v := run.view u) htickets

/-- The drains that are left when a refused worker is given up. -/
theorem Sane.drains_without (h : s.Sane) (ha : a ∈ s.absent) (u : TokenId) :
    s.run.crew.pool.jobs.countP (Job.isDrainOf u)
      = (s.poolWithout a).jobs.countP (Job.isDrainOf u)
        + if (s.poolWithout a).threads = 0
          then s.run.crew.pool.queue.getLast?.toList.countP (Job.isDrainOf u) else 0 := by
  rw [(perm_jobs_unhire (h.looking a ha)).countP_eq, List.countP_append, poolWithout]
  split_ifs <;> rfl

/-- A refused thread that has not made its submission fail. No owner has come or gone by it. -/
structure Eased (s s' : ScarceRun) (u : TokenId) : Prop where
  shift : Shift (s.run.view u) (s'.run.view u)
  owners : (s'.run.view u).owners = (s.run.view u).owners
  callers : (s'.run.view u).callers ⊆ (s.run.view u).callers
  away : (marks (s'.run.view u).record .accepted ++ ((s'.run.view u).callers ++ s'.away u)).Perm
    (marks (s.run.view u).record .accepted ++ ((s.run.view u).callers ++ s.away u))
  undone : s'.undone = s.undone

theorem Sane.eased_hire (h : s.Sane) {pool : ThreadPool (Job Ticket)}
    (hp : s.run.crew.pool.push (.direct s.run.tickets) = .ok pool) (u : TokenId) :
    Eased s { s with
      run.crew.pool := pool
      run.tickets := s.run.tickets + 1
      absent := s.absent ++ [⟨s.run.crew.pool.nextWorker, .task s.run.tickets⟩] } u where
  shift := shift_of_tokens _ _ [] rfl
    ((closed_push hp).2.trans (closed_push hp).1.symm) (Nat.le_succ _) (List.append_nil _).symm
  owners := by
    have hdrains := (perm_jobs_push h.counted hp).countP_eq (Job.isDrainOf u)
    simp [TokenView.owners, TokenRun.view, hdrains]
  callers := List.Subset.refl _
  away := by
    rw [ScarceRun.away, List.flatMap_append, List.flatMap_singleton, Errand.ticketsFor_task,
      List.append_nil]
    rfl
  undone := rfl

theorem Sane.eased_hireDrain (h : s.Sane) {pool : ThreadPool (Job Ticket)} {c : Caller}
    (hc : c ∈ s.run.callers) (hp : s.run.crew.pool.push (.drain c.token none) = .ok pool)
    (u : TokenId) : Eased s { s with
      run.crew.pool := pool
      run.callers := s.run.callers.erase c
      absent := s.absent ++ [⟨s.run.crew.pool.nextWorker, .drain c⟩] } u where
  shift := shift_of_tokens _ _ [] rfl
    ((closed_push hp).2.trans (closed_push hp).1.symm) (Nat.le_refl _) (List.append_nil _).symm
  owners := by
    have hdrains := (perm_jobs_push h.counted hp).countP_eq (Job.isDrainOf u)
    simp only [TokenView.owners, TokenRun.view, hdrains, List.countP_cons, Job.isDrainOf_drain,
      decide_eq_true_eq]
    by_cases hu : u = c.token
    · have hlength := (TokenRun.perm_callers_erase hc).length_eq
      rw [if_pos hu.symm, hu, hlength, List.length_cons]
      omega
    · have hlength := (TokenRun.perm_callers_of_ne hc hu).length_eq
      rw [if_neg (Ne.symm hu), hlength]
      rfl
  callers := ((List.erase_sublist.filter _).map _).subset
  away := by
    refine List.Perm.append_left _ ?_
    simp only [ScarceRun.away, List.flatMap_append, List.flatMap_singleton, Errand.ticketsFor_drain]
    by_cases hu : u = c.token
    · rw [if_pos hu.symm, hu, ← List.append_assoc]
      exact (List.perm_append_singleton _ _).trans
        ((TokenRun.perm_callers_erase hc).symm.append_right _)
    · rw [if_neg (Ne.symm hu), List.append_nil]
      exact (TokenRun.perm_callers_of_ne hc hu).append_right _
  undone := rfl

theorem record_madeDo (s : ScarceRun) (a : Absentee) (u : TokenId) :
    ((s.madeDo a).run.view u).record
      = (s.run.view u).record ++ (a.errand.ticketsFor u).map (.accepted, ·) := by
  simp [TokenRun.view, madeDo, Errand.ticketsFor, List.filter_map, Function.comp_def]

theorem Sane.eased_madeDo (h : s.Sane) (ha : a ∈ s.absent) (hsome : (s.poolWithout a).threads ≠ 0)
    (u : TokenId) : Eased s (s.madeDo a) u where
  shift := shift_of_tokens s.run (s.madeDo a).run _ rfl (closed_unhire _ _) (Nat.le_refl _)
    (record_madeDo s a u)
  owners := by
    have hdrains := h.drains_without ha u
    rw [if_neg hsome, Nat.add_zero] at hdrains
    exact congrArg ((s.run.view u).callers.length + ·) hdrains.symm
  callers := List.Subset.refl _
  away := by
    have haway : (a.errand.ticketsFor u ++ (s.madeDo a).away u).Perm (s.away u) := by
      have hperm := (List.perm_cons_erase ha).flatMap_right fun b => b.errand.ticketsFor u
      rw [List.flatMap_cons] at hperm
      exact hperm.symm
    calc marks ((s.madeDo a).run.view u).record .accepted
          ++ ((s.run.view u).callers ++ (s.madeDo a).away u)
        = marks (s.run.view u).record .accepted
          ++ (a.errand.ticketsFor u ++ ((s.run.view u).callers ++ (s.madeDo a).away u)) := by
          rw [record_madeDo, marks_append, marks_map, if_pos rfl, List.append_assoc]
      _ ~ marks (s.run.view u).record .accepted
          ++ ((s.run.view u).callers ++ (a.errand.ticketsFor u ++ (s.madeDo a).away u)) :=
          (List.perm_append_comm_assoc _ _ _).append_left _
      _ ~ marks (s.run.view u).record .accepted ++ ((s.run.view u).callers ++ s.away u) :=
          (haway.append_left _).append_left _
  undone := rfl

theorem shift_gaveUp (s : ScarceRun) (a : Absentee) (u : TokenId) :
    Shift (s.run.view u) ((s.gaveUp a).run.view u) :=
  shift_of_tokens s.run (s.gaveUp a).run [] rfl (closed_unhire _ _) (Nat.le_refl _)
    (List.append_nil _).symm

/-- A failed submission has at most one owner more to show for than it took back, and that one has
strayed in. -/
theorem Sane.owners_gaveUp (h : s.Sane) (ha : a ∈ s.absent) (hnone : (s.poolWithout a).threads = 0)
    (u : TokenId) : ((s.gaveUp a).run.view u).owners + s.strays u
      ≤ (s.run.view u).owners + (s.gaveUp a).strays u := by
  have hdrains : (s.run.view u).drains = ((s.gaveUp a).run.view u).drains
      + s.run.crew.pool.queue.getLast?.toList.countP (Job.isDrainOf u) := by
    have hwithout := h.drains_without ha u
    rwa [if_pos hnone] at hwithout
  have hcallers : ((s.gaveUp a).run.view u).callers.length
      = [a.errand.job].countP (Job.isDrainOf u) + (s.run.view u).callers.length := by
    rw [a.errand.countP_job]
    simp [TokenRun.view, gaveUp, Errand.ticketsFor, List.filter_map, Function.comp_def]
  have hstrays : (s.gaveUp a).strays u = s.strays u
      + [(a.errand.job, s.run.crew.pool.queue.getLast?)].countP
          fun u' => u'.1.isDrainOf u && u'.2 ≠ some u'.1 := List.countP_append
  rw [TokenView.owners, TokenView.owners, hcallers, hdrains, hstrays]
  by_cases hown : s.run.crew.pool.queue.getLast? = some a.errand.job
  · rw [hown, Option.toList_some]
    omega
  · have hone : [(a.errand.job, s.run.crew.pool.queue.getLast?)].countP
        (fun u' => u'.1.isDrainOf u && u'.2 ≠ some u'.1)
          = [a.errand.job].countP (Job.isDrainOf u) := by
      simp [List.countP_singleton, hown]
    omega

/-- What a step does to a token: it is a move, or the work of a refused thread. -/
theorem Sane.view_step (h : s.Sane) (hstep : ScarceStep s s') (u : TokenId) :
    (∃ run, s' = { s with run } ∧ Move (s.run.view u) (run.view u)) ∨ Eased s s' u
      ∨ ∃ a ∈ s.absent, (s.poolWithout a).threads = 0 ∧ s' = s.gaveUp a := by
  cases hstep with
  | other hstep => exact .inl ⟨_, rfl, TokenRun.move_of_step h.counted hstep u⟩
  | hire hp => exact .inr (.inl (h.eased_hire hp u))
  | hireDrain c hc _ hp => exact .inr (.inl (h.eased_hireDrain hc hp u))
  | makeDo a ha hsome => exact .inr (.inl (h.eased_madeDo ha hsome u))
  | giveUp a ha hnone => exact .inr (.inr ⟨a, ha, hnone, rfl⟩)

/-- What holds of a token that nothing has happened to and is kept by its moves and by refused
threads holds in every reachable state. -/
theorem Reachable.view_of_moves {P : TokenView → Prop} (h : Reachable shape s) (u : TokenId)
    (hnew : P {}) (hmove : ∀ {v v'}, P v → Move v v' → P v')
    (hshift : ∀ {v v'}, P v → Shift v v' → P v') : P (s.run.view u) := by
  induction h with
  | founded hr => exact hr.view_of_moves u hnew hmove
  | step hr hstep ih =>
    obtain ⟨run, rfl, hm⟩ | hs | ⟨a, -, -, rfl⟩ := hr.sane.view_step hstep u
    · exact hmove ih hm
    · exact hshift ih hs.shift
    · exact hshift ih (shift_gaveUp _ a u)

theorem Reachable.ticketed (h : Reachable shape s) (u : TokenId) : (s.run.view u).Ticketed :=
  h.view_of_moves u ⟨List.nodup_nil, fun _ hk => nomatch hk⟩ (fun hv => hv.move) fun hv => hv.shift

theorem Reachable.ordered (h : Reachable shape s) (u : TokenId) : (s.run.view u).Ordered :=
  h.view_of_moves u (.refl _) (fun hv => hv.move) fun hv => hv.shift

theorem Reachable.owned (h : Reachable shape s) (u : TokenId) :
    (s.run.view u).Owned (s.strays u) := by
  induction h with
  | founded hr => exact hr.view_of_moves u (Nat.le_refl 0) fun hv hm => hv.move hm
  | @step s _ hr hstep ih =>
    obtain ⟨run, rfl, hm⟩ | hs | ⟨a, ha, hnone, rfl⟩ := hr.sane.view_step hstep u
    · exact ih.move hm
    · refine ih.shift hs.shift (Nat.le_of_eq ?_)
      rw [hs.owners, strays, strays, hs.undone]
    · exact ih.shift (shift_gaveUp s a u) (hr.sane.owners_gaveUp ha hnone u)

theorem Reachable.started_sublist (h : Reachable shape s) (t : TokenId) :
    (s.run.marked t .started).Sublist (s.run.marked t .pushed) :=
  (List.sublist_append_left _ _).trans (h.ordered t)

theorem Reachable.nodup_pushed (h : Reachable shape s) (t : TokenId) :
    (s.run.marked t .pushed).Nodup :=
  (h.ticketed t).nodup.sublist (List.sublist_append_left _ _)

theorem Reachable.length_drainsOf (h : Reachable shape s) (t : TokenId) :
    (s.run.drainsOf t).length ≤ s.strays t + 1 := by
  rw [TokenRun.drainsOf, ← List.countP_eq_length_filter]
  exact Nat.le_trans (Nat.le_add_left _ _) (h.owned t).owners_le

/-- Whatever the callers, the workers and those who close do, and whichever threads are refused, the
tasks of a serial token start in the order in which they were left with it, each at most once. The
token has one drain and executes one task at most, and one more for each submission that failed for
want of a worker when its drain was no longer at the end of the queue. -/
theorem Reachable.one_at_a_time_but_for_strays (h : Reachable shape s) (t : TokenId) :
    (s.run.marked t .started).Sublist (s.run.marked t .pushed) ∧ (s.run.marked t .started).Nodup
      ∧ (s.run.drainsOf t).length ≤ s.strays t + 1
      ∧ (s.run.underWay t).length ≤ s.strays t + 1 :=
  ⟨h.started_sublist t, (h.nodup_pushed t).sublist (h.started_sublist t), h.length_drainsOf t,
    Nat.le_trans (s.run.underWay_le_drainsOf t) (h.length_drainsOf t)⟩

/-- Task 0 was taken back with its drain when the first thread was refused, and task 1 is being
executed by the second one. -/
def regained : ScarceRun where
  run.crew.pool.shape := ⟨"pool", 0, 2, 4⟩
  run.crew.pool.threads := 1
  run.crew.pool.workers := Assoc.empty.put 1 (.executing (.drain 0 (some 1)))
  run.crew.pool.nextWorker := 2
  run.crew.tokens := [{ mode := .serial, running := true }]
  run.tickets := 2
  run.record := [⟨0, .pushed, 0⟩, ⟨0, .takenBack, 0⟩, ⟨0, .withdrawn, 0⟩, ⟨0, .pushed, 1⟩,
    ⟨0, .accepted, 1⟩, ⟨0, .started, 1⟩]
  undone := [(.drain 0 none, some (.drain 0 none))]

theorem reachable_offered : Reachable ⟨"pool", 0, 2, 4⟩ { run := {
    crew.pool.shape := ⟨"pool", 0, 2, 4⟩
    crew.tokens := [{ mode := .serial, pending := [0], running := true }]
    tickets := 1
    callers := [⟨0, 0, false⟩]
    record := [⟨0, .pushed, 0⟩] } } := by
  have h0 : TokenRun.Reachable ⟨"pool", 0, 2, 4⟩ _ :=
    .founded (show ThreadPool.build .none _ = .ok _ from rfl) .empty
  have h1 := (h0.step (.newToken .serial)).step (.offer 0 rfl rfl rfl)
  exact .founded h1

theorem reachable_regained : Reachable ⟨"pool", 0, 2, 4⟩ regained := by
  have h1 := reachable_offered.step (.hireDrain ⟨0, 0, false⟩ List.mem_cons_self rfl rfl nofun)
  have h2 := h1.step (.giveUp ⟨0, .drain ⟨0, 0, false⟩⟩ List.mem_cons_self rfl)
  have h3 := h2.step (.other (.withdraw ⟨0, 0, true⟩ List.mem_cons_self rfl) nofun)
  have h4 := h3.step (.other (.offer 0 rfl rfl rfl) nofun)
  have h5 := h4.step (.other (.handOver ⟨0, 1, false⟩ List.mem_cons_self rfl rfl) nofun)
  have h6 := h5.step (.other (.look 1 rfl) nofun)
  exact h6.step (.other (.proceed 1 0 rfl) nofun)

theorem one_at_a_time_regained : Reachable ⟨"pool", 0, 2, 4⟩ regained
    ∧ (regained.run.marked 0 .started).Sublist (regained.run.marked 0 .pushed)
    ∧ (regained.run.marked 0 .started).Nodup ∧ (regained.run.drainsOf 0).length ≤ 1
    ∧ (regained.run.underWay 0).length ≤ 1 :=
  ⟨reachable_regained, reachable_regained.one_at_a_time_but_for_strays 0⟩

/-- Task 1 was run by the only worker, which then retired, while its submission waited for a thread.
The submission failed, and cleared the mark of the drain that was started for task 2 in between. So
another one was started for task 3. -/
def doubled : ScarceRun where
  run.crew.pool.shape := ⟨"pool", 0, 2, 4⟩
  run.crew.pool.threads := 2
  run.crew.pool.workers :=
    (Assoc.empty.put 2 (.executing (.drain 0 (some 2)))).put 3 (.executing (.drain 0 (some 3)))
  run.crew.pool.nextWorker := 4
  run.crew.tokens := [{ mode := .serial, running := true }]
  run.tickets := 4
  run.record := [⟨0, .pushed, 1⟩, ⟨0, .started, 1⟩, ⟨0, .pushed, 2⟩, ⟨0, .accepted, 2⟩,
    ⟨0, .started, 2⟩, ⟨0, .withdrawn, 1⟩, ⟨0, .pushed, 3⟩, ⟨0, .accepted, 3⟩, ⟨0, .started, 3⟩]
  undone := [(.drain 0 none, none)]

/-- The thread of worker 1 is refused, and worker 0 goes on until the pool has no worker left. Task
2 comes between the failure of the submission and its withdrawal. -/
theorem reachable_doubled : Reachable ⟨"pool", 0, 2, 4⟩ doubled := by
  have h0 : TokenRun.Reachable ⟨"pool", 0, 2, 4⟩ _ :=
    .founded (show ThreadPool.build .none _ = .ok _ from rfl) .empty
  have h1 := ((h0.step (.newToken .serial)).step (.submit rfl)).step (.look 0 rfl)
  have h2 := Reachable.founded (h1.step (.offer 0 rfl rfl rfl))
  have h3 := h2.step (.hireDrain ⟨0, 1, false⟩ List.mem_cons_self rfl rfl nofun)
  have h4 := h3.step (.other (.finish 0 0 .returned rfl) (by decide))
  have h5 := h4.step (.other (.look 0 rfl) (by decide))
  have h6 := h5.step (.other (.proceed 0 0 rfl) (by decide))
  have h7 := h6.step (.other (.conclude 0 0 1 .returned rfl) (by decide))
  have h8 := h7.step (.other (.proceed 0 0 rfl) (by decide))
  have h9 := h8.step (.other (.look 0 rfl) (by decide))
  have h10 := h9.step (.other (.wake 0 true rfl) (by decide))
  have h11 := h10.step (.giveUp ⟨1, .drain ⟨0, 1, false⟩⟩ List.mem_cons_self rfl)
  have h12 := h11.step (.other (.offer 0 rfl rfl rfl) nofun)
  have h13 := h12.step (.other (.handOver ⟨0, 2, false⟩ (by decide) rfl rfl) nofun)
  have h14 := h13.step (.other (.look 2 rfl) nofun)
  have h15 := h14.step (.other (.proceed 2 0 rfl) nofun)
  have h16 := h15.step (.other (.withdraw ⟨0, 1, true⟩ List.mem_cons_self rfl) nofun)
  have h17 := h16.step (.other (.offer 0 rfl rfl rfl) nofun)
  have h18 := h17.step (.other (.handOver ⟨0, 3, false⟩ List.mem_cons_self rfl rfl) nofun)
  have h19 := h18.step (.other (.look 3 rfl) nofun)
  exact h19.step (.other (.proceed 3 0 rfl) nofun)

/-- A serial token can have two drains and execute two tasks at once. -/
theorem two_at_once : Reachable ⟨"pool", 0, 2, 4⟩ doubled
    ∧ doubled.run.underWay 0 = [2, 3] ∧ (doubled.run.drainsOf 0).length = 2 :=
  ⟨reachable_doubled, by decide, by decide⟩

end ScarceRun

end QueryHost
