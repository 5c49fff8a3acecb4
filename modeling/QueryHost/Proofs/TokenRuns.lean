import Mathlib.Data.List.Perm.Basic
import Mathlib.Logic.Relation
import QueryHost.Proofs.PoolJobs
import QueryHost.Threads.Rest

/-!
# What the parties of a pool's tokens do

Callers submit tasks by way of tokens while the workers go on, tokens are closed and the pool shuts
down; whatever happens under one lock is one step (`TokenStep`), and every step may come between two
steps of a caller. A worker that is hired does start. A task is known by its ticket, the number of
its submission, and the record keeps what became of it.

A token sees little of all this: what happens to it is one of ten moves (`Move`), and whatever
anybody does is a move for each token (`move_of_step`). What is true of a token in every state is
proved for its moves.
-/

namespace QueryHost

/-- A submission to a serial token that has left its task there and has not returned. -/
structure Caller where
  token : TokenId
  ticket : Ticket
  /-- Whether the pool has refused the drain, so that the caller takes a task back. -/
  refused : Bool := false
  deriving DecidableEq, Repr

inductive Mark where
  /-- The task was left with its token. -/
  | pushed
  /-- Its submission returned well. -/
  | accepted
  /-- Its submission failed before the task was left with the token. -/
  | declined
  /-- Its submission failed after that. -/
  | withdrawn
  | started
  /-- A submission that failed took it back from the token. -/
  | takenBack
  deriving DecidableEq, Repr

structure MarkedTask where
  token : TokenId
  mark : Mark
  ticket : Ticket
  deriving DecidableEq, Repr

/-- A crew at work, with the submissions to its serial tokens that are under way. -/
structure TokenRun where
  crew : Crew Ticket
  /-- How many tickets were given out. -/
  tickets : Nat := 0
  callers : List Caller := []
  record : List MarkedTask := []
  deriving Repr

namespace Crew

variable {α : Type}

/-- A token; one that there is not is idle. -/
def token (c : Crew α) (t : TokenId) : Token α := (c.tokens[t]?).getD { mode := .serial }

theorem token_eq {c : Crew α} {t : TokenId} {k : Token α} (h : c.tokens[t]? = some k) :
    c.token t = k := by
  simp [token, h]

theorem token_onToken {c : Crew α} {t : TokenId} {k : Token α} (h : c.tokens[t]? = some k)
    (f : Token α → Token α) : (c.onToken t f).token t = f k := by
  unfold token onToken
  rw [List.getElem?_modify]
  simp [h]

/-- It does not matter whether there is the token if an idle one would stay as it is. -/
theorem token_onToken_of_idle (c : Crew α) (t : TokenId) {f : Token α → Token α}
    (hf : f { mode := .serial } = { mode := .serial }) :
    (c.onToken t f).token t = f (c.token t) := by
  unfold token onToken
  rw [List.getElem?_modify]
  cases h : c.tokens[t]? with
  | none => simpa using hf.symm
  | some k => simp

theorem token_onToken_of_ne (c : Crew α) {t u : TokenId} (h : u ≠ t) (f : Token α → Token α) :
    (c.onToken t f).token u = c.token u := by
  unfold token onToken
  rw [List.getElem?_modify]
  simp [h.symm]

@[simp] theorem pool_onToken (c : Crew α) (t : TokenId) (f : Token α → Token α) :
    (c.onToken t f).pool = c.pool := rfl

@[simp] theorem pool_set (c : Crew α) (w : WorkerId) (job : Job α) :
    (c.set w job).pool = c.pool.set w (.executing job) := rfl

@[simp] theorem token_set (c : Crew α) (w : WorkerId) (job : Job α) (t : TokenId) :
    (c.set w job).token t = c.token t := rfl

@[simp] theorem pool_finish (c : Crew α) (w : WorkerId) :
    (c.finish w).pool = c.pool.finish w := rfl

@[simp] theorem token_finish (c : Crew α) (w : WorkerId) (t : TokenId) :
    (c.finish w).token t = c.token t := rfl

theorem onToken_of_none {c : Crew α} {t : TokenId} (h : c.tokens[t]? = none)
    (f : Token α → Token α) : c.onToken t f = c := by
  unfold onToken
  rw [List.modify_eq_self (List.getElem?_eq_none_iff.1 h)]

/-! ## What a step can do -/

theorem offer_cases {c c' : Crew α} {t : TokenId} {k : Token α} {task : α} {start : Bool}
    (h : c.offer t k task = .ok (c', start)) :
    k.closed = false ∧ k.pending.length < c.pool.shape.maxQueue ∧ start = !k.running
      ∧ c' = c.onToken t fun k => { k with pending := k.pending ++ [task], running := true } := by
  unfold offer at h
  split_ifs at h with hc hq
  obtain ⟨rfl, rfl⟩ := Prod.mk.inj (Except.ok.inj h)
  exact ⟨by simpa using hc, by omega, rfl, rfl⟩

/-- A task that is taken back at once leaves nothing behind. -/
theorem withdraw_of_offer {c c' : Crew α} {t : TokenId} {k : Token α} {task : α}
    (hk : c.tokens[t]? = some k) (h : c.offer t k task = .ok (c', true)) : c'.withdraw t = c := by
  obtain ⟨-, -, hstart, rfl⟩ := offer_cases h
  have hrunning : k.running = false := by simpa using hstart.symm
  suffices htokens : ((c.onToken t _).withdraw t).tokens = c.tokens from
    congrArg (Crew.mk c.pool) htokens
  refine List.ext_getElem? fun u => ?_
  simp only [withdraw, onToken, List.getElem?_modify]
  by_cases hu : t = u
  · subst hu
    simp [hk, ← hrunning]
  · simp [hu]

theorem enqueue_cases {c c' : Crew α} {job : Job α} (h : c.enqueue none job = .ok c') :
    ∃ pool, c.pool.push job = .ok pool ∧ c' = { c with pool } := by
  rw [enqueue, ThreadPool.submit_none] at h
  cases hp : c.pool.push job with
  | error f => simp [hp, Except.map] at h
  | ok pool =>
    rw [hp] at h
    exact ⟨pool, rfl, (Except.ok.inj h).symm⟩

theorem proceed_cases (c : Crew α) (w : WorkerId) (t : TokenId) :
    (∃ k task rest, c.tokens[t]? = some k ∧ k.pending = task :: rest
        ∧ c.proceed w t = (c.onToken t fun k => { k with pending := rest }).set w
          (.drain t (some task)))
      ∨ ((c.token t).pending = []
        ∧ c.proceed w t = (c.onToken t fun k => { k with running := false }).finish w) := by
  unfold proceed
  cases hk : c.tokens[t]? with
  | none => exact .inr ⟨by simp [token, hk], rfl⟩
  | some k =>
    cases hp : k.pending with
    | nil => exact .inr ⟨by rw [token_eq hk, hp], by simp [hp]⟩
    | cons task rest => exact .inl ⟨k, task, rest, rfl, hp, by simp [hp]⟩

end Crew

namespace TokenRun

/-- A serial token has taken a task. The caller stays if it has to start the drain. -/
def offered (s : TokenRun) (t : TokenId) (crew : Crew Ticket) (start : Bool) : TokenRun where
  crew := crew
  tickets := s.tickets + 1
  callers := if start then s.callers ++ [⟨t, s.tickets, false⟩] else s.callers
  record := s.record ++ ⟨t, .pushed, s.tickets⟩
    :: if start then [] else [⟨t, .accepted, s.tickets⟩]

/-- A caller whose drain was refused has taken back the last task of the token. -/
def withdrawn (s : TokenRun) (c : Caller) : TokenRun where
  crew := s.crew.withdraw c.token
  tickets := s.tickets
  callers := s.callers.erase c
  record := s.record
    ++ ((s.crew.token c.token).pending.getLast?.toList.map (⟨c.token, .takenBack, ·⟩)
      ++ [⟨c.token, .withdrawn, c.ticket⟩])

/-- A worker has gone on with the drain of a token. -/
def drained (s : TokenRun) (w : WorkerId) (t : TokenId) : TokenRun :=
  { s with
    crew := s.crew.proceed w t
    record := s.record ++ (s.crew.token t).pending.head?.toList.map (⟨t, .started, ·⟩) }

end TokenRun

/-- One step of anybody. A caller's ticket is the next one. -/
inductive TokenStep : TokenRun → TokenRun → Prop
  | newToken {s : TokenRun} (mode : TokenMode) :
      TokenStep s { s with crew := (s.crew.newToken mode).1 }
  /-- A submission to the pool itself, or by way of a concurrent token. -/
  | submit {s : TokenRun} {crew : Crew Ticket} : s.crew.submit none s.tickets = .ok crew →
      TokenStep s { s with crew, tickets := s.tickets + 1 }
  | offer {s : TokenRun} {crew : Crew Ticket} (t : TokenId) {k : Token Ticket} {start : Bool} :
      s.crew.tokens[t]? = some k → k.mode = .serial →
      s.crew.offer t k s.tickets = .ok (crew, start) → TokenStep s (s.offered t crew start)
  | decline {s : TokenRun} (t : TokenId) {k : Token Ticket} {f : Failure} :
      s.crew.tokens[t]? = some k → k.mode = .serial → s.crew.offer t k s.tickets = .error f →
      TokenStep s { s with
        tickets := s.tickets + 1, record := s.record ++ [⟨t, .declined, s.tickets⟩] }
  | handOver {s : TokenRun} {crew : Crew Ticket} (c : Caller) :
      c ∈ s.callers → c.refused = false → s.crew.handOver none c.token = .ok crew →
      TokenStep s { s with
        crew, callers := s.callers.erase c
        record := s.record ++ [⟨c.token, .accepted, c.ticket⟩] }
  | refuse {s : TokenRun} {f : Failure} (c : Caller) :
      c ∈ s.callers → c.refused = false → s.crew.handOver none c.token = .error f →
      TokenStep s { s with callers := { c with refused := true } :: s.callers.erase c }
  | withdraw {s : TokenRun} (c : Caller) : c ∈ s.callers → c.refused = true →
      TokenStep s (s.withdrawn c)
  | look {s : TokenRun} (w : WorkerId) : s.crew.pool.workers.get? w = some .looking →
      TokenStep s { s with crew.pool := s.crew.pool.look w }
  | wake {s : TokenRun} (w : WorkerId) (timedOut : Bool) :
      s.crew.pool.workers.get? w = some .waiting →
      TokenStep s { s with crew.pool := s.crew.pool.wake w timedOut }
  /-- A task of no serial token has ended, in one way or the other. -/
  | finish {s : TokenRun} (w : WorkerId) (task : Ticket) (how : Ending) :
      s.crew.pool.workers.get? w = some (.executing (.direct task)) →
      TokenStep s { s with crew := s.crew.finish w }
  /-- A drain takes the next task of its token, or ends. -/
  | proceed {s : TokenRun} (w : WorkerId) (t : TokenId) :
      s.crew.pool.workers.get? w = some (.executing (.drain t none)) →
      TokenStep s (s.drained w t)
  /-- A task of a serial token has ended, in one way or the other. -/
  | conclude {s : TokenRun} (w : WorkerId) (t : TokenId) (task : Ticket) (how : Ending) :
      s.crew.pool.workers.get? w = some (.executing (.drain t (some task))) →
      TokenStep s { s with crew := s.crew.set w (.drain t none) }
  | closeToken {s : TokenRun} (t : TokenId) :
      TokenStep s { s with crew := s.crew.closeToken t }
  | shutDown {s : TokenRun} : TokenStep s { s with crew := s.crew.shutDown }

namespace TokenRun

/-- The states of a crew whose pool is of a shape that can be built. -/
inductive Reachable (shape : PoolShape) : TokenRun → Prop
  | founded {refuses : ThreadRefusals} {built pool : ThreadPool (Job Ticket)} :
      ThreadPool.build refuses shape = .ok built →
      ThreadPool.Founding shape shape.minThreads pool → Reachable shape { crew.pool := pool }
  | step {s s' : TokenRun} : Reachable shape s → TokenStep s s' → Reachable shape s'

end TokenRun

/-! ## The view of a token -/

def Job.isDrainOf {α : Type} (t : TokenId) : Job α → Bool
  | .direct _ => false
  | .drain u _ => u = t

@[simp] theorem Job.isDrainOf_direct {α : Type} (t : TokenId) (task : α) :
    (Job.direct task).isDrainOf t = false := rfl

@[simp] theorem Job.isDrainOf_drain {α : Type} (t u : TokenId) (current : Option α) :
    (Job.drain u current).isDrainOf t = decide (u = t) := rfl

/-- What there is of a token, and who is about to do something with it. -/
structure TokenView where
  pending : List Ticket := []
  running : Bool := false
  closed : Bool := false
  /-- The submissions that have left their tasks and not returned. -/
  callers : List Ticket := []
  /-- How many drains of the token are queued or running. -/
  drains : Nat := 0
  poolClosed : Bool := false
  tickets : Nat := 0
  record : List (Mark × Ticket) := []

namespace TokenView

/-- The tickets that got a mark, in that order. -/
def marks (record : List (Mark × Ticket)) (m : Mark) : List Ticket :=
  (record.filter (·.1 = m)).map (·.2)

@[simp] theorem marks_append (l l' : List (Mark × Ticket)) (m : Mark) :
    marks (l ++ l') m = marks l m ++ marks l' m := by
  simp [marks]

@[simp] theorem marks_nil (m : Mark) : marks [] m = [] := rfl

@[simp] theorem marks_cons (n m : Mark) (k : Ticket) (l : List (Mark × Ticket)) :
    marks ((n, k) :: l) m = (if n = m then [k] else []) ++ marks l m := by
  by_cases h : n = m <;> simp [marks, h]

theorem marks_map (n m : Mark) (ks : List Ticket) :
    marks (ks.map (n, ·)) m = if n = m then ks else [] := by
  by_cases h : n = m <;> simp [marks, List.filter_map, Function.comp_def, h]

/-- What can happen to a token. -/
inductive Move : TokenView → TokenView → Prop
  | other {v : TokenView} {tickets : Nat} {callers : List Ticket} : v.tickets ≤ tickets →
      callers.Perm v.callers → Move v { v with tickets, callers }
  | offerFirst {v : TokenView} : v.running = false →
      Move v { v with
        pending := v.pending ++ [v.tickets], running := true, tickets := v.tickets + 1
        callers := v.callers ++ [v.tickets], record := v.record ++ [(.pushed, v.tickets)] }
  | offerNext {v : TokenView} : v.running = true →
      Move v { v with
        pending := v.pending ++ [v.tickets], tickets := v.tickets + 1
        record := v.record ++ [(.pushed, v.tickets), (.accepted, v.tickets)] }
  | decline {v : TokenView} :
      Move v { v with
        tickets := v.tickets + 1, record := v.record ++ [(.declined, v.tickets)] }
  | handOver {v : TokenView} {k : Ticket} {callers : List Ticket} :
      v.callers.Perm (k :: callers) →
      Move v { v with callers, drains := v.drains + 1, record := v.record ++ [(.accepted, k)] }
  | withdraw {v : TokenView} {k : Ticket} {callers : List Ticket} :
      v.callers.Perm (k :: callers) →
      Move v { v with
        pending := v.pending.dropLast, running := false, callers
        record := v.record ++ (v.pending.getLast?.toList.map (.takenBack, ·)
          ++ [(.withdrawn, k)]) }
  | start {v : TokenView} {k : Ticket} {rest : List Ticket} : 0 < v.drains →
      v.pending = k :: rest →
      Move v { v with pending := rest, record := v.record ++ [(.started, k)] }
  | finish {v : TokenView} {drains : Nat} : v.drains = drains + 1 → v.pending = [] →
      Move v { v with running := false, drains }
  | close {v : TokenView} : Move v { v with closed := true, pending := [] }
  | shutDown {v : TokenView} {drains : Nat} : drains ≤ v.drains →
      Move v { v with poolClosed := true, drains }

end TokenView

namespace TokenRun

open TokenView ThreadPool

def view (s : TokenRun) (t : TokenId) : TokenView where
  pending := (s.crew.token t).pending
  running := (s.crew.token t).running
  closed := (s.crew.token t).closed
  callers := (s.callers.filter (·.token = t)).map (·.ticket)
  drains := s.crew.pool.jobs.countP (Job.isDrainOf t)
  poolClosed := s.crew.pool.closed
  tickets := s.tickets
  record := (s.record.filter (·.token = t)).map fun r => (r.mark, r.ticket)

variable {s s' : TokenRun} {u : TokenId}

/-- Nothing happens to the token. -/
theorem move_other (htok : s'.crew.token u = s.crew.token u)
    (hcallers : (s'.view u).callers.Perm (s.view u).callers)
    (hdrains : (s'.view u).drains = (s.view u).drains)
    (hclosed : s'.crew.pool.closed = s.crew.pool.closed) (htickets : s.tickets ≤ s'.tickets)
    (hrecord : (s'.view u).record = (s.view u).record) : Move (s.view u) (s'.view u) := by
  have hview : s'.view u = { s.view u with
      tickets := s'.tickets, callers := (s'.view u).callers } := by
    rw [TokenView.mk.injEq]
    exact ⟨by simp [view, htok], by simp [view, htok], by simp [view, htok], rfl, hdrains,
      hclosed, rfl, hrecord⟩
  exact hview ▸ .other htickets hcallers

section Callers

variable {callers : List Caller} {c : Caller} {t : TokenId}

theorem perm_callers_erase (hc : c ∈ callers) :
    ((callers.filter (·.token = c.token)).map (·.ticket)).Perm
      (c.ticket :: ((callers.erase c).filter (·.token = c.token)).map (·.ticket)) := by
  have hperm := ((List.perm_cons_erase hc).filter (·.token = c.token)).map (·.ticket)
  simpa using hperm

theorem perm_callers_of_ne (hc : c ∈ callers) (ht : t ≠ c.token) :
    (((callers.erase c).filter (·.token = t)).map (·.ticket)).Perm
      ((callers.filter (·.token = t)).map (·.ticket)) := by
  have hperm := ((List.perm_cons_erase hc).filter (·.token = t)).map (·.ticket)
  simpa [Ne.symm ht] using hperm.symm

end Callers

section Moves

variable {t : TokenId} {k : Token Ticket} {crew : Crew Ticket} {c : Caller} {w : WorkerId}

theorem move_newToken (s : TokenRun) (mode : TokenMode) (u : TokenId) :
    Move (s.view u) (view { s with crew := (s.crew.newToken mode).1 } u) := by
  have htok : ((s.crew.newToken mode).1.token u).pending = (s.crew.token u).pending
      ∧ ((s.crew.newToken mode).1.token u).running = (s.crew.token u).running
      ∧ ((s.crew.newToken mode).1.token u).closed = (s.crew.token u).closed := by
    simp only [Crew.newToken, Crew.token]
    rcases Nat.lt_trichotomy u s.crew.tokens.length with hlt | rfl | hgt
    · simp [List.getElem?_append_left hlt]
    · simp
    · have hnone : s.crew.tokens[u]? = none := List.getElem?_eq_none (Nat.le_of_lt hgt)
      have hnone' : (s.crew.tokens ++ [{ mode := mode }])[u]? = none := by
        refine List.getElem?_eq_none ?_
        rw [List.length_append, List.length_singleton]
        exact hgt
      rw [hnone, hnone']
      exact ⟨rfl, rfl, rfl⟩
  have hview : view { s with crew := (s.crew.newToken mode).1 } u = s.view u := by
    rw [view, view, TokenView.mk.injEq]
    exact ⟨htok.1, htok.2.1, htok.2.2, rfl, rfl, rfl, rfl, rfl⟩
  exact hview ▸ .other (v := s.view u) (Nat.le_refl _) (.refl _)

theorem move_submit (hc : Counted 0 s.crew.pool) (h : s.crew.submit none s.tickets = .ok crew)
    (u : TokenId) : Move (s.view u) (view { s with crew, tickets := s.tickets + 1 } u) := by
  obtain ⟨pool, hp, rfl⟩ := Crew.enqueue_cases h
  refine move_other rfl (.refl _) ?_ ?_ (Nat.le_succ _) rfl
  · exact ((perm_jobs_push hc hp).countP_eq _).trans (by simp [view, Job.isDrainOf])
  · exact (closed_push hp).2.trans (closed_push hp).1.symm

theorem move_offer {start : Bool} (hk : s.crew.tokens[t]? = some k)
    (h : s.crew.offer t k s.tickets = .ok (crew, start)) (u : TokenId) :
    Move (s.view u) ((s.offered t crew start).view u) := by
  obtain ⟨-, -, hstart, rfl⟩ := Crew.offer_cases h
  by_cases hu : u = t
  · subst hu
    have hrunning : (s.view u).running = k.running := congrArg Token.running (Crew.token_eq hk)
    cases hr : k.running with
    | false =>
      have hmove := Move.offerFirst (hrunning.trans hr)
      simpa [view, offered, hstart, hr, Crew.token_onToken hk, Crew.token_eq hk] using hmove
    | true =>
      have hmove := Move.offerNext (hrunning.trans hr)
      simpa [view, offered, hstart, hr, Crew.token_onToken hk, Crew.token_eq hk] using hmove
  · refine move_other (Crew.token_onToken_of_ne _ hu _) ?_ rfl rfl (Nat.le_succ _) ?_
    · cases start <;> simp [view, offered, Ne.symm hu]
    · cases start <;> simp [view, offered, Ne.symm hu]

theorem move_decline (s : TokenRun) (t u : TokenId) :
    Move (s.view u) (view { s with
      tickets := s.tickets + 1, record := s.record ++ [⟨t, .declined, s.tickets⟩] } u) := by
  by_cases hu : u = t
  · subst hu
    have hmove := Move.decline (v := s.view u)
    simpa [view] using hmove
  · exact move_other rfl (.refl _) rfl rfl (Nat.le_succ _) (by simp [view, Ne.symm hu])

theorem move_handOver (hc : Counted 0 s.crew.pool) (hmem : c ∈ s.callers)
    (h : s.crew.handOver none c.token = .ok crew) (u : TokenId) :
    Move (s.view u) (view { s with
      crew, callers := s.callers.erase c
      record := s.record ++ [⟨c.token, .accepted, c.ticket⟩] } u) := by
  obtain ⟨pool, hp, rfl⟩ := Crew.enqueue_cases h
  have hdrains := (perm_jobs_push hc hp).countP_eq (Job.isDrainOf u)
  have hclosed : pool.closed = s.crew.pool.closed :=
    (closed_push hp).2.trans (closed_push hp).1.symm
  by_cases hu : u = c.token
  · subst hu
    have hmove := Move.handOver (v := s.view c.token) (perm_callers_erase hmem)
    simpa [view, hdrains, hclosed, Job.isDrainOf, Crew.token] using hmove
  · refine move_other rfl (perm_callers_of_ne hmem hu) ?_ hclosed (Nat.le_refl _) ?_
    · exact hdrains.trans (by simp [view, Job.isDrainOf, Ne.symm hu])
    · simp [view, Ne.symm hu]

theorem move_refuse (hmem : c ∈ s.callers) (u : TokenId) :
    Move (s.view u)
      (view { s with callers := { c with refused := true } :: s.callers.erase c } u) := by
  refine move_other rfl ?_ rfl rfl (Nat.le_refl _) rfl
  by_cases hu : u = c.token
  · subst hu
    simpa [view] using (perm_callers_erase hmem).symm
  · simpa [view, Ne.symm hu] using perm_callers_of_ne hmem hu

theorem move_withdraw (hmem : c ∈ s.callers) (u : TokenId) :
    Move (s.view u) ((s.withdrawn c).view u) := by
  by_cases hu : u = c.token
  · subst hu
    have hmove := Move.withdraw (v := s.view c.token) (perm_callers_erase hmem)
    simpa [view, withdrawn, Crew.withdraw, Crew.token_onToken_of_idle, List.filter_map,
      Function.comp_def] using hmove
  · exact move_other (Crew.token_onToken_of_ne _ hu _) (perm_callers_of_ne hmem hu) rfl rfl
      (Nat.le_refl _) (by simp [view, withdrawn, Ne.symm hu])

theorem move_pool {pool : ThreadPool (Job Ticket)} (hjobs : pool.jobs.Perm s.crew.pool.jobs)
    (hclosed : pool.closed = s.crew.pool.closed) (u : TokenId) :
    Move (s.view u) (view { s with crew.pool := pool } u) :=
  move_other rfl (.refl _) (hjobs.countP_eq _) hclosed (Nat.le_refl _) rfl

theorem drains_set {job next : Job Ticket} {pool : ThreadPool (Job Ticket)}
    (hw : pool.workers.get? w = some (.executing job))
    (hsame : next.isDrainOf u = job.isDrainOf u) :
    (pool.set w (.executing next)).jobs.countP (Job.isDrainOf u)
      = pool.jobs.countP (Job.isDrainOf u) := by
  rw [(perm_jobs_of_executing hw).countP_eq, (perm_jobs_set pool w next).countP_eq,
    List.countP_cons, List.countP_cons, hsame]

theorem drains_finish {job : Job Ticket} {pool : ThreadPool (Job Ticket)}
    (hw : pool.workers.get? w = some (.executing job)) (u : TokenId) :
    pool.jobs.countP (Job.isDrainOf u) = (pool.finish w).jobs.countP (Job.isDrainOf u)
      + if job.isDrainOf u then 1 else 0 := by
  rw [(perm_jobs_of_executing hw).countP_eq, (perm_jobs_finish pool w).countP_eq,
    List.countP_cons]

theorem move_finish {task : Ticket}
    (hw : s.crew.pool.workers.get? w = some (.executing (.direct task))) (u : TokenId) :
    Move (s.view u) (view { s with crew := s.crew.finish w } u) :=
  move_other rfl (.refl _) (drains_finish hw u).symm rfl (Nat.le_refl _) rfl

theorem move_conclude {task : Ticket}
    (hw : s.crew.pool.workers.get? w = some (.executing (.drain t (some task)))) (u : TokenId) :
    Move (s.view u) (view { s with crew := s.crew.set w (.drain t none) } u) :=
  move_other rfl (.refl _) (drains_set hw rfl) rfl (Nat.le_refl _) rfl

theorem move_drained (hw : s.crew.pool.workers.get? w = some (.executing (.drain t none)))
    (u : TokenId) : Move (s.view u) ((s.drained w t).view u) := by
  have hfinish := drains_finish hw u
  rcases s.crew.proceed_cases w t with ⟨k, task, rest, hk, hp, heq⟩ | ⟨hp, heq⟩
  · have hset : (s.crew.pool.set w (.executing (.drain t (some task)))).jobs.countP
        (Job.isDrainOf u) = s.crew.pool.jobs.countP (Job.isDrainOf u) := drains_set hw rfl
    by_cases hu : u = t
    · subst hu
      have hpos : 0 < (s.view u).drains := by
        simp only [Job.isDrainOf_drain, decide_true, if_true] at hfinish
        exact Nat.lt_of_lt_of_eq (Nat.succ_pos _) hfinish.symm
      have hmove := Move.start hpos ((congrArg Token.pending (Crew.token_eq hk)).trans hp)
      simpa [view, drained, heq, hset, hp, Crew.token_onToken hk, Crew.token_eq hk] using hmove
    · refine move_other ?_ (.refl _) ?_ ?_ (Nat.le_refl _) ?_
      · simp [drained, heq, Crew.token_onToken_of_ne _ hu]
      · simp [view, drained, heq, hset]
      · simp [drained, heq]
      · simp [view, drained, List.filter_map, Function.comp_def, Ne.symm hu]
  · by_cases hu : u = t
    · subst hu
      simp only [Job.isDrainOf_drain, decide_true, if_true] at hfinish
      have hmove := Move.finish (v := s.view u) hfinish hp
      simpa [view, drained, heq, hp, Crew.token_onToken_of_idle] using hmove
    · refine move_other ?_ (.refl _) ?_ ?_ (Nat.le_refl _) ?_
      · simp [drained, heq, Crew.token_onToken_of_ne _ hu]
      · simpa [view, drained, heq, Ne.symm hu] using hfinish.symm
      · simp [drained, heq]
      · simp [view, drained, List.filter_map, Function.comp_def, Ne.symm hu]

theorem move_closeToken (s : TokenRun) (t u : TokenId) :
    Move (s.view u) (view { s with crew := s.crew.closeToken t } u) := by
  by_cases hu : u = t
  · subst hu
    cases hk : s.crew.tokens[u]? with
    | none =>
      rw [Crew.closeToken, Crew.onToken_of_none hk]
      exact .other (v := s.view u) (Nat.le_refl _) (.refl _)
    | some k =>
      have hmove := Move.close (v := s.view u)
      simpa [view, Crew.closeToken, Crew.token_onToken hk, Crew.token_eq hk] using hmove
  · exact move_other (Crew.token_onToken_of_ne _ hu _) (.refl _) rfl rfl (Nat.le_refl _) rfl

theorem move_shutDown (s : TokenRun) (u : TokenId) :
    Move (s.view u) (view { s with crew := s.crew.shutDown } u) :=
  .shutDown (jobs_shutDown s.crew.pool).countP_le

/-- Whatever anybody does is a move for each token. -/
theorem move_of_step (hc : Counted 0 s.crew.pool) (h : TokenStep s s') (u : TokenId) :
    Move (s.view u) (s'.view u) := by
  cases h with
  | newToken mode => exact move_newToken s mode u
  | submit h => exact move_submit hc h u
  | offer t hk _ h => exact move_offer hk h u
  | decline t => exact move_decline s t u
  | handOver c hmem _ h => exact move_handOver hc hmem h u
  | refuse c hmem => exact move_refuse hmem u
  | withdraw c hmem => exact move_withdraw hmem u
  | look w hw => exact move_pool (perm_jobs_look hw rfl) (closed_look _ _) u
  | wake w timedOut hw => exact move_pool (perm_jobs_wake hw timedOut) (closed_wake _ _ _) u
  | finish w task _ hw => exact move_finish hw u
  | proceed w t hw => exact move_drained hw u
  | conclude w t task _ hw => exact move_conclude hw u
  | closeToken t => exact move_closeToken s t u
  | shutDown => exact move_shutDown s u

theorem counted_of_step (hc : Counted 0 s.crew.pool) (h : TokenStep s s') :
    Counted 0 s'.crew.pool := by
  have hpush : ∀ {job : Job Ticket} {crew : Crew Ticket}, s.crew.enqueue none job = .ok crew →
      Counted 0 crew.pool := by
    intro job crew h
    obtain ⟨pool, hp, rfl⟩ := Crew.enqueue_cases h
    exact step_counted hc (.submit job hp)
  cases h with
  | newToken mode => exact hc
  | submit h => exact hpush h
  | offer t hk _ h =>
    obtain ⟨-, -, -, rfl⟩ := Crew.offer_cases h
    exact hc
  | decline t => exact hc
  | handOver c _ _ h => exact hpush h
  | refuse c => exact hc
  | withdraw c => exact hc
  | look w hw => exact hc.look hw rfl
  | wake w timedOut hw => exact hc.wake hw timedOut
  | finish w task _ hw => exact step_counted hc (.finish w _ hw)
  | proceed w t hw =>
    rcases s.crew.proceed_cases w t with ⟨k, task, rest, -, -, heq⟩ | ⟨-, heq⟩
    · rw [drained, heq]
      exact hc.set hw rfl (.executing (.drain t (some task))) s.crew.pool.queue
    · rw [drained, heq]
      exact step_counted hc (.finish w _ hw)
  | conclude w t task _ hw => exact hc.set hw rfl (.executing (.drain t none)) s.crew.pool.queue
  | closeToken t => exact hc
  | shutDown => exact step_counted hc .shutDown

end Moves

section Reach

variable {shape : PoolShape}

theorem Reachable.counted (h : Reachable shape s) : Counted 0 s.crew.pool := by
  induction h with
  | founded _ hf => exact (hf.state (Nat.le_refl _)).1
  | step _ hstep ih => exact counted_of_step ih hstep

/-- What holds of a token that nothing has happened to and is kept by its moves holds in every
reachable state. -/
theorem Reachable.view_of_moves {P : TokenView → Prop} (h : Reachable shape s) (u : TokenId)
    (hnew : P {}) (hmove : ∀ {v v'}, P v → Move v v' → P v') : P (s.view u) := by
  induction h with
  | @founded _ _ pool _ hf =>
    have hclosed := (hf.state (Nat.le_refl _)).2.2.2.2
    have hview : view { crew.pool := pool } u = {} := by
      simp [view, Crew.token, hf.jobs_eq (Nat.le_refl _), hclosed]
    exact hview ▸ hnew
  | step hr hstep ih => exact hmove ih (move_of_step hr.counted hstep u)

end Reach

/-! ## What the crew does in one go -/

section InOneGo

open Relation

variable {shape : PoolShape} {t : TokenId} {k : Token Ticket} {crew : Crew Ticket}

/-- To submit with nobody stepping in is a run of steps. A failure leaves everything as it was. -/
theorem steps_of_submitOn (hk : s.crew.tokens[t]? = some k) (hmode : k.mode = .serial) :
    ∃ s', ReflTransGen TokenStep s s'
      ∧ s'.crew = (s.crew.submitOn none t s.tickets).toOption.getD s.crew := by
  simp only [Crew.submitOn, hk, hmode, bind, Except.bind]
  cases ho : s.crew.offer t k s.tickets with
  | error f => exact ⟨_, .single (.decline t hk hmode ho), rfl⟩
  | ok p =>
    obtain ⟨offered, start⟩ := p
    have hoffer : TokenStep s (s.offered t offered start) := .offer t hk hmode ho
    cases start with
    | false => exact ⟨_, .single hoffer, rfl⟩
    | true =>
      have hmem : (⟨t, s.tickets, false⟩ : Caller) ∈ (s.offered t offered true).callers :=
        List.mem_append_right _ (List.mem_singleton_self _)
      simp only [if_true]
      cases hh : offered.handOver none t with
      | ok handed => exact ⟨_, .tail (.single hoffer) (.handOver _ hmem rfl hh), rfl⟩
      | error f =>
        have hrefuse := TokenStep.refuse _ hmem rfl hh
        exact ⟨_, .tail (.tail (.single hoffer) hrefuse) (.withdraw _ List.mem_cons_self rfl),
          Crew.withdraw_of_offer hk ho⟩

/-- A worker that goes on by itself takes a step. -/
theorem step_of_advance {fate : Ticket → Option Ending} {w : WorkerId} {stage : Worker (Job Ticket)}
    {ended : List (Ended Ticket)} {log : Log} (hw : s.crew.pool.workers.get? w = some stage)
    (h : s.crew.advance fate w stage = some (crew, ended, log)) :
    ∃ s', TokenStep s s' ∧ s'.crew = crew := by
  unfold Crew.advance at h
  split at h
  · obtain ⟨rfl, -⟩ := Prod.mk.inj (Option.some.inj h)
    exact ⟨_, .look w hw, rfl⟩
  · split_ifs at h
    obtain ⟨rfl, -⟩ := Prod.mk.inj (Option.some.inj h)
    exact ⟨_, .wake w false hw, rfl⟩
  · obtain ⟨e, -, he⟩ := Option.map_eq_some_iff.1 h
    obtain ⟨rfl, -⟩ := Prod.mk.inj he
    exact ⟨_, .finish w _ e hw, rfl⟩
  · obtain ⟨rfl, -⟩ := Prod.mk.inj (Option.some.inj h)
    exact ⟨_, .proceed w _ hw, rfl⟩
  · obtain ⟨e, -, he⟩ := Option.map_eq_some_iff.1 h
    obtain ⟨rfl, -⟩ := Prod.mk.inj he
    exact ⟨_, .conclude w _ _ e hw, rfl⟩

end InOneGo

end TokenRun

end QueryHost
