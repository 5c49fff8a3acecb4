import QueryHost.Proofs.ScarceCallers
import QueryHost.Threads.Download

/-!
# Works with the buffer of a download cache

A work begins when its worker has taken the lock of the buffer, which it keeps until the work has
ended, and a worker that finds no buffer has nothing to do (`DownloadStep`). Everything else that
happens on the pool may come between (`Kept.step_of_scarce`). To shut a cache down is to close its
token and then, under the lock, to drop the buffer.

The lock alone makes the works take turns with the buffer (`Kept`). That they do so in the order of
the token needs its drain to be the only one: then the works that were begun are the tasks that were
started, but for one that its worker may be about to begin (`InTurn`). And that the works which do
so are the accepted ones needs the submissions that fail to take back their own
(`works_take_turns`), which they need not (`accepted_finds_withdrawn`).
-/

namespace QueryHost

open Relation

/-- A download cache on a crew at work. -/
structure DownloadRun where
  run : ScarceRun
  token : TokenId
  bufferSize : Nat
  buffer : Option Bytes
  /-- The worker that holds the lock of the buffer and does a piece of work. -/
  atWork : Option WorkerId := none
  /-- The works that were begun, in order, each with the bytes that it has found. -/
  begun : List (Ticket × Bytes) := []
  /-- What those that have ended have left, in order. -/
  left : List Bytes := []

namespace DownloadRun

def crew (s : DownloadRun) : Crew Ticket := s.run.run.crew

def cache (s : DownloadRun) : DownloadCache Ticket := ⟨s.crew, s.token, s.bufferSize, s.buffer⟩

/-- A cache that was just made. -/
def founded (r : ScarceRun) (bufferSize : Nat) : DownloadRun :=
  let d := DownloadCache.new r.run.crew bufferSize
  { run := { r with run.crew := d.crew }, token := d.token, bufferSize, buffer := d.buffer }

/-- A worker executes a task of the token. -/
def Works (s : DownloadRun) (w : WorkerId) (task : Ticket) : Prop :=
  s.run.run.Works s.token w (some task)

/-- The tasks of the token that got a mark, in that order. -/
def marked (s : DownloadRun) (m : Mark) : List Ticket := s.run.run.marked s.token m

def works (s : DownloadRun) : List Ticket := s.begun.map (·.1)

/-- What the works have found. -/
def found (s : DownloadRun) : List Bytes := s.begun.map (·.2)

/-- A worker has ended its task and goes on with the drain. -/
def concluded (s : DownloadRun) (w : WorkerId) : ScarceRun :=
  { s.run with run.crew := s.crew.set w (.drain s.token none) }

end DownloadRun

inductive DownloadStep : DownloadRun → DownloadRun → Prop
  /-- Anybody does anything else; a task of the token does not end by it. -/
  | other {s : DownloadRun} {run : ScarceRun} : ScarceStep s.run run →
      (∀ w task, s.Works w task → run.run.Works s.token w (some task)) →
      DownloadStep s { s with run }
  | enter {s : DownloadRun} (w : WorkerId) (task : Ticket) {bytes : Bytes} :
      s.Works w task → s.atWork = none → s.buffer = some bytes →
      DownloadStep s { s with atWork := some w, begun := s.begun ++ [(task, bytes)] }
  /-- A work has ended, in one way or the other. It cannot make the buffer longer or shorter. -/
  | leave {s : DownloadRun} (w : WorkerId) (task : Ticket) (effect : Bytes → Bytes) (how : Ending) :
      s.Works w task → s.atWork = some w →
      (∀ bytes, (effect bytes).length = bytes.length) →
      DownloadStep s { s with
        run := s.concluded w, buffer := (s.cache.perform effect).buffer, atWork := none
        left := s.left ++ (s.cache.perform effect).buffer.toList }
  /-- There is no buffer any more. -/
  | miss {s : DownloadRun} (w : WorkerId) (task : Ticket) :
      s.Works w task → s.atWork = none → s.buffer = none →
      DownloadStep s { s with run := s.concluded w }
  /-- The end of a shutdown, which has closed the token before. -/
  | drop {s : DownloadRun} {k : Token Ticket} : s.crew.tokens[s.token]? = some k →
      k.closed = true → s.atWork = none → DownloadStep s { s with buffer := none }

namespace DownloadRun

open TokenView ThreadPool

variable {shape : PoolShape} {s s' : DownloadRun} {r : ScarceRun} {size : Nat}

/-! ## The buffer -/

/-- How a cache stands with its buffer. -/
structure Kept (shape : PoolShape) (size : Nat) (s : DownloadRun) : Prop where
  reachable : ScarceRun.Reachable shape s.run
  token : ∃ k, s.crew.tokens[s.token]? = some k ∧ k.mode = .serial
    ∧ (s.buffer = none → k.closed = true)
  busy : ∀ w, s.atWork = some w → s.buffer ≠ none ∧ ∃ task, s.Works w task
  length_begun : s.begun.length = s.left.length + if s.atWork = none then 0 else 1
  found_prefix : s.found <+: List.replicate size 0 :: s.left
  buffer_eq : ∀ bytes, s.buffer = some bytes → s.atWork = none →
    s.found ++ [bytes] = List.replicate size 0 :: s.left
  left_length : ∀ bytes ∈ s.left, bytes.length = size
  buffer_length : ∀ bytes, s.buffer = some bytes → bytes.length = size

theorem step_founded (hr : ScarceRun.Reachable shape r) (size : Nat) :
    ScarceStep r (founded r size).run :=
  .other (.newToken .serial) hr.sane.looking

theorem kept_founded (hr : ScarceRun.Reachable shape r) (size : Nat) :
    Kept shape size (founded r size) where
  reachable := hr.step (step_founded hr size)
  token := ⟨{ mode := .serial }, List.getElem?_concat_length, rfl, nofun⟩
  busy := nofun
  length_begun := rfl
  found_prefix := List.nil_prefix
  buffer_eq := fun _ hbytes _ => congrArg ([·]) (Option.some.inj hbytes).symm
  left_length := nofun
  buffer_length := fun _ hbytes => Option.some.inj hbytes ▸ List.length_replicate

/-- A worker that has ended its task has taken a step. -/
theorem Kept.step_concluded (h : Kept shape size s) {w : WorkerId} {task : Ticket}
    (hw : s.Works w task) (how : Ending) : ScarceStep s.run (s.concluded w) := by
  refine .other (.conclude w s.token task how hw) fun a ha => ?_
  have hlooking := h.reachable.sane.looking a ha
  refine (get?_set_of_ne _ ?_ _).trans hlooking
  rintro rfl
  exact nomatch hlooking.symm.trans hw

/-- Whatever anybody does on the pool is a step, but for the end of a work: that one depends on the
buffer (`DownloadStep.leave`, `DownloadStep.miss`). -/
theorem Kept.step_of_scarce (h : Kept shape size s) {run : ScarceRun}
    (hstep : ScarceStep s.run run) :
    DownloadStep s { s with run } ∨ ∃ w task, s.Works w task ∧ run = s.concluded w := by
  by_cases hkeep : ∀ w task, s.Works w task → run.run.Works s.token w (some task)
  · exact .inl (.other hstep hkeep)
  · push Not at hkeep
    obtain ⟨w, task, hw, hended⟩ := hkeep
    exact .inr ⟨w, task, hw, (h.reachable.sane.works_of_step hstep hw).resolve_left hended⟩

/-- Whoever is at work has found what the one before has left. -/
theorem Kept.found_eq (h : Kept shape size s) {w : WorkerId} (hbusy : s.atWork = some w) :
    s.found = List.replicate size 0 :: s.left := by
  refine h.found_prefix.eq_of_length ?_
  have hlength := h.length_begun
  rw [hbusy, if_neg (Option.some_ne_none w)] at hlength
  rw [found, List.length_map, hlength, List.length_cons]

/-- Every step leaves the cache as it should stand with its buffer (`Kept`). -/
theorem Kept.step (h : Kept shape size s) (hstep : DownloadStep s s') : Kept shape size s' := by
  cases hstep with
  | other hstep hkeep =>
    obtain ⟨k, hk, hmode, hclosed⟩ := h.token
    obtain ⟨k', hk', hmode', hclosed'⟩ := ScarceRun.token_of_step hstep hk
    exact { h with
      reachable := h.reachable.step hstep
      token := ⟨k', hk', hmode'.trans hmode, fun hb => hclosed' (hclosed hb)⟩
      busy := fun w hw => (h.busy w hw).imp_right (Exists.imp fun task => hkeep w task) }
  | @enter w task bytes hw hidle hbuffer =>
    have hfound : (s.begun ++ [(task, bytes)]).map (·.2) = List.replicate size 0 :: s.left :=
      List.map_append.trans (h.buffer_eq bytes hbuffer hidle)
    have hlength := h.length_begun
    rw [if_pos hidle] at hlength
    exact { h with
      busy := fun v hv => ⟨hbuffer ▸ Option.some_ne_none bytes, task, Option.some.inj hv ▸ hw⟩
      length_begun := by simp [hlength]
      found_prefix := hfound ▸ List.prefix_rfl
      buffer_eq := fun _ _ ha => absurd ha (Option.some_ne_none w) }
  | leave w task effect how hw hbusy heffect =>
    obtain ⟨bytes, hbuffer⟩ := Option.ne_none_iff_exists'.1 (h.busy w hbusy).1
    have hfound := h.found_eq hbusy
    have hlength := h.length_begun
    rw [hbusy, if_neg (Option.some_ne_none w)] at hlength
    have heq : (s.cache.perform effect).buffer = some (effect bytes) := by
      rw [DownloadCache.perform, cache, hbuffer, Option.map_some]
    have hsize : (effect bytes).length = size :=
      (heffect bytes).trans (h.buffer_length bytes hbuffer)
    rw [heq]
    exact { h with
      reachable := h.reachable.step (h.step_concluded hw how)
      token := h.token.imp fun k => And.imp_right (And.imp_right fun _ => nofun)
      busy := nofun
      length_begun := by simp [hlength]
      found_prefix := by
        rw [← List.cons_append]
        exact h.found_prefix.trans (List.prefix_append _ _)
      buffer_eq := fun b hb _ => by
        obtain rfl := Option.some.inj hb
        exact congrArg (· ++ [effect bytes]) hfound
      left_length := fun b hb => by
        rcases List.mem_append.1 hb with hb | hb
        · exact h.left_length b hb
        · exact List.mem_singleton.1 hb ▸ hsize
      buffer_length := fun b hb => Option.some.inj hb ▸ hsize }
  | miss w task hw hidle hbuffer =>
    exact { h with
      reachable := h.reachable.step (h.step_concluded hw .returned)
      busy := fun v hv => absurd (hidle.symm.trans hv) (Option.some_ne_none v).symm }
  | @drop k hk hclosed hidle =>
    obtain ⟨k', hk', hmode, -⟩ := h.token
    obtain rfl := Option.some.inj (hk.symm.trans hk')
    exact { h with
      token := ⟨k, hk, hmode, fun _ => hclosed⟩
      busy := fun v hv => absurd (hidle.symm.trans hv) (Option.some_ne_none v).symm
      buffer_eq := nofun
      buffer_length := nofun }

theorem Kept.run (h : Kept shape size s) (hrun : ReflTransGen DownloadStep s s') :
    Kept shape size s' := by
  induction hrun with
  | refl => exact h
  | tail _ hstep ih => exact ih.step hstep

/-! ## The order of the works -/

/-- How the works stand with the only drain of the token. -/
structure InTurn (s : DownloadRun) : Prop where
  works_prefix : s.works <+: s.marked .started
  /-- A worker that executes a task is about to begin it. -/
  idle : s.atWork = none → s.buffer ≠ none →
    (∀ w task, s.Works w task → s.marked .started = s.works ++ [task])
    ∧ ((∀ w task, ¬ s.Works w task) → s.marked .started = s.works)
  busy : ∀ w, s.atWork = some w → s.marked .started = s.works

theorem inTurn_founded (hr : ScarceRun.Reachable shape r) (size : Nat) :
    InTurn (founded r size) := by
  obtain ⟨hmarked, hworks⟩ := hr.sane.known.unused (Nat.le_refl r.run.crew.tokens.length)
  exact ⟨List.nil_prefix,
    fun _ _ => ⟨fun w task hw => absurd hw (hworks w _), fun _ => hmarked .started⟩, nofun⟩

theorem Kept.works_unique (h : Kept shape size s) (hstrays : s.run.strays s.token = 0)
    {w v : WorkerId} {current current' : Option Ticket} (hw : s.run.run.Works s.token w current)
    (hv : s.run.run.Works s.token v current') : w = v ∧ current = current' :=
  TokenRun.works_unique (hstrays ▸ h.reachable.owned s.token) hw hv

/-- Who has ended its task was the only one that had any. -/
theorem Kept.none_of_concluded (h : Kept shape size s) (hstrays : s.run.strays s.token = 0)
    {w : WorkerId} {task : Ticket} (hw : s.Works w task) (v : WorkerId) (k : Ticket) :
    ¬ (s.concluded w).run.Works s.token v (some k) := by
  intro hv
  simp only [TokenRun.Works, concluded, Crew.set, ThreadPool.set, Assoc.get?_put] at hv
  split_ifs at hv with hvw
  · simp at hv
  · exact hvw (h.works_unique hstrays hv hw).1

/-- What others do in the pool leaves the works in turn, if the token has no stray by then. -/
theorem InTurn.other (h : InTurn s) (hk : Kept shape size s) {run : ScarceRun}
    (hstep : ScarceStep s.run run) (hstrays : run.strays s.token = 0)
    (hkeep : ∀ w task, s.Works w task → run.run.Works s.token w (some task)) :
    InTurn { s with run } := by
  have hk' : Kept shape size { s with run } := hk.step (.other hstep hkeep)
  rcases hk.reachable.sane.started_of_step hstep s.token with
    ⟨hsame, hback⟩ | ⟨w, task, hnone, hw, hnew⟩
  · have hworks : s.works <+: run.run.marked s.token .started := hsame ▸ h.works_prefix
    refine ⟨hworks, fun ha hb => ?_, fun v hv => hsame.trans (h.busy v hv)⟩
    obtain ⟨hnext, hrest⟩ := h.idle ha hb
    exact ⟨fun v k hv => hsame.trans (hnext v k (hback v k hv)),
      fun hno => hsame.trans (hrest fun v k hv => hno v k (hkeep v k hv))⟩
  · have hno : ∀ v k, ¬ s.Works v k := fun v k hv =>
      Option.some_ne_none k (hk.works_unique (ScarceRun.strays_of_step hstep hstrays) hv hnone).2
    have hworks : s.works <+: run.run.marked s.token .started :=
      hnew ▸ h.works_prefix.trans (List.prefix_append _ _)
    refine ⟨hworks,
      fun ha hb => ⟨fun v k hv => ?_, fun hno' => absurd hw (hno' w task)⟩, fun v hv => ?_⟩
    · obtain rfl := Option.some.inj (hk'.works_unique hstrays hv hw).2
      exact hnew.trans (congrArg (· ++ [k]) ((h.idle ha hb).2 hno))
    · obtain ⟨-, k, hw⟩ := hk.busy v hv
      exact absurd hw (hno v k)

theorem InTurn.step (h : InTurn s) (hk : Kept shape size s) (hstep : DownloadStep s s')
    (hstrays : s'.run.strays s'.token = 0) : InTurn s' := by
  cases hstep with
  | other hstep hkeep => exact h.other hk hstep hstrays hkeep
  | @enter w task bytes hw hidle hbuffer =>
    have hworks : (s.begun ++ [(task, bytes)]).map (·.1) = s.works ++ [task] := List.map_append
    have hstarted := ((h.idle hidle (hbuffer ▸ Option.some_ne_none bytes)).1 w task hw).trans
      hworks.symm
    exact ⟨hstarted ▸ List.prefix_rfl, fun ha => absurd ha (Option.some_ne_none w),
      fun _ _ => hstarted⟩
  | leave w task effect how hw hbusy =>
    have hno := hk.none_of_concluded hstrays hw
    exact ⟨h.works_prefix, fun _ _ => ⟨fun v k hv => absurd hv (hno v k), fun _ => h.busy w hbusy⟩,
      nofun⟩
  | miss w task hw hidle hbuffer =>
    exact ⟨h.works_prefix, fun _ hb => absurd hbuffer hb,
      fun v hv => absurd (hidle.symm.trans hv) (Option.some_ne_none v).symm⟩
  | drop _ _ hidle =>
    exact ⟨h.works_prefix, fun _ hb => absurd rfl hb,
      fun v hv => absurd (hidle.symm.trans hv) (Option.some_ne_none v).symm⟩

theorem strays_of_step (hstep : DownloadStep s s') (h : s'.run.strays s'.token = 0) :
    s.run.strays s.token = 0 := by
  cases hstep with
  | other hstep => exact ScarceRun.strays_of_step hstep h
  | enter | leave | miss | drop => exact h

theorem inTurn_of_run (hr : ScarceRun.Reachable shape r)
    (hrun : ReflTransGen DownloadStep (founded r size) s) (hstrays : s.run.strays s.token = 0) :
    InTurn s := by
  induction hrun with
  | refl => exact inTurn_founded hr size
  | tail hrun hstep ih =>
    exact (ih (strays_of_step hstep hstrays)).step ((kept_founded hr size).run hrun) hstep hstrays

/-- In turn, the works were begun in the order in which they were left with the token, each once. -/
theorem Kept.works_sublist (h : Kept shape size s) (hturn : InTurn s) :
    s.works.Sublist (s.marked .pushed) ∧ s.works.Nodup := by
  have hsub := hturn.works_prefix.sublist.trans (h.reachable.started_sublist s.token)
  exact ⟨hsub, (h.reachable.nodup_pushed s.token).sublist hsub⟩

theorem not_works_of_atRest (hrest : s.run.AtRest s.token) (w : WorkerId) (task : Ticket) :
    ¬ s.Works w task := fun hw =>
  List.filter_eq_nil_iff.1 hrest.1.1 _ (List.mem_append_right _ (mem_executing hw)) (by simp)

/-- At rest, the works that were begun are the accepted ones in their order, if no submission failed
for want of a worker and none took back an accepted work. -/
theorem Kept.works_eq (h : Kept shape size s) (hturn : InTurn s)
    (htoken : (s.crew.token s.token).closed = false) (hpool : s.crew.pool.closed = false)
    (hundone : s.run.undone = []) (hrest : s.run.AtRest s.token)
    (hspares : ∀ k ∈ s.marked .takenBack, k ∉ s.marked .accepted) :
    s.works = (s.marked .pushed).filter (· ∈ s.marked .accepted) := by
  obtain ⟨k, hk, -, hclosed⟩ := h.token
  have hb : s.buffer ≠ none := by
    intro hb
    rw [Crew.token_eq hk, hclosed hb] at htoken
    exact Bool.noConfusion htoken
  have hidle : s.atWork = none := by
    refine Option.eq_none_iff_forall_ne_some.2 fun w hw => ?_
    obtain ⟨-, task, hworks⟩ := h.busy w hw
    exact not_works_of_atRest hrest w task hworks
  have hstarted := (hturn.idle hidle hb).2 fun w task => not_works_of_atRest hrest w task
  exact hstarted.symm.trans (h.reachable.started_eq hundone ⟨htoken, hpool⟩ hrest hspares)

/-! ## After a shutdown -/

theorem offer_of_closed {c : Crew Ticket} {t : TokenId} {k : Token Ticket} (hc : k.closed = true)
    (task : Ticket) :
    c.offer t k task = .error (.unavailable (c.tokenName t ++ " is shut down")) := by
  rw [Crew.offer, if_pos hc]

theorem Kept.submit_of_dropped (h : Kept shape size s) (hb : s.buffer = none)
    (refusal : Option IoFault) (work : Ticket) : s.cache.submit refusal work
      = .error (.unavailable (s.crew.tokenName s.token ++ " is shut down")) := by
  obtain ⟨k, hk, hmode, hclosed⟩ := h.token
  simp only [DownloadCache.submit, cache, Crew.submitOn, hk, hmode, offer_of_closed (hclosed hb)]
  rfl

/-- Without the buffer no work begins any more. -/
theorem begun_of_dropped (hb : s.buffer = none) (ha : s.atWork = none)
    (hrun : ReflTransGen DownloadStep s s') :
    s'.buffer = none ∧ s'.atWork = none ∧ s'.begun = s.begun := by
  induction hrun with
  | refl => exact ⟨hb, ha, rfl⟩
  | tail _ hstep ih =>
    obtain ⟨hb, ha, hbegun⟩ := ih
    cases hstep with
    | other => exact ⟨hb, ha, hbegun⟩
    | enter w task _ _ hbuffer => exact absurd (hb.symm.trans hbuffer) (Option.some_ne_none _).symm
    | leave w task _ _ _ hbusy => exact absurd (ha.symm.trans hbusy) (Option.some_ne_none _).symm
    | miss => exact ⟨hb, ha, hbegun⟩
    | drop => exact ⟨rfl, ha, hbegun⟩

/-! ## What is done in one go -/

/-- What a caller does on the pool leaves the works alone. -/
theorem steps_of_caller {run : ScarceRun}
    (hrun : ReflTransGen ScarceRun.CallerStep s.run run) :
    ReflTransGen DownloadStep s { s with run } := by
  induction hrun with
  | refl => exact .refl
  | tail _ hstep ih => exact ih.tail (.other hstep.1 fun w task hw => hstep.2 w _ hw)

/-- To submit a work with nobody stepping in is a run of steps. If it fails, all but the number of
the next worker is as it was. -/
theorem Kept.steps_of_submit (h : Kept shape size s) (refusal : Option IoFault) :
    (∀ d, s.cache.submit refusal s.run.run.tickets = .ok d →
      ∃ s', ReflTransGen DownloadStep s s' ∧ s'.cache = d
        ∧ s.run.run.tickets ∈ s'.marked .accepted)
    ∧ ∀ f, s.cache.submit refusal s.run.run.tickets = .error f →
      ∃ s' n, ReflTransGen DownloadStep s s'
        ∧ s'.cache = { s.cache with crew.pool.nextWorker := n }
        ∧ (s.run.run.tickets ∈ s'.marked .declined ∨ s.run.run.tickets ∈ s'.marked .withdrawn) := by
  obtain ⟨k, hk, hmode, -⟩ := h.token
  obtain ⟨hok, herror⟩ := h.reachable.sane.steps_of_submitOn hk hmode refusal
  have hsubmit : s.cache.submit refusal s.run.run.tickets
      = (s.crew.submitOn refusal s.token s.run.run.tickets).map ({ s.cache with crew := · }) := rfl
  rw [hsubmit]
  refine ⟨fun d hd => ?_, fun f hf => ?_⟩
  · cases hcrew : s.crew.submitOn refusal s.token s.run.run.tickets with
    | error f =>
      rw [hcrew] at hd
      exact nomatch hd
    | ok crew =>
      rw [hcrew] at hd
      obtain rfl := Except.ok.inj hd
      obtain ⟨run, hrun, rfl, haccepted⟩ := hok crew hcrew
      exact ⟨{ s with run }, steps_of_caller hrun, rfl, haccepted⟩
  · cases hcrew : s.crew.submitOn refusal s.token s.run.run.tickets with
    | error f' =>
      obtain ⟨run, n, hrun, hsame, hfailed⟩ := herror f' hcrew
      exact ⟨{ s with run }, n, steps_of_caller hrun, congrArg ({ s.cache with crew := · }) hsame,
        hfailed⟩
    | ok crew =>
      rw [hcrew] at hf
      exact nomatch hf

/-- To close a cache while nobody holds the lock is a run of steps, and leaves it without buffer. -/
theorem Kept.steps_of_close (h : Kept shape size s) (hidle : s.atWork = none) :
    ∃ s', ReflTransGen DownloadStep s s' ∧ s'.cache = s.cache.close ∧ s'.buffer = none := by
  obtain ⟨k, hk, -⟩ := h.token
  have hclose : ScarceRun.CallerStep s.run { s.run with run.crew := s.crew.closeToken s.token } :=
    h.reachable.sane.caller_other (.closeToken s.token) rfl
  have hclosed : (s.crew.closeToken s.token).tokens[s.token]?
      = some { k with closed := true, pending := [] } := by
    simp [Crew.closeToken, Crew.onToken, hk]
  exact ⟨_, (steps_of_caller (.single hclose)).tail (.drop hclosed rfl hidle), rfl, rfl⟩

/-- Works are done one at a time. The first finds zeros, and each other what the one before has
left, whatever way it ended. They begin in the order in which they were left with the token, each
once, if every submission that failed for want of a worker has found its drain; and at rest they are
the accepted ones, if none failed so and none took back an accepted work. Once the buffer is
dropped, no work begins any more and every submission fails. -/
theorem works_take_turns (hr : ScarceRun.Reachable shape r)
    (hrun : ReflTransGen DownloadStep (founded r size) s) :
    s.begun.length = s.left.length + (if s.atWork = none then 0 else 1)
      ∧ s.found <+: List.replicate size 0 :: s.left ∧ (∀ bytes ∈ s.left, bytes.length = size)
      ∧ (s.run.strays s.token = 0 → s.works.Sublist (s.marked .pushed) ∧ s.works.Nodup
        ∧ (s.run.run.underWay s.token).length ≤ 1)
      ∧ ((s.crew.token s.token).closed = false → s.crew.pool.closed = false →
          s.run.undone = [] → s.run.AtRest s.token →
          (∀ k ∈ s.marked .takenBack, k ∉ s.marked .accepted) →
          s.works = (s.marked .pushed).filter (· ∈ s.marked .accepted))
      ∧ (∀ refusal,
        (∀ d, s.cache.submit refusal s.run.run.tickets = .ok d →
          ∃ s', ReflTransGen DownloadStep s s' ∧ s'.cache = d
            ∧ s.run.run.tickets ∈ s'.marked .accepted)
        ∧ ∀ f, s.cache.submit refusal s.run.run.tickets = .error f →
          ∃ s' n, ReflTransGen DownloadStep s s'
            ∧ s'.cache = { s.cache with crew.pool.nextWorker := n }
            ∧ (s.run.run.tickets ∈ s'.marked .declined
              ∨ s.run.run.tickets ∈ s'.marked .withdrawn))
      ∧ (s.atWork = none →
        ∃ s', ReflTransGen DownloadStep s s' ∧ s'.cache = s.cache.close ∧ s'.buffer = none)
      ∧ (s.buffer = none → ∀ s', ReflTransGen DownloadStep s s' →
          s'.begun = s.begun ∧ s'.atWork = none
            ∧ ∀ refusal work, s'.cache.submit refusal work
              = .error (.unavailable (s'.crew.tokenName s'.token ++ " is shut down"))) := by
  have h : Kept shape size s := (kept_founded hr size).run hrun
  refine ⟨h.length_begun, h.found_prefix, h.left_length, fun hstrays => ?_,
    fun htoken hpool hundone => ?_, h.steps_of_submit, h.steps_of_close, fun hb s' hrun' => ?_⟩
  · obtain ⟨hsub, hnodup⟩ := h.works_sublist (inTurn_of_run hr hrun hstrays)
    refine ⟨hsub, hnodup, Nat.le_trans (s.run.run.underWay_le_drainsOf s.token) ?_⟩
    exact Nat.le_trans (h.reachable.length_drainsOf s.token) (Nat.le_of_eq (by rw [hstrays]))
  · have hstrays : s.run.strays s.token = 0 := by rw [ScarceRun.strays, hundone, List.countP_nil]
    exact h.works_eq (inTurn_of_run hr hrun hstrays) htoken hpool hundone
  · have hidle : s.atWork = none :=
      Option.eq_none_iff_forall_ne_some.2 fun w hw => (h.busy w hw).1 hb
    obtain ⟨hb', hidle', hbegun⟩ := begun_of_dropped hb hidle hrun'
    exact ⟨hbegun, hidle', (h.run hrun').submit_of_dropped hb'⟩

/-! ## Two runs -/

/-- While no task of the token is executed, whatever anybody does on the pool is a step. -/
theorem step_idle {run : TokenRun} (hstep : TokenStep s.run.run run)
    (hlooking : ∀ a ∈ s.run.absent, run.crew.pool.workers.get? a.worker = some .looking)
    (hidle : s.run.run.underWay s.token = []) : DownloadStep s { s with run.run := run } := by
  refine .other (.other hstep hlooking) fun w task hw => ?_
  have hmem : task ∈ s.run.run.underWay s.token :=
    List.mem_filterMap.2 ⟨_, mem_executing hw, by simp [Job.taskOf]⟩
  exact absurd hmem (hidle ▸ List.not_mem_nil)

theorem length_overwrite (start : Nat) (data bytes : Bytes) :
    (DownloadCache.overwrite start data bytes).length = bytes.length := List.length_mapIdx

/-- Two works were done, of which the first one panicked. -/
def relayed : DownloadRun where
  run.run.crew.pool.shape := ⟨"downloads", 0, 1, 4⟩
  run.run.crew.pool.threads := 1
  run.run.crew.pool.workers := Assoc.empty.put 0 .looking
  run.run.crew.pool.nextWorker := 1
  run.run.crew.tokens := [{ mode := .serial }]
  run.run.tickets := 2
  run.run.record := [⟨0, .pushed, 0⟩, ⟨0, .accepted, 0⟩, ⟨0, .pushed, 1⟩, ⟨0, .accepted, 1⟩,
    ⟨0, .started, 0⟩, ⟨0, .started, 1⟩]
  token := 0
  bufferSize := 2
  buffer := some [7, 9]
  begun := [(0, [0, 0]), (1, [7, 0])]
  left := [[7, 0], [7, 9]]

/-- A pool without workers and tasks. -/
def vacant : ScarceRun where
  run.crew.pool.shape := ⟨"downloads", 0, 1, 4⟩

theorem reachable_vacant : ScarceRun.Reachable ⟨"downloads", 0, 1, 4⟩ vacant :=
  .founded (.founded (show ThreadPool.build .none _ = .ok _ from rfl) .empty)

theorem founded_relayed : ReflTransGen DownloadStep (founded vacant 2) relayed := by
  have r1 := ReflTransGen.single
    (step_idle (s := founded vacant 2) (.offer 0 rfl rfl rfl) nofun rfl)
  have r2 := r1.tail (step_idle (.handOver ⟨0, 0, false⟩ List.mem_cons_self rfl rfl) nofun rfl)
  have r3 := r2.tail (step_idle (.offer 0 rfl rfl rfl) nofun rfl)
  have r4 := r3.tail (step_idle (.look 0 rfl) nofun rfl)
  have r5 := r4.tail (step_idle (.proceed 0 0 rfl) nofun rfl)
  have r6 := r5.tail (.enter 0 0 rfl rfl rfl)
  have r7 := r6.tail
    (.leave 0 0 (DownloadCache.overwrite 0 [7]) .panicked rfl rfl (length_overwrite 0 [7]))
  have r8 := r7.tail (step_idle (.proceed 0 0 rfl) nofun rfl)
  have r9 := r8.tail (.enter 0 1 rfl rfl rfl)
  have r10 := r9.tail
    (.leave 0 1 (DownloadCache.overwrite 1 [9]) .returned rfl rfl (length_overwrite 1 [9]))
  exact r10.tail (step_idle (.proceed 0 0 rfl) nofun rfl)

theorem works_take_turns_relayed :
    ScarceRun.Reachable ⟨"downloads", 0, 1, 4⟩ vacant
      ∧ ReflTransGen DownloadStep (founded vacant 2) relayed
      ∧ relayed.found <+: List.replicate 2 0 :: relayed.left
      ∧ (relayed.works.Sublist (relayed.marked .pushed) ∧ relayed.works.Nodup
        ∧ (relayed.run.run.underWay 0).length ≤ 1)
      ∧ relayed.works = (relayed.marked .pushed).filter (· ∈ relayed.marked .accepted)
      ∧ ∃ s', ReflTransGen DownloadStep relayed s' ∧ s'.cache = relayed.cache.close
        ∧ s'.buffer = none := by
  obtain ⟨-, hfound, -, hturn, hrest, -, hclose, -⟩ :=
    works_take_turns reachable_vacant founded_relayed
  exact ⟨reachable_vacant, founded_relayed, hfound, hturn rfl,
    hrest rfl rfl rfl ⟨⟨rfl, nofun⟩, rfl⟩ nofun, hclose rfl⟩

/-- Work 2 was refused, for which work 3, that was accepted, was taken back. Work 2 was done then,
and after it work 4. -/
def upstaged : DownloadRun where
  run.run.crew.pool.shape := ⟨"downloads", 0, 1, 2⟩
  run.run.crew.pool.threads := 1
  run.run.crew.pool.workers := Assoc.empty.put 0 .looking
  run.run.crew.pool.nextWorker := 1
  run.run.crew.tokens := [{ mode := .serial }]
  run.run.tickets := 5
  run.run.record := [⟨0, .pushed, 2⟩, ⟨0, .pushed, 3⟩, ⟨0, .accepted, 3⟩, ⟨0, .takenBack, 3⟩,
    ⟨0, .withdrawn, 2⟩, ⟨0, .pushed, 4⟩, ⟨0, .accepted, 4⟩, ⟨0, .started, 2⟩, ⟨0, .started, 4⟩]
  token := 0
  bufferSize := 2
  buffer := some [7, 9]
  begun := [(2, [0, 0]), (4, [7, 0])]
  left := [[7, 0], [7, 9]]

/-- A pool whose queue is full. -/
def filled : ScarceRun where
  run.crew.pool.shape := ⟨"downloads", 0, 1, 2⟩
  run.crew.pool.queue := [.direct 0, .direct 1]
  run.crew.pool.threads := 1
  run.crew.pool.workers := Assoc.empty.put 0 .looking
  run.crew.pool.nextWorker := 1
  run.tickets := 2

theorem reachable_filled : ScarceRun.Reachable ⟨"downloads", 0, 1, 2⟩ filled := by
  have h0 : TokenRun.Reachable ⟨"downloads", 0, 1, 2⟩ _ :=
    .founded (show ThreadPool.build .none _ = .ok _ from rfl) .empty
  exact .founded ((h0.step (.submit rfl)).step (.submit rfl))

theorem founded_upstaged : ReflTransGen DownloadStep (founded filled 2) upstaged := by
  have r1 := ReflTransGen.single
    (step_idle (s := founded filled 2) (.offer 0 rfl rfl rfl) nofun rfl)
  have r2 := r1.tail (step_idle (.offer 0 rfl rfl rfl) nofun rfl)
  have r3 := r2.tail (step_idle (.refuse ⟨0, 2, false⟩ List.mem_cons_self rfl rfl) nofun rfl)
  have r4 := r3.tail (step_idle (.withdraw ⟨0, 2, true⟩ List.mem_cons_self rfl) nofun rfl)
  have r5 := r4.tail (step_idle (.look 0 rfl) nofun rfl)
  have r6 := r5.tail (step_idle (.finish 0 0 .returned rfl) nofun rfl)
  have r7 := r6.tail (step_idle (.look 0 rfl) nofun rfl)
  have r8 := r7.tail (step_idle (.finish 0 1 .returned rfl) nofun rfl)
  have r9 := r8.tail (step_idle (.offer 0 rfl rfl rfl) nofun rfl)
  have r10 := r9.tail (step_idle (.handOver ⟨0, 4, false⟩ List.mem_cons_self rfl rfl) nofun rfl)
  have r11 := r10.tail (step_idle (.look 0 rfl) nofun rfl)
  have r12 := r11.tail (step_idle (.proceed 0 0 rfl) nofun rfl)
  have r13 := r12.tail (.enter 0 2 rfl rfl rfl)
  have r14 := r13.tail
    (.leave 0 2 (DownloadCache.overwrite 0 [7]) .returned rfl rfl (length_overwrite 0 [7]))
  have r15 := r14.tail (step_idle (.proceed 0 0 rfl) nofun rfl)
  have r16 := r15.tail (.enter 0 4 rfl rfl rfl)
  have r17 := r16.tail
    (.leave 0 4 (DownloadCache.overwrite 1 [9]) .returned rfl rfl (length_overwrite 1 [9]))
  exact r17.tail (step_idle (.proceed 0 0 rfl) nofun rfl)

/-- The first accepted work that is done can find what a work has left whose submission failed, and
another accepted work can be lost. -/
theorem accepted_finds_withdrawn :
    ScarceRun.Reachable ⟨"downloads", 0, 1, 2⟩ filled
      ∧ ReflTransGen DownloadStep (founded filled 2) upstaged
      ∧ (upstaged.crew.token 0).closed = false ∧ upstaged.crew.pool.closed = false
      ∧ upstaged.run.AtRest 0 ∧ upstaged.marked .accepted = [3, 4]
      ∧ upstaged.marked .withdrawn = [2] ∧ upstaged.begun = [(2, [0, 0]), (4, [7, 0])] :=
  ⟨reachable_filled, founded_upstaged, rfl, rfl, ⟨⟨rfl, nofun⟩, rfl⟩, by decide, by decide, rfl⟩

end DownloadRun

end QueryHost
