import QueryHost.Proofs.LoadSections

/-!
# How stream loads end

When its plan has ended, a load is to be committed or aborted, and an aborted load is to hold up
nobody who appends to its body (`Settled`). A plan that panics settles nothing: its load goes on
running, unless the registry aborts it. A plan that fails settles its load for good, and one that
succeeds does until the registry aborts the load. That is so for every accepted plan whose load no
other call has raced for (`settled_iff`).

Behind this are two facts about every run: an aborted load has a cancelled sink (`Wired`), and after
the only plan of a load has ended nothing but the registry changes its status (`status_after_end`).
-/

namespace QueryHost

variable {ρ : Type}

namespace StreamLoads

/-- Nobody who appends to the pipe is held up, and nobody succeeds. -/
def Cancelled (s : StreamLoads ρ) (p : PipeId) : Prop :=
  ∃ pipe, s.pipes[p]? = some pipe ∧ pipe.cancelled.isSome = true

/-- When a plan of a load has ended in some way, the load is in the status that goes with it, and
somebody who appends to the sink of an aborted load is answered at once. -/
structure Settled (s : StreamLoads ρ) (l : LoadId) (outcome : PlanEnd) : Prop where
  status : s.status l = some (if outcome = .succeeded then .committed else .aborted)
  released : outcome ≠ .succeeded → ∃ x reason, s.load? l = some x ∧
    ∀ chunk, (s.append x.sink chunk).2 = .done (.error (Pipe.cancelledFailure reason))

theorem Cancelled.append {s : StreamLoads ρ} {p : PipeId} (h : s.Cancelled p) :
    ∃ reason, ∀ chunk, (s.append p chunk).2 = .done (.error (Pipe.cancelledFailure reason)) := by
  obtain ⟨pipe, hpipe, hc⟩ := h
  obtain ⟨reason, hreason⟩ := Option.isSome_iff_exists.1 hc
  exact ⟨reason, fun chunk => by simp [StreamLoads.append, onPipe, hpipe, Pipe.append, hreason]⟩

/-! ## What stays -/

/-- Cancelled pipes stay so, and no pipe goes. -/
structure Follows (s s' : StreamLoads ρ) : Prop where
  pipe : ∀ p, s.Cancelled p → s'.Cancelled p
  length_le : s.pipes.length ≤ s'.pipes.length

section Follows

variable {s s' : StreamLoads ρ}

theorem Follows.of_same (hpipes : s'.pipes = s.pipes) : Follows s s' where
  pipe p h := by rwa [Cancelled, hpipes]
  length_le := by rw [hpipes]

theorem follows_modifyPipe (s : StreamLoads ρ) (p : PipeId) (f : Pipe → Pipe)
    (hf : ∀ pipe, pipe.cancelled.isSome = true → (f pipe).cancelled.isSome = true) :
    Follows s { s with pipes := s.pipes.modify p f } where
  pipe q h := by
    obtain ⟨pipe, hpipe, hc⟩ := h
    unfold Cancelled
    rw [List.getElem?_modify, hpipe]
    by_cases h : p = q
    · exact ⟨f pipe, by simp [h], hf pipe hc⟩
    · exact ⟨pipe, by simp [h], hc⟩
  length_le := by rw [List.length_modify]

theorem follows_usePipe (s : StreamLoads ρ) (p : PipeId) (u : PipeUse) :
    Follows s (s.usePipe p u) := by
  rw [usePipe_eq]
  exact s.follows_modifyPipe p _ fun _ hc => (Pipe.use_of_cancelled hc u).1

theorem follows_cancelSink (s : StreamLoads ρ) (l : LoadId) (reason : String) :
    Follows s (s.cancelSink l reason) := by
  unfold cancelSink
  split
  · exact s.follows_modifyPipe _ _ fun _ _ => rfl
  · exact .of_same rfl

theorem follows_newLoad (s : StreamLoads ρ) (id : UniqueId) (database table label : String)
    (capacity : Nat) : Follows s (s.newLoad id database table label capacity).1 where
  pipe p h := by
    obtain ⟨pipe, hpipe, hc⟩ := h
    have hp := (List.getElem?_eq_some_iff.1 hpipe).1
    exact ⟨pipe, (List.getElem?_append_left hp).trans hpipe, hc⟩
  length_le := by simp [newLoad, newPipe]

end Follows

/-! ## Aborted loads -/

/-- Every load has a sink, which is cancelled if the load is aborted. -/
def Wired (s : StreamLoads ρ) : Prop :=
  ∀ l x, s.load? l = some x →
    x.sink < s.pipes.length ∧ (x.status = .aborted → s.Cancelled x.sink)

section Wired

variable {s s' : StreamLoads ρ}

theorem Wired.of_loads (h : s.Wired) (hf : Follows s s') (hloads : s'.loads = s.loads) :
    s'.Wired := by
  intro l x hx
  obtain ⟨hlt, hc⟩ := h l x (by rwa [load?, ← hloads])
  exact ⟨Nat.lt_of_lt_of_le hlt hf.length_le, fun hst => hf.pipe _ (hc hst)⟩

theorem Wired.setStatus (h : s.Wired) {l : LoadId} {st : LoadStatus}
    (hst : st = .aborted → ∀ x, s.load? l = some x → s.Cancelled x.sink) :
    (s.setStatus l st).Wired := by
  intro m x hx
  simp only [load?, StreamLoads.setStatus, List.getElem?_modify] at hx
  obtain ⟨y, hy, rfl⟩ := Option.map_eq_some_iff.1 hx
  obtain ⟨hlt, hc⟩ := h m y hy
  by_cases hl : l = m
  · subst hl
    rw [if_pos rfl]
    exact ⟨hlt, fun hab => hst hab y hy⟩
  · rw [if_neg hl]
    exact ⟨hlt, hc⟩

theorem cancelled_cancelSink (h : s.Wired) {l : LoadId} {x : StreamLoad} (hx : s.load? l = some x)
    (reason : String) : (s.cancelSink l reason).Cancelled x.sink := by
  obtain ⟨pipe, hpipe⟩ : ∃ pipe, s.pipes[x.sink]? = some pipe :=
    ⟨_, List.getElem?_eq_getElem (h l x hx).1⟩
  refine ⟨pipe.cancel reason, ?_, rfl⟩
  simp [cancelSink, hx, cancelPipe, hpipe]

theorem Wired.abort (h : s.Wired) (l : LoadId) (reason : String) :
    ((s.cancelSink l reason).setStatus l .aborted).Wired := by
  have hloads := s.loads_cancelSink l reason
  refine (h.of_loads (s.follows_cancelSink l reason) hloads).setStatus fun _ x hx => ?_
  exact cancelled_cancelSink h (by rwa [load?, ← hloads]) reason

theorem Wired.newLoad (h : s.Wired) (id : UniqueId) (database table label : String)
    (capacity : Nat) : (s.newLoad id database table label capacity).1.Wired := by
  have hf := s.follows_newLoad id database table label capacity
  intro l x hx
  have hx : (s.loads ++ [{ id, database, table, label, sink := s.pipes.length }])[l]? = some x := hx
  rcases Nat.lt_trichotomy l s.loads.length with hl | rfl | hl
  · rw [List.getElem?_append_left hl] at hx
    obtain ⟨hlt, hc⟩ := h l x hx
    exact ⟨Nat.lt_of_lt_of_le hlt hf.length_le, fun hst => hf.pipe _ (hc hst)⟩
  · rw [List.getElem?_concat_length] at hx
    obtain rfl := Option.some.inj hx
    exact ⟨by simp [StreamLoads.newLoad, newPipe], nofun⟩
  · rw [List.getElem?_eq_none (by rw [List.length_append, List.length_singleton]; exact hl)] at hx
    cases hx

/-- The sink follows from the status. -/
theorem Wired.settled_iff_status (h : s.Wired) {l : LoadId} {outcome : PlanEnd} :
    s.Settled l outcome
      ↔ s.status l = some (if outcome = .succeeded then .committed else .aborted) := by
  refine ⟨Settled.status, fun hst => ⟨hst, fun hne => ?_⟩⟩
  rw [if_neg hne] at hst
  obtain ⟨x, hx, hab⟩ := Option.map_eq_some_iff.1 hst
  obtain ⟨reason, hreason⟩ := ((h l x hx).2 hab).append
  exact ⟨x, reason, hx, hreason⟩

end Wired

/-! ## What a step does to the loads and pipes -/

inductive Effect : StreamLoads ρ → StreamLoads ρ → Prop
  | same {s s' : StreamLoads ρ} : s'.loads = s.loads → s'.pipes = s.pipes → Effect s s'
  | create (s : StreamLoads ρ) (id : UniqueId) (database table label : String) (capacity : Nat) :
      Effect s (s.newLoad id database table label capacity).1
  | write (s : StreamLoads ρ) (l : LoadId) {st : LoadStatus} : st ≠ .aborted →
      Effect s (s.setStatus l st)
  | abort (s : StreamLoads ρ) (l : LoadId) (reason : String) :
      Effect s ((s.cancelSink l reason).setStatus l .aborted)
  | pipe (s : StreamLoads ρ) (p : PipeId) (u : PipeUse) : Effect s (s.usePipe p u)
  | trans {s s' s'' : StreamLoads ρ} : Effect s s' → Effect s' s'' → Effect s s''

section Effect

variable {s s' : StreamLoads ρ}

theorem Effect.wired (h : Effect s s') (hs : s.Wired) : s'.Wired := by
  induction h with
  | same hloads hpipes => exact hs.of_loads (.of_same hpipes) hloads
  | create _ id database table label capacity => exact hs.newLoad id database table label capacity
  | write _ l hst => exact hs.setStatus fun hab => absurd hab hst
  | abort _ l reason => exact hs.abort l reason
  | pipe s p u => exact hs.of_loads (s.follows_usePipe p u) (by rw [usePipe_eq])
  | trans _ _ ih ih' => exact ih' (ih hs)

theorem effect_conclude (s : StreamLoads ρ) (l : LoadId) (outcome : PlanEnd) :
    Effect s (s.conclude l outcome).1 := by
  cases outcome with
  | succeeded => exact .write s l (by simp)
  | failed f => exact .abort s l f.message
  | panicked => exact .same rfl rfl

end Effect

end StreamLoads

namespace LoadLedger

open StreamLoads

theorem Does.effect {b b' : LoadLedger ρ} {c : LoadStep ρ} (h : Does b c b') :
    Effect b.loads b'.loads := by
  cases h with
  | created id database table label capacity => exact .create _ id database table label capacity
  | begun hjob => exact .write _ _ (by simp)
  | @ended i job outcome hjob =>
    have hfinish : Effect b.loads { b.loads with executor := b.loads.executor.finish i } :=
      .same rfl rfl
    exact hfinish.trans (effect_conclude _ _ outcome)
  | aborted hl => exact .abort _ _ _
  | piped p u => exact .pipe _ p u
  | _ => exact .same rfl rfl

theorem wired_run (threads : Nat) (steps : List (LoadStep ρ)) :
    (run threads steps).loads.Wired := by
  induction steps using List.reverseRecOn with
  | nil => exact nofun
  | append_singleton steps c ih =>
    rw [run_snoc]
    exact (does_call _ c).effect.wired ih

/-! ## After the end of a plan -/

/-- In this step the registry aborts the load. -/
def Reclaims (b : LoadLedger ρ) (l : LoadId) (c : LoadStep ρ) : Prop :=
  ∃ i, c = .abort i ∧ b.doomed[i]? = some l

/-- After the steps in `before`, the registry aborts the load in one of the steps of `after`. -/
def Reclaimed (threads : Nat) (before after : List (LoadStep ρ)) (l : LoadId) : Prop :=
  ∃ mid c rest, after = mid ++ c :: rest ∧ (run threads (before ++ mid)).Reclaims l c

section Ends

variable {threads : Nat} {before after steps : List (LoadStep ρ)} {b : LoadLedger ρ} {l : LoadId}
  {plan : ρ} {outcome : PlanEnd} {st : LoadStatus} {c : LoadStep ρ}

theorem Raced.append (h : Raced threads before l) (after : List (LoadStep ρ)) :
    Raced threads (before ++ after) l := by
  obtain ⟨first, c, rest, rfl, hc⟩ := h
  exact ⟨first, c, rest ++ after, by simp, hc⟩

theorem reclaimed_snoc_iff : Reclaimed threads before (after ++ [c]) l
    ↔ Reclaimed threads before after l ∨ (run threads (before ++ after)).Reclaims l c :=
  exists_split_snoc (P := fun mid c => (run threads (before ++ mid)).Reclaims l c)

theorem status_of_reclaims (h : b.Reclaims l c) (hst : b.loads.status l = some st) :
    (b.call c).loads.status l = some .aborted := by
  obtain ⟨i, rfl, hi⟩ := h
  simp only [call, hi]
  refine (b.loads.status_abort l l closing).trans ?_
  rw [if_pos rfl, hst, Option.map_some]

/-- The calls for a load are over, and so are their plans. -/
def Spent (b : LoadLedger ρ) (l : LoadId) : Prop :=
  (b.view l).checked = 0 ∧ (b.view l).unfinished = 0

theorem spent_of_ended (haccounted : b.Accounted) (hone : b.admitted l ≤ 1)
    (hended : ((l, plan), outcome) ∈ b.ended) : b.Spent l := by
  have hpos : 0 < jobsFor l (b.ended.map (·.1)) :=
    jobsFor_pos_iff.2 ⟨plan, List.mem_map_of_mem hended⟩
  have hcount : jobsFor l b.accepted
      = jobsFor l b.loads.executor.jobs + jobsFor l (b.ended.map (·.1)) :=
    ((accounted_iff.1 haccounted).countP_eq _).trans List.countP_append
  have hsum : b.admitted l
      = (b.view l).checked + jobsFor l b.begun + jobsFor l b.accepted := rfl
  have hunfinished : (b.view l).unfinished = jobsFor l b.loads.executor.jobs := rfl
  unfold Spent
  omega

theorem status_call_of_spent (h : b.Spent l) (hst : b.loads.status l = some st)
    (hc : ¬ b.Reclaims l c) : (b.call c).loads.status l = some st := by
  obtain ⟨hchecked, hunfinished⟩ := h
  have hview : (b.view l).status = some st := hst
  cases b.turn_call l c with
  | still hv | checked _ hv | enqueued _ hv => exact (congrArg View.status hv).trans hview
  | created hnone _ =>
    rw [hview] at hnone
    cases hnone
  | begun hlt _ => omega
  | ended hlt _ => omega
  | aborted hi _ => exact absurd ⟨_, rfl, hi⟩ hc

theorem ended_cases (b : LoadLedger ρ) (c : LoadStep ρ) : (b.call c).ended = b.ended
    ∨ ∃ i outcome job, c = .finish i outcome ∧ b.loads.executor.active[i]? = some job
      ∧ (b.call c).ended = b.ended ++ [(job, outcome)] := by
  have hd := b.does_call c
  generalize b.call c = b' at hd
  cases hd with
  | ended hjob => exact .inr ⟨_, _, _, rfl, hjob, rfl⟩
  | _ => exact .inl rfl

/-- An ended job was active, and one step ended it. -/
theorem ended_split {job : LoadId × ρ} (h : (job, outcome) ∈ (run threads steps).ended) :
    ∃ before i after, steps = before ++ .finish i outcome :: after
      ∧ (run threads before).loads.executor.active[i]? = some job := by
  induction steps using List.reverseRecOn with
  | nil => cases h
  | append_singleton steps c ih =>
    rw [run_snoc] at h
    have earlier (h : (job, outcome) ∈ (run threads steps).ended) :
        ∃ before i after, steps ++ [c] = before ++ .finish i outcome :: after
          ∧ (run threads before).loads.executor.active[i]? = some job := by
      obtain ⟨before, i, after, rfl, hjob⟩ := ih h
      exact ⟨before, i, after ++ [c], by simp, hjob⟩
    rcases ended_cases _ c with hsame | ⟨i, outcome', job', rfl, hjob, hnew⟩
    · exact earlier (hsame ▸ h)
    · rw [hnew, List.mem_append, List.mem_singleton] at h
      rcases h with h | h
      · exact earlier h
      · obtain ⟨rfl, rfl⟩ := Prod.mk.inj h
        exact ⟨steps, i, [], rfl, hjob⟩

theorem ended_subset (threads : Nat) (before after : List (LoadStep ρ)) :
    (run threads before).ended ⊆ (run threads (before ++ after)).ended := by
  induction after using List.reverseRecOn with
  | nil => simp
  | append_singleton after c ih =>
    rw [← List.append_assoc, run_snoc]
    rcases ended_cases (run threads (before ++ after)) c with h | ⟨_, _, _, -, -, h⟩ <;> rw [h]
    · exact ih
    · exact List.subset_append_of_subset_left _ ih

/-- After the only plan of a load has ended, nothing but the registry changes its status. -/
theorem status_after_end (hended : ((l, plan), outcome) ∈ (run threads before).ended)
    (hst : (run threads before).loads.status l = some st)
    (hrace : ¬ Raced threads (before ++ after) l) :
    (¬ Reclaimed threads before after l →
        (run threads (before ++ after)).loads.status l = some st)
      ∧ (Reclaimed threads before after l →
        (run threads (before ++ after)).loads.status l = some .aborted) := by
  induction after using List.reverseRecOn with
  | nil =>
    rw [List.append_nil]
    exact ⟨fun _ => hst, fun ⟨mid, c, rest, h, _⟩ => by simp at h⟩
  | append_singleton after c ih =>
    rw [← List.append_assoc, raced_snoc_iff, not_or] at hrace
    obtain ⟨hkept, haborted⟩ := ih hrace.1
    have hspent : (run threads (before ++ after)).Spent l :=
      spent_of_ended (accounted_run _ _) (admitted_le_one_iff.2 hrace.1)
        (ended_subset threads before after hended)
    rw [reclaimed_snoc_iff, ← List.append_assoc, run_snoc]
    by_cases hc : (run threads (before ++ after)).Reclaims l c
    · refine ⟨fun h => absurd (.inr hc) h, fun _ => ?_⟩
      by_cases hr : Reclaimed threads before after l
      · exact status_of_reclaims hc (haborted hr)
      · exact status_of_reclaims hc (hkept hr)
    · exact ⟨fun h => status_call_of_spent hspent (hkept fun hr => h (.inl hr)) hc,
        fun h => status_call_of_spent hspent (haborted (h.resolve_right hc)) hc⟩

/-- A load that has been made running is running until its only plan ends, or aborted. -/
theorem status_of_busy (hrace : ¬ Raced threads steps l)
    (hbusy : 0 < ((run threads steps).view l).begun + ((run threads steps).view l).unfinished) :
    ((run threads steps).view l).status = some .running
      ∨ ((run threads steps).view l).status = some .aborted := by
  induction steps using List.reverseRecOn with
  | nil => cases hbusy
  | append_singleton steps c ih =>
    have hone := admitted_le_one_iff.2 hrace
    obtain ⟨hchecked, hbegun, hle⟩ := sane_run threads steps l
    replace ih := ih (raced_snoc_iff.not.1 hrace ∘ .inl)
    rw [run_snoc] at hbusy hone ⊢
    have hsum : ((run threads steps).call c).admitted l
        = (((run threads steps).call c).view l).checked
          + (((run threads steps).call c).view l).begun
          + (((run threads steps).call c).view l).accepted := rfl
    rw [hsum] at hone
    cases (run threads steps).turn_call l c with
    | still hv | checked _ hv =>
      rw [hv] at hbusy ⊢
      exact ih hbusy
    | created hnone hv =>
      rw [hv] at hbusy
      have := hbegun (.inl hnone)
      dsimp only at hbusy
      omega
    | begun hlt hv =>
      obtain ⟨st, hst⟩ := Option.ne_none_iff_exists'.1 fun hnone => by
        have := hchecked hnone
        omega
      rw [hv]
      exact .inl (by rw [hst]; rfl)
    | enqueued hlt hv =>
      rw [hv]
      exact ih (by omega)
    | ended hlt hv =>
      have hbegun' := congrArg View.begun hv
      have haccepted := congrArg View.accepted hv
      dsimp only at hbegun' haccepted
      omega
    | aborted _ hv =>
      rw [hv] at hbusy ⊢
      rcases ih hbusy with hst | hst <;> exact .inr (by rw [hst]; rfl)

theorem status_finish {i : Nat} (hjob : b.loads.executor.active[i]? = some (l, plan))
    (hst : b.loads.status l = some st) :
    (b.call (.finish i outcome)).loads.status l = some (outcome.status st) := by
  simp only [call, hjob]
  refine (status_conclude _ l l outcome).trans ?_
  rw [if_pos rfl]
  exact congrArg (Option.map outcome.status) hst

end Ends

/-- In any run, take an accepted plan that has ended, of a load that no other call has raced for.
The load is settled by a failure, by a success unless the registry has aborted the load since, and
not by a panic: then it is running still, unless the registry had aborted it or has done so since.
-/
theorem settled_iff (threads : Nat) (steps : List (LoadStep ρ)) (l : LoadId) (plan : ρ)
    (outcome : PlanEnd) (hended : ((l, plan), outcome) ∈ (run threads steps).ended)
    (hrace : ¬ Raced threads steps l) :
    ∃ before i after, steps = before ++ .finish i outcome :: after
      ∧ (run threads before).loads.executor.active[i]? = some (l, plan)
      ∧ ((run threads steps).loads.Settled l outcome ↔
          (outcome = .succeeded → ¬ Reclaimed threads (before ++ [.finish i outcome]) after l)
            ∧ (outcome = .panicked → (run threads before).loads.status l = some .aborted
              ∨ Reclaimed threads (before ++ [.finish i outcome]) after l))
      ∧ (outcome = .panicked → ¬ (run threads steps).loads.Settled l outcome →
          (run threads steps).loads.status l = some .running) := by
  obtain ⟨before, i, after, rfl, hjob⟩ := ended_split hended
  refine ⟨before, i, after, rfl, hjob, ?_⟩
  have hsplit : before ++ .finish i outcome :: after
      = (before ++ [.finish i outcome]) ++ after := by
    simp
  rw [hsplit] at hrace ⊢
  obtain ⟨st, hst, hbusy⟩ : ∃ st, (run threads before).loads.status l = some st
      ∧ (st = .running ∨ st = .aborted) := by
    have hpos : 0 < ((run threads before).view l).unfinished :=
      jobsFor_pos_iff.2 ⟨plan, List.mem_append_right _ (List.mem_of_getElem? hjob)⟩
    have hnot : ¬ Raced threads before l := fun h => hrace (h.append _ |>.append _)
    rcases status_of_busy hnot (by omega) with hst | hst
    · exact ⟨_, hst, .inl rfl⟩
    · exact ⟨_, hst, .inr rfl⟩
  have hend : (run threads (before ++ [.finish i outcome])).loads.status l
      = some (outcome.status st) := by
    rw [run_snoc]
    exact status_finish hjob hst
  have hmem : ((l, plan), outcome) ∈ (run threads (before ++ [.finish i outcome])).ended := by
    rw [run_snoc]
    simp [call, hjob]
  obtain ⟨hkept, haborted⟩ := status_after_end hmem hend hrace
  rw [(wired_run threads _).settled_iff_status, hst]
  by_cases hr : Reclaimed threads (before ++ [.finish i outcome]) after l
  · rw [haborted hr]
    cases outcome <;> simp [hr]
  · rw [hkept hr]
    cases outcome with
    | succeeded => simp [hr, PlanEnd.status]
    | failed f => simp [PlanEnd.status]
    | panicked => rcases hbusy with rfl | rfl <;> simp [hr, PlanEnd.status]

/-- A load is executed, and somebody fills its sink. -/
def underWay : List (LoadStep Nat) :=
  [.create ⟨0, 1⟩ "db" "t" "l" 2, .put 0, .check 0 1, .begin 0, .enqueue 0, .start,
    .pipe 0 (.append [1, 2])]

/-- Another caller is refused, the plan fails, and the registry closes. -/
def failing : List (LoadStep Nat) :=
  underWay ++ [.check 0 2, .refuse 0, .finish 0 (.failed (.internal "bad row")), .drain, .abort 0]

theorem settled_iff_failing :
    let outcome := PlanEnd.failed (.internal "bad row")
    ((run 1 underWay).loads.append 0 [3]).2 = .mustWait
      ∧ ((0, 1), outcome) ∈ (run 1 failing).ended ∧ ¬ Raced 1 failing 0
      ∧ (run 1 failing).loads.Settled 0 outcome := by
  intro outcome
  have hended : ((0, 1), outcome) ∈ (run 1 failing).ended := by decide
  have hrace : ¬ Raced 1 failing 0 := admitted_le_one_iff.1 (by decide)
  obtain ⟨_, _, _, -, -, hiff, -⟩ := settled_iff 1 failing 0 1 outcome hended hrace
  exact ⟨rfl, hended, hrace, hiff.2 ⟨nofun, nofun⟩⟩

/-- The plan of a load panics, and the load goes on running. -/
theorem not_settled_by_panic : ¬ ∀ (threads : Nat) (steps : List (LoadStep Nat)) (l : LoadId)
    (plan : Nat) (outcome : PlanEnd), ((l, plan), outcome) ∈ (run threads steps).ended →
      (run threads steps).loads.Settled l outcome := by
  intro h
  have hsettled := h 1 [.create ⟨0, 1⟩ "db" "t" "l" 64, .check 0 1, .begin 0, .enqueue 0, .start,
    .finish 0 .panicked] 0 1 .panicked (by decide)
  exact absurd hsettled.status (by decide)

end LoadLedger

end QueryHost
