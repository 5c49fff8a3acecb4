import Mathlib.Data.List.Nodup
import Mathlib.Tactic.Common
import QueryHost.Load.Routine
import QueryHost.Proofs.FixedPools

/-!
# Who takes the places of the routine loads

A task takes a place when it is accepted and gives it back when it ends, unless it panics: then its
id keeps the place for good. So the ids with a place are those of the unfinished tasks and of the
tasks that panicked, each once, and never more than there are places (`places_of_unfinished`).

`RoutineLedger` keeps beside the executor which tasks were accepted, and how those that have ended
did so. A task that was accepted is queued in a step of its own; until then it is coming.
-/

namespace QueryHost

inductive RoutineCall (ρ : Type) where
  /-- Somebody asks for a place for a task. -/
  | place (id : UniqueId) (task : ρ)
  /-- One of the coming tasks is queued. -/
  | enqueue (i : Nat)
  /-- A free thread takes the first queued task. -/
  | start
  /-- One of the active tasks ends. -/
  | finish (i : Nat) (outcome : PlanEnd)
  deriving DecidableEq, Repr

structure RoutineLedger (ρ : Type) where
  loads : RoutineLoads ρ
  coming : List (UniqueId × ρ) := []
  accepted : List (UniqueId × ρ) := []
  ended : List ((UniqueId × ρ) × PlanEnd) := []
  deriving Repr

variable {ρ : Type}

namespace RoutineLoads

/-! ## What a step can do -/

theorem place_cases (r : RoutineLoads ρ) (id : UniqueId) :
    (id ∈ r.running ∧ r.place id = .ok (r, false))
      ∨ (id ∉ r.running ∧ r.capacity ≤ r.running.length ∧ ∃ f, r.place id = .error f)
      ∨ (id ∉ r.running ∧ r.running.length < r.capacity
          ∧ r.place id = .ok ({ r with running := r.running ++ [id] }, true)) := by
  unfold place
  split_ifs with hid hfull
  · exact .inl ⟨hid, rfl⟩
  · exact .inr (.inl ⟨hid, hfull, _, rfl⟩)
  · exact .inr (.inr ⟨hid, Nat.lt_of_not_le hfull, rfl⟩)

theorem conclude_eq (r : RoutineLoads ρ) (id : UniqueId) (outcome : PlanEnd) :
    (r.conclude id outcome).1
      = { r with running := if outcome = .panicked then r.running else r.running.erase id } := by
  cases outcome <;> rfl

end RoutineLoads

namespace RoutineLedger

def call (b : RoutineLedger ρ) : RoutineCall ρ → RoutineLedger ρ
  | .place id task =>
    match b.loads.place id with
    | .ok (loads, true) =>
      { b with
        loads
        coming := b.coming ++ [(id, task)]
        accepted := b.accepted ++ [(id, task)] }
    | _ => b
  | .enqueue i =>
    match b.coming[i]? with
    | some job => { b with loads := b.loads.enqueue job.1 job.2, coming := b.coming.eraseIdx i }
    | none => b
  | .start => { b with loads := { b.loads with executor := b.loads.executor.start } }
  | .finish i outcome =>
    match b.loads.executor.active[i]? with
    | some job =>
      { b with
        loads := ({ b.loads with executor := b.loads.executor.finish i }.conclude job.1 outcome).1
        ended := b.ended ++ [(job, outcome)] }
    | none => b

/-- The ledger of an executor after a run of calls. -/
def run (threads : Nat) (calls : List (RoutineCall ρ)) : RoutineLedger ρ :=
  calls.foldl call { loads := .withThreads threads }

/-- The accepted tasks that have not ended. -/
def unfinished (b : RoutineLedger ρ) : List (UniqueId × ρ) := b.coming ++ b.loads.executor.jobs

/-- The ids of the tasks that panicked. -/
def lost (b : RoutineLedger ρ) : List UniqueId :=
  (b.ended.filter (·.2 = .panicked)).map (·.1.1)

/-- Every accepted task has ended or is unfinished, and the places are those of the unfinished and
the lost ones. -/
structure Kept (b : RoutineLedger ρ) : Prop where
  accepted : b.accepted.Perm (b.unfinished ++ b.ended.map (·.1))
  running : b.loads.running.Perm (b.unfinished.map (·.1) ++ b.lost)
  nodup : b.loads.running.Nodup
  length_le : b.loads.running.length ≤ b.loads.capacity

section Kept

variable {b : RoutineLedger ρ} {job : UniqueId × ρ} {i : Nat}

/-- Tasks that change their whereabouts keep their places. -/
theorem Kept.of_perm (h : b.Kept) {coming : List (UniqueId × ρ)}
    {executor : FixedPool (UniqueId × ρ)}
    (hperm : (coming ++ executor.jobs).Perm b.unfinished) :
    Kept { b with coming, loads := { b.loads with executor } } where
  accepted := h.accepted.trans (hperm.symm.append_right _)
  running := h.running.trans ((hperm.symm.map _).append_right _)
  nodup := h.nodup
  length_le := h.length_le

theorem Kept.place (h : b.Kept) (id : UniqueId) (task : ρ) : Kept (b.call (.place id task)) := by
  rcases b.loads.place_cases id with ⟨-, hp⟩ | ⟨-, -, f, hp⟩ | ⟨hid, hlt, hp⟩
  · simp only [call, hp]
    exact h
  · simp only [call, hp]
    exact h
  · simp only [call, hp]
    have hperm : ((b.coming ++ [(id, task)]) ++ b.loads.executor.jobs).Perm
        ((id, task) :: b.unfinished) := by
      rw [List.append_assoc]
      exact List.perm_middle
    refine ⟨?_, ?_, ?_, ?_⟩
    · exact (List.perm_append_singleton _ _).trans
        ((h.accepted.cons _).trans (hperm.symm.append_right _))
    · exact (List.perm_append_singleton _ _).trans
        ((h.running.cons _).trans ((hperm.symm.map Prod.fst).append_right b.lost))
    · exact List.nodup_append.2 ⟨h.nodup, List.nodup_singleton _, fun x hx y hy hxy =>
        hid (List.mem_singleton.1 hy ▸ hxy ▸ hx)⟩
    · rw [List.length_append, List.length_singleton]
      exact hlt

theorem Kept.enqueue (h : b.Kept) (i : Nat) : Kept (b.call (.enqueue i)) := by
  simp only [call]
  split
  · rename_i job hjob
    refine h.of_perm ?_
    calc List.Perm (b.coming.eraseIdx i ++ (b.loads.executor.enqueue job).jobs)
          (b.coming.eraseIdx i ++ job :: b.loads.executor.jobs) :=
        (b.loads.executor.perm_jobs_enqueue job).append_left _
      List.Perm _ (job :: b.coming.eraseIdx i ++ b.loads.executor.jobs) := List.perm_middle
      List.Perm _ b.unfinished := (perm_cons_eraseIdx hjob).symm.append_right _
  · exact h

theorem Kept.start (h : b.Kept) : Kept (b.call .start) :=
  h.of_perm (b.loads.executor.perm_jobs_start.append_left _)

theorem perm_unfinished (hjob : b.loads.executor.active[i]? = some job) :
    b.unfinished.Perm (job :: (b.coming ++ (b.loads.executor.finish i).jobs)) :=
  ((FixedPool.perm_jobs_finish hjob).append_left _).trans List.perm_middle

theorem lost_append (b : RoutineLedger ρ) (loads : RoutineLoads ρ) (job : UniqueId × ρ)
    (outcome : PlanEnd) :
    lost { b with loads, ended := b.ended ++ [(job, outcome)] }
      = b.lost ++ if outcome = .panicked then [job.1] else [] := by
  unfold lost
  split_ifs with h <;> simp [h]

/-- A task that panicked goes over from the unfinished to the lost ones. -/
theorem Kept.finish (h : b.Kept) (i : Nat) (outcome : PlanEnd) :
    Kept (b.call (.finish i outcome)) := by
  simp only [call]
  split
  · rename_i job hjob
    have hperm := perm_unfinished hjob
    have hids := h.running.trans ((hperm.map Prod.fst).append_right b.lost)
    have hended : b.accepted.Perm (b.coming ++ (b.loads.executor.finish i).jobs
        ++ (b.ended ++ [(job, outcome)]).map (·.1)) := by
      rw [List.map_append, ← List.append_assoc]
      exact (h.accepted.trans (hperm.append_right _)).trans (List.perm_append_singleton _ _).symm
    rw [RoutineLoads.conclude_eq]
    by_cases hout : outcome = .panicked
    · subst hout
      refine ⟨hended, ?_, h.nodup, h.length_le⟩
      rw [lost_append, if_pos rfl, ← List.append_assoc]
      exact hids.trans (List.perm_append_singleton _ _).symm
    · rw [if_neg hout]
      refine ⟨hended, ?_, h.nodup.erase _, Nat.le_trans List.length_erase_le h.length_le⟩
      rw [lost_append, if_neg hout, List.append_nil]
      exact (hids.erase job.1).trans (.of_eq (List.erase_cons_head _ _))
  · exact h

theorem capacity_call (b : RoutineLedger ρ) (c : RoutineCall ρ) :
    (b.call c).loads.capacity = b.loads.capacity := by
  cases c with
  | place id task =>
    rcases b.loads.place_cases id with ⟨-, hp⟩ | ⟨-, -, f, hp⟩ | ⟨-, -, hp⟩ <;> simp only [call, hp]
  | enqueue i =>
    simp only [call]
    split <;> rfl
  | start => rfl
  | finish i outcome =>
    simp only [call]
    split
    · rw [RoutineLoads.conclude_eq]
    · rfl

theorem Kept.call (h : b.Kept) (c : RoutineCall ρ) : Kept (b.call c) := by
  cases c with
  | place id task => exact h.place id task
  | enqueue i => exact h.enqueue i
  | start => exact h.start
  | finish i outcome => exact h.finish i outcome

theorem kept_run (threads : Nat) (calls : List (RoutineCall ρ)) :
    (run threads calls).Kept ∧ (run threads calls).loads.capacity = max threads 1 * 2 := by
  have hrun : ∀ b : RoutineLedger ρ, b.Kept →
      (calls.foldl RoutineLedger.call b).Kept
        ∧ (calls.foldl RoutineLedger.call b).loads.capacity = b.loads.capacity := by
    induction calls with
    | nil => exact fun b h => ⟨h, rfl⟩
    | cons c calls ih =>
      intro b h
      obtain ⟨hkept, hcap⟩ := ih _ (h.call c)
      exact ⟨hkept, hcap.trans (b.capacity_call c)⟩
  exact hrun _ ⟨.nil, .nil, .nil, Nat.zero_le _⟩

/-- A free place that nobody has lost goes to the next task. -/
theorem accepted_place_iff (b : RoutineLedger ρ) (id : UniqueId) (task : ρ) :
    (b.call (.place id task)).accepted = b.accepted ++ [(id, task)]
      ↔ id ∉ b.loads.running ∧ b.loads.running.length < b.loads.capacity := by
  rcases b.loads.place_cases id with ⟨hid, hp⟩ | ⟨-, hfull, f, hp⟩ | ⟨hid, hlt, hp⟩
  · simp [call, hp, hid]
  · simp [call, hp, Nat.not_lt.2 hfull]
  · simp [call, hp, hid, hlt]

end Kept

/-! ## What the executor does in one go -/

/-- To submit a task is to place it and to queue it if it got a place. -/
theorem submit_calls {b : RoutineLedger ρ} {id : UniqueId} {task : ρ} {r : RoutineLoads ρ}
    {log : Log} (h : b.loads.submit id task = .ok (r, log)) :
    ([.place id task, .enqueue b.coming.length].foldl call b).loads = r := by
  simp only [RoutineLoads.submit, bind, Except.bind] at h
  rcases b.loads.place_cases id with ⟨-, hp⟩ | ⟨-, -, f, hp⟩ | ⟨-, -, hp⟩
  · rw [hp] at h
    obtain ⟨rfl, -⟩ := Prod.mk.inj (Except.ok.inj h)
    simp [call, hp]
  · rw [hp] at h
    cases h
  · rw [hp] at h
    obtain ⟨rfl, -⟩ := Prod.mk.inj (Except.ok.inj h)
    simp [call, hp]

section Settle

variable {fate : ρ → Option PlanEnd}

/-- The executor after one more task has ended as it is fated to. -/
def concludeFated (fate : ρ → Option PlanEnd) (r : RoutineLoads ρ) (job : UniqueId × ρ) :
    RoutineLoads ρ :=
  match fate job.2 with
  | some e => (r.conclude job.1 e).1
  | none => r

theorem settle_eq (fate : ρ → Option PlanEnd) (r : RoutineLoads ρ) :
    (r.settle fate).1 = (r.executor.settle fun job => (fate job.2).isSome).2.foldl
      (concludeFated fate)
      { r with executor := (r.executor.settle fun job => (fate job.2).isSome).1 } := by
  unfold RoutineLoads.settle
  dsimp only
  refine fst_foldl (fun r log job => ?_) _ _ _
  unfold concludeFated
  dsimp only
  cases fate job.2 <;> rfl

theorem concludeFated_executor (fate : ρ → Option PlanEnd) (r : RoutineLoads ρ)
    (job : UniqueId × ρ) (executor : FixedPool (UniqueId × ρ)) :
    concludeFated fate { r with executor } job
      = { concludeFated fate r job with executor } := by
  unfold concludeFated
  cases fate job.2 with
  | none => rfl
  | some e => simp only [RoutineLoads.conclude_eq]

/-- To let the tasks go on is a run of starts and ends. -/
theorem settle_calls (fate : ρ → Option PlanEnd) (b : RoutineLedger ρ) :
    ∃ calls : List (RoutineCall ρ), (calls.foldl call b).loads = (b.loads.settle fate).1 := by
  obtain ⟨hworks, hripe⟩ := b.loads.executor.settle_works fun job => (fate job.2).isSome
  rw [settle_eq]
  refine hworks.calls call loads (·.executor) (fun r executor => { r with executor })
    (fun _ _ => rfl) (fun _ _ _ => rfl) (fun _ => rfl) (concludeFated_executor fate)
    (fun b => ⟨.start, rfl⟩) (fun b i job hjob hfate => ?_) hripe b rfl
  obtain ⟨e, he⟩ := Option.isSome_iff_exists.1 hfate
  refine ⟨.finish i e, ?_⟩
  simp only [call, hjob, concludeFated, he]

end Settle

/-- After any run, the places are those of the unfinished tasks and of the tasks that panicked. They
are the places of the unfinished tasks alone exactly as long as none has panicked, and what is left
when all tasks have ended is locked for good. -/
theorem places_of_unfinished (threads : Nat) (calls : List (RoutineCall ρ)) :
    let b := run threads calls
    b.accepted.Perm (b.unfinished ++ b.ended.map (·.1))
      ∧ b.loads.running.Perm (b.unfinished.map (·.1) ++ b.lost)
      ∧ b.loads.running.Nodup ∧ (b.unfinished.map (·.1)).Nodup
      ∧ b.loads.running.length ≤ b.loads.capacity ∧ b.loads.capacity = max threads 1 * 2
      ∧ ((∀ id, id ∈ b.loads.running ↔ id ∈ b.unfinished.map (·.1)) ↔ b.lost = [])
      ∧ (b.unfinished = [] → b.loads.running.length = b.lost.length
          ∧ ∀ id task, (b.call (.place id task)).accepted = b.accepted ++ [(id, task)]
            ↔ id ∉ b.lost ∧ b.lost.length < b.loads.capacity) := by
  intro b
  obtain ⟨⟨hacc, hrun, hnodup, hle⟩, hcap⟩ := kept_run threads calls
  have hall := List.nodup_append.1 (hrun.nodup_iff.1 hnodup)
  refine ⟨hacc, hrun, hnodup, hall.1, hle, hcap, ⟨fun h => ?_, fun h id => ?_⟩, fun h => ?_⟩
  · refine List.eq_nil_iff_forall_not_mem.2 fun id hid => ?_
    have hplace : id ∈ b.loads.running := hrun.mem_iff.2 (List.mem_append_right _ hid)
    exact hall.2.2 id ((h id).1 hplace) id hid rfl
  · rw [hrun.mem_iff, h, List.append_nil]
  · rw [h, List.map_nil, List.nil_append] at hrun
    refine ⟨hrun.length_eq, fun id task => ?_⟩
    rw [accepted_place_iff, hrun.mem_iff, hrun.length_eq]

/-- A task panics, and its id keeps its place though nothing is left to be done. -/
theorem places_not_given_back :
    ¬ ∀ (threads : Nat) (calls : List (RoutineCall Unit)) (id : UniqueId),
      id ∈ (run threads calls).loads.running ↔ id ∈ (run threads calls).unfinished.map (·.1) := by
  intro h
  have hid := h 1 [.place ⟨0, 1⟩ (), .enqueue 0, .start, .finish 0 .panicked] ⟨0, 1⟩
  exact absurd (hid.1 (by decide)) (by decide)

end RoutineLedger

end QueryHost
