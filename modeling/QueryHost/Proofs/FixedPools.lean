import QueryHost.Proofs.ListParts
import QueryHost.Threads.Fixed

/-!
# What a fixed pool does by itself

A pool starts queued jobs and ends active ones. It loses no job by that and executes none twice
(`perm_jobs_start`, `perm_jobs_finish`). To let a pool settle is a run of such steps
(`settle_works`), so what holds after every step holds of a settled pool.
-/

namespace QueryHost

/-- What is kept beside a fold does not matter for it. -/
theorem fst_foldl {σ τ β : Type} {f : σ × β → τ → σ × β} {g : σ → τ → σ}
    (h : ∀ s b t, (f (s, b) t).1 = g s t) : ∀ (ts : List τ) (s : σ) (b : β),
      (ts.foldl f (s, b)).1 = ts.foldl g s
  | [], _, _ => rfl
  | t :: ts, s, b => by
    rw [List.foldl_cons, List.foldl_cons, ← h s b t]
    exact fst_foldl h ts _ _

namespace FixedPool

variable {τ : Type}

/-- The jobs that have not ended. -/
def jobs (p : FixedPool τ) : List τ := p.queue ++ p.active

/-- A pool goes over into another one by itself, and some jobs end on the way. -/
inductive Works : FixedPool τ → List τ → FixedPool τ → Prop
  | rest (p : FixedPool τ) : Works p [] p
  | start {p q : FixedPool τ} {ended : List τ} : Works p.start ended q → Works p ended q
  | finish {p q : FixedPool τ} {ended : List τ} {i : Nat} {job : τ} : p.active[i]? = some job →
      Works (p.finish i) ended q → Works p (job :: ended) q

section Jobs

variable (p : FixedPool τ)

theorem perm_jobs_enqueue (job : τ) : (p.enqueue job).jobs.Perm (job :: p.jobs) := by
  unfold jobs enqueue
  rw [List.append_assoc]
  exact List.perm_middle

theorem perm_jobs_start : p.start.jobs.Perm p.jobs := by
  unfold start
  split
  · rename_i job rest hq
    split_ifs
    · unfold jobs
      rw [hq, ← List.append_assoc]
      exact List.perm_append_singleton job _
    · exact .rfl
  · exact .rfl

variable {p} in
theorem perm_jobs_finish {i : Nat} {job : τ} (h : p.active[i]? = some job) :
    p.jobs.Perm (job :: (p.finish i).jobs) :=
  ((perm_cons_eraseIdx h).append_left p.queue).trans List.perm_middle

end Jobs

section Settle

variable {p q : FixedPool τ} {ended : List τ} {ripe : τ → Bool}

theorem Works.fill (h : Works p.fill ended q) : Works p ended q := by
  unfold FixedPool.fill at h
  generalize p.queue.length = n at h
  induction n with
  | zero => exact h
  | succ n ih =>
    rw [Nat.fold_succ] at h
    exact ih (.start h)

theorem getElem?_of_ripe? {i : Nat} {job : τ} (h : p.ripe? ripe = some (i, job)) :
    p.active[i]? = some job ∧ ripe job = true := by
  obtain ⟨x, hfind, hx⟩ := Option.map_eq_some_iff.1 h
  obtain ⟨rfl, rfl⟩ := Prod.mk.inj hx
  have hripe : ripe x.1 = true := List.find?_some (p := fun y : τ × Nat => ripe y.1) hfind
  exact ⟨List.mem_zipIdx_iff_getElem?.1 (List.mem_of_find?_eq_some hfind), hripe⟩

/-- `run` does nothing but what a pool does by itself (`Works`), and ends only jobs that are ripe.
-/
theorem run_works (ripe : τ → Bool) : ∀ (fuel : Nat) (p : FixedPool τ),
    Works p (p.run ripe fuel).2 (p.run ripe fuel).1
      ∧ ∀ job ∈ (p.run ripe fuel).2, ripe job = true
  | 0, p => ⟨.rest p, by simp [run]⟩
  | fuel + 1, p => by
    unfold run
    dsimp only
    split
    · exact ⟨(Works.rest _).fill, by simp⟩
    · rename_i i job hripe
      obtain ⟨hjob, hr⟩ := getElem?_of_ripe? hripe
      obtain ⟨hworks, hall⟩ := run_works ripe fuel (p.fill.finish i)
      refine ⟨(Works.finish hjob hworks).fill, fun job' h => ?_⟩
      rcases List.mem_cons.1 h with rfl | h
      · exact hr
      · exact hall job' h

/-- A system can do what its pool does by itself, if the steps of the pool are calls of the system:
`view` is the part of the system that has the pool, and `conclude` is what the end of a job does to
that part. -/
theorem Works.calls {σ δ γ : Type} (call : σ → γ → σ) (view : σ → δ) (pool : δ → FixedPool τ)
    (withPool : δ → FixedPool τ → δ) {conclude : δ → τ → δ}
    (hget : ∀ d p, pool (withPool d p) = p)
    (hset : ∀ d p q, withPool (withPool d p) q = withPool d q)
    (hself : ∀ d, withPool d (pool d) = d)
    (hconclude : ∀ d job p, conclude (withPool d p) job = withPool (conclude d job) p)
    (hstart : ∀ s, ∃ c, view (call s c) = withPool (view s) (pool (view s)).start)
    (hfinish : ∀ s i job, (pool (view s)).active[i]? = some job → ripe job = true →
      ∃ c, view (call s c) = conclude (withPool (view s) ((pool (view s)).finish i)) job)
    (h : Works p ended q) : (∀ job ∈ ended, ripe job = true) → ∀ s, pool (view s) = p →
      ∃ calls : List γ, view (calls.foldl call s) = ended.foldl conclude (withPool (view s) q) := by
  induction h with
  | rest p =>
    rintro - s rfl
    exact ⟨[], (hself _).symm⟩
  | start _ ih =>
    rintro hall s rfl
    obtain ⟨c, hc⟩ := hstart s
    obtain ⟨calls, hcalls⟩ := ih hall (call s c) (by rw [hc, hget])
    exact ⟨c :: calls, by rw [List.foldl_cons, hcalls, hc, hset]⟩
  | @finish _ _ ended i job hjob _ ih =>
    rintro hall s rfl
    obtain ⟨c, hc⟩ := hfinish s i job hjob (hall job List.mem_cons_self)
    rw [hconclude] at hc
    obtain ⟨calls, hcalls⟩ := ih (fun j hj => hall j (List.mem_cons_of_mem _ hj)) (call s c)
      (by rw [hc, hget])
    exact ⟨c :: calls, by rw [List.foldl_cons, hcalls, hc, hset, List.foldl_cons, hconclude]⟩

/-- A pool that is let settle works by itself, and each job that ends was ready to. -/
theorem settle_works (ripe : τ → Bool) (p : FixedPool τ) :
    Works p (p.settle ripe).2 (p.settle ripe).1 ∧ ∀ job ∈ (p.settle ripe).2, ripe job = true :=
  run_works ripe _ p

end Settle

end FixedPool

end QueryHost
