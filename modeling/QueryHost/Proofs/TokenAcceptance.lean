import Mathlib.Data.List.Perm.Subperm
import QueryHost.Proofs.ListParts
import QueryHost.Proofs.TokenOrder

/-!
# Which tasks of a token are run

Every task that was left with an open token was started, or waits, or was taken back, and its
submission returned well, or failed, or has not returned. A caller whose drain is refused takes back
the last task of the token, which is its own unless others came in between: these were told that
their tasks are accepted, as a drain was about to be started. So what is run is what was accepted
exactly if no accepted task was taken back (`Reachable.runs_accepted`).
-/

namespace QueryHost

namespace TokenView

variable {v v' : TokenView}

/-- No submission that failed took back a task that was accepted. -/
def SparesAccepted (v : TokenView) : Prop :=
  ∀ k ∈ marks v.record .takenBack, k ∉ marks v.record .accepted

theorem SparesAccepted.of_subset (h : v'.SparesAccepted)
    (hback : marks v.record .takenBack ⊆ marks v'.record .takenBack)
    (hacc : marks v.record .accepted ⊆ marks v'.record .accepted) : v.SparesAccepted :=
  fun k hk hka => h k (hback hk) (hacc hka)

/-- What was left with the token, by what became of its submission. Those in `away` wait for
something else. -/
def Returned (away : List Ticket) (v : TokenView) : Prop :=
  (marks v.record .pushed).Perm
    (marks v.record .accepted ++ (v.callers ++ away) ++ marks v.record .withdrawn)

theorem Returned.move {away : List Ticket} (h : v.Returned away) (hm : Move v v') :
    v'.Returned away := by
  unfold Returned at *
  rw [List.perm_iff_count] at *
  intro a
  have hcount := h a
  cases hm with
  | other _ hp =>
    have hcallers := hp.count_eq a
    simp only [List.count_append] at *
    omega
  | handOver hp | withdraw hp =>
    have hcallers := hp.count_eq a
    simp [List.count_cons, marks_map] at *
    omega
  | offerFirst | offerNext | decline | start | finish | close | shutDown =>
    simp [List.count_cons] at *
    omega

/-- What was left with the token, by where it went from there. -/
def Located (v : TokenView) : Prop :=
  (marks v.record .pushed).Perm
    (marks v.record .started ++ v.pending ++ marks v.record .takenBack)

theorem Located.move (h : v.Located) (hm : Move v v') (hopen : v'.closed = false) :
    v'.Located := by
  unfold Located at *
  rw [List.perm_iff_count] at *
  intro a
  have hcount := h a
  cases hm with
  | start _ hp =>
    simp [hp, List.count_cons] at *
    omega
  | withdraw =>
    have hlast := congrArg (List.count a) (dropLast_append_getLast? v.pending)
    simp [marks_map] at *
    omega
  | close => exact Bool.noConfusion hopen
  | other | handOver | offerFirst | offerNext | decline | finish | shutDown =>
    simp [List.count_cons] at *
    omega

/-- A token and its pool are open. -/
def Open (v : TokenView) : Prop := v.closed = false ∧ v.poolClosed = false

/-- How an open token stands with those who are about to start a drain. -/
structure Led (v : TokenView) : Prop where
  owners_eq : v.owners = if v.running then 1 else 0
  /-- Behind the task of a caller are accepted tasks only. -/
  caller_pending : ∀ k ∈ v.callers, ∃ before later, v.pending = before ++ k :: later
    ∧ later ⊆ marks v.record .accepted ∧ (v.SparesAccepted → before = [])
  idle_pending : v.SparesAccepted → v.running = false → v.pending = []
  length_takenBack : (marks v.record .takenBack).length = (marks v.record .withdrawn).length

theorem Led.running_of_owners (h : v.Led) (hpos : 0 < v.owners) : v.running = true := by
  have howners := h.owners_eq
  split at howners
  · assumption
  · omega

theorem Led.callers_of_drains (h : v.Led) (hd : 0 < v.drains) : v.callers = [] := by
  have howners := h.owners_eq
  unfold owners at howners
  refine List.eq_nil_of_length_eq_zero ?_
  split at howners <;> omega

theorem Led.of_idle (h : v.Led) (hr : v.running = false) : v.callers = [] ∧ v.drains = 0 := by
  have howners := h.owners_eq
  simp only [hr, Bool.false_eq_true, if_false, owners] at howners
  exact ⟨List.eq_nil_of_length_eq_zero (by omega), by omega⟩

/-- A caller owns the token alone. -/
theorem Led.of_caller (h : v.Led) {k : Ticket} {callers : List Ticket}
    (hp : v.callers.Perm (k :: callers)) :
    v.running = true ∧ v.callers = [k] ∧ callers = [] ∧ v.drains = 0 := by
  have hlen := hp.length_eq
  have howners := h.owners_eq
  have hr : v.running = true := by
    refine h.running_of_owners ?_
    simp only [owners, hlen, List.length_cons]
    omega
  simp only [hr, if_true, owners, hlen, List.length_cons] at howners
  have hnil : callers = [] := List.eq_nil_of_length_eq_zero (by omega)
  exact ⟨hr, List.perm_singleton.1 (hnil ▸ hp), hnil, by omega⟩

theorem Led.move (h : v.Led) (hm : Move v v') (hopen : v'.Open) : v'.Led := by
  cases hm with
  | other _ hp =>
    exact ⟨by simpa [owners, hp.length_eq] using h.owners_eq,
      fun k hk => h.caller_pending k (hp.mem_iff.1 hk), h.idle_pending, h.length_takenBack⟩
  | offerFirst hr =>
    obtain ⟨hcallers, hdrains⟩ := h.of_idle hr
    refine ⟨by simp [owners, hcallers, hdrains], fun k hk => ?_, fun _ hr' => Bool.noConfusion hr',
      by simpa using h.length_takenBack⟩
    obtain rfl : k = v.tickets := by simpa [hcallers] using hk
    exact ⟨v.pending, [], rfl, List.nil_subset _, fun hs =>
      h.idle_pending (hs.of_subset (by simp) (by simp)) hr⟩
  | offerNext hr =>
    refine ⟨h.owners_eq, fun k hk => ?_, fun _ hr' => absurd hr' (by simp [hr]),
      by simpa using h.length_takenBack⟩
    obtain ⟨before, later, hpending, hlater, hfirst⟩ := h.caller_pending k hk
    refine ⟨before, later ++ [v.tickets], by simp [hpending], ?_, fun hs =>
      hfirst (hs.of_subset (by simp) (by simp))⟩
    simpa using List.Subset.trans hlater (List.subset_append_left _ _)
  | decline =>
    refine ⟨h.owners_eq, fun k hk => ?_, fun hs =>
      h.idle_pending (hs.of_subset (by simp) (by simp)), by simpa using h.length_takenBack⟩
    obtain ⟨before, later, hpending, hlater, hfirst⟩ := h.caller_pending k hk
    exact ⟨before, later, hpending, by simpa using hlater, fun hs =>
      hfirst (hs.of_subset (by simp) (by simp))⟩
  | handOver hp =>
    obtain ⟨hr, hcallers, rfl, hdrains⟩ := h.of_caller hp
    exact ⟨by simp [owners, hr, hdrains], by simp, fun _ hr' => absurd hr' (by simp [hr]),
      by simpa using h.length_takenBack⟩
  | @withdraw k _ hp =>
    obtain ⟨hr, hcallers, rfl, hdrains⟩ := h.of_caller hp
    obtain ⟨before, later, hpending, hlater, hfirst⟩ := h.caller_pending k (by simp [hcallers])
    have hlast : v.pending.getLast? = some (later.getLast?.getD k) := by
      simp [hpending, List.getLast?_cons]
    refine ⟨by simp [owners, hdrains], by simp, fun hs _ => ?_,
      by simpa [marks_map, hlast] using h.length_takenBack⟩
    have hnone : later = [] := by
      rcases later.eq_nil_or_concat' with rfl | ⟨rest, a, rfl⟩
      · rfl
      · have ha : a ∈ marks v.record .accepted := hlater (by simp)
        exact absurd (by simpa [marks_map] using ha) (hs a (by simp [hlast]))
    simp [hpending, hnone, hfirst (hs.of_subset (by simp) (by simp [marks_map]))]
  | start hd hp =>
    have hcallers := h.callers_of_drains hd
    have hr := h.running_of_owners (by unfold owners; omega)
    exact ⟨h.owners_eq, by simp [hcallers], fun _ hr' => absurd hr' (by simp [hr]),
      by simpa using h.length_takenBack⟩
  | finish hd hp =>
    have hcallers := h.callers_of_drains (by omega)
    have howners := h.owners_eq
    unfold owners at howners
    refine ⟨?_, by simp [hcallers], fun _ _ => hp, h.length_takenBack⟩
    simp only [owners, hcallers, List.length_nil, Bool.false_eq_true, if_false]
    split at howners <;> omega
  | close => exact Bool.noConfusion hopen.1
  | shutDown => exact Bool.noConfusion hopen.2

theorem Open.of_move (hopen : v'.Open) (hm : Move v v') : v.Open := by
  cases hm with
  | close => exact Bool.noConfusion hopen.1
  | shutDown => exact Bool.noConfusion hopen.2
  | _ => exact hopen

/-- What is known of an open token. -/
structure Sound (away : List Ticket) (v : TokenView) : Prop where
  ticketed : v.Ticketed
  returned : v.Returned away
  located : v.Located
  led : v.Led

theorem sound_new : Sound [] {} :=
  ⟨⟨List.nodup_nil, fun _ hk => nomatch hk⟩, .refl _, .refl _, ⟨rfl, by simp, fun _ _ => rfl, rfl⟩⟩

theorem Sound.move {away : List Ticket} (h : v.Sound away) (hm : Move v v') (hopen : v'.Open) :
    v'.Sound away :=
  ⟨h.ticketed.move hm, h.returned.move hm, h.located.move hm hopen.1, h.led.move hm hopen⟩

theorem sound_of_moves {shape : PoolShape} {s : TokenRun} {t : TokenId}
    (h : TokenRun.Reachable shape s) (hopen : (s.view t).Open) : (s.view t).Sound [] :=
  h.view_of_moves t (P := fun v => v.Open → v.Sound []) (fun _ => sound_new)
    (fun hv hm ho => (hv (ho.of_move hm)).move hm ho) hopen

namespace Sound

variable {away : List Ticket}

theorem nodup_pushed (h : v.Sound away) : (marks v.record .pushed).Nodup :=
  h.ticketed.nodup.sublist (List.sublist_append_left _ _)

theorem nodup_located (h : v.Sound away) :
    (marks v.record .started ++ v.pending ++ marks v.record .takenBack).Nodup :=
  h.located.nodup_iff.1 h.nodup_pushed

/-- If accepted tasks are spared, those that fail take back their own tasks. -/
theorem takenBack_perm (h : v.Sound []) (hs : v.SparesAccepted) :
    (marks v.record .takenBack).Perm (marks v.record .withdrawn) := by
  obtain ⟨-, hnodup, hdisjoint⟩ := List.nodup_append'.1 h.nodup_located
  refine (hnodup.subperm fun k hk => ?_).perm_of_length_le
    (Nat.le_of_eq h.led.length_takenBack.symm)
  have hpushed : k ∈ marks v.record .pushed := h.located.mem_iff.2 (by simp [hk])
  have hreturned := h.returned.mem_iff.1 hpushed
  simp only [List.append_nil, List.mem_append] at hreturned
  rcases hreturned with (hka | hkc) | hkw
  · exact absurd hka (hs k hk)
  · obtain ⟨before, later, hpending, -⟩ := h.led.caller_pending k hkc
    exact absurd hk (hdisjoint (by simp [hpending]))
  · exact hkw

/-- If accepted tasks are spared, no task of a failed submission is started. -/
theorem not_started (h : v.Sound []) (hs : v.SparesAccepted) {k : Ticket}
    (hk : k ∈ marks v.record .declined ∨ k ∈ marks v.record .withdrawn) :
    k ∉ marks v.record .started := by
  intro hstarted
  rcases hk with hk | hk
  · have hpushed : k ∈ marks v.record .pushed := h.located.mem_iff.2 (by simp [hstarted])
    exact List.disjoint_of_nodup_append h.ticketed.nodup hpushed hk
  · have hback := (h.takenBack_perm hs).mem_iff.2 hk
    exact List.disjoint_of_nodup_append h.nodup_located (List.mem_append_left _ hstarted) hback

/-- At rest, what was started is what was accepted exactly if accepted tasks were spared. -/
theorem started_perm_iff (h : v.Sound []) (hcallers : v.callers = []) (hdrains : v.drains = 0) :
    (marks v.record .started).Perm (marks v.record .accepted) ↔ v.SparesAccepted := by
  constructor
  · intro hperm k hk hka
    have hstarted := hperm.mem_iff.2 hka
    exact List.disjoint_of_nodup_append h.nodup_located (List.mem_append_left _ hstarted) hk
  · intro hs
    have hidle : v.running = false := by
      have howners := h.led.owners_eq
      simpa [owners, hcallers, hdrains] using howners
    have hperm := h.located.symm.trans h.returned
    rw [h.led.idle_pending hs hidle, hcallers, List.append_nil, List.append_nil,
      List.append_nil] at hperm
    exact (List.perm_append_right_iff _).1 (hperm.trans ((h.takenBack_perm hs).symm.append_left _))

end Sound

end TokenView

namespace TokenRun

open TokenView

variable {shape : PoolShape} {s : TokenRun}

/-- No drain of the token is queued or running, and nobody is submitting to it. -/
def AtRest (s : TokenRun) (t : TokenId) : Prop :=
  s.drainsOf t = [] ∧ ∀ c ∈ s.callers, c.token ≠ t

/-- While a token and its pool are open, each of its tasks is started at most once. If no failed
submission took back an accepted task, no task of a failed submission is started, and at rest, what
was started is what was accepted exactly under this condition. -/
theorem Reachable.runs_accepted (h : Reachable shape s) {t : TokenId}
    (htoken : (s.crew.token t).closed = false) (hpool : s.crew.pool.closed = false) :
    (s.marked t .started).Nodup
      ∧ ((∀ k ∈ s.marked t .takenBack, k ∉ s.marked t .accepted) →
          ∀ k, k ∈ s.marked t .declined ∨ k ∈ s.marked t .withdrawn → k ∉ s.marked t .started)
      ∧ (s.AtRest t → ((s.marked t .started).Perm (s.marked t .accepted)
          ↔ ∀ k ∈ s.marked t .takenBack, k ∉ s.marked t .accepted)) := by
  have hsound : (s.view t).Sound [] := sound_of_moves h ⟨htoken, hpool⟩
  refine ⟨?_, fun hs k hk => hsound.not_started hs hk, fun ⟨hdrains, hcallers⟩ => ?_⟩
  · exact (hsound.nodup_located.sublist (List.sublist_append_left _ _)).sublist
      (List.sublist_append_left _ _)
  · refine hsound.started_perm_iff ?_ ?_
    · simpa [view] using hcallers
    · exact List.countP_eq_length_filter.trans (congrArg List.length hdrains)

/-- A pool whose queue is full, and a submission that has left task 2 with a token of the pool and
is about to start the drain. -/
def crowded : TokenRun where
  crew.pool.shape := ⟨"pool", 0, 1, 2⟩
  crew.pool.queue := [.direct 0, .direct 1]
  crew.pool.threads := 1
  crew.pool.workers := ⟨[(0, .looking)], by decide⟩
  crew.pool.nextWorker := 1
  crew.tokens := [{ mode := .serial, pending := [2], running := true }]
  tickets := 3
  callers := [⟨0, 2, false⟩]
  record := [⟨0, .pushed, 2⟩]

theorem reachable_crowded : Reachable ⟨"pool", 0, 1, 2⟩ crowded := by
  have h0 : Reachable ⟨"pool", 0, 1, 2⟩ _ :=
    .founded (show ThreadPool.build .none _ = .ok _ from rfl) .empty
  have h1 := (h0.step (.submit rfl)).step (.submit rfl)
  have h2 := (h1.step (.newToken .serial)).step (.offer 0 rfl rfl rfl)
  exact h2

/-- Task 2 was taken back, and task 3 was accepted and run. -/
def recovered : TokenRun where
  crew.pool.shape := ⟨"pool", 0, 1, 2⟩
  crew.pool.threads := 1
  crew.pool.workers := ⟨[(0, .looking)], by decide⟩
  crew.pool.nextWorker := 1
  crew.tokens := [{ mode := .serial }]
  tickets := 4
  record := [⟨0, .pushed, 2⟩, ⟨0, .takenBack, 2⟩, ⟨0, .withdrawn, 2⟩, ⟨0, .pushed, 3⟩,
    ⟨0, .accepted, 3⟩, ⟨0, .started, 3⟩]

theorem reachable_recovered : Reachable ⟨"pool", 0, 1, 2⟩ recovered := by
  have h1 := reachable_crowded.step (.refuse ⟨0, 2, false⟩ List.mem_cons_self rfl rfl)
  have h2 := h1.step (.withdraw ⟨0, 2, true⟩ List.mem_cons_self rfl)
  have h3 := (h2.step (.look 0 rfl)).step (.finish 0 0 .returned rfl)
  have h4 := (h3.step (.look 0 rfl)).step (.finish 0 1 .returned rfl)
  have h5 := h4.step (.offer 0 rfl rfl rfl)
  have h6 := h5.step (.handOver ⟨0, 3, false⟩ List.mem_cons_self rfl rfl)
  have h7 := (h6.step (.look 0 rfl)).step (.proceed 0 0 rfl)
  have h8 := (h7.step (.conclude 0 0 3 .returned rfl)).step (.proceed 0 0 rfl)
  exact h8

theorem runs_accepted_recovered : Reachable ⟨"pool", 0, 1, 2⟩ recovered
    ∧ (recovered.crew.token 0).closed = false ∧ recovered.crew.pool.closed = false
    ∧ (recovered.marked 0 .started).Nodup
    ∧ ((∀ k ∈ recovered.marked 0 .takenBack, k ∉ recovered.marked 0 .accepted) →
        ∀ k, k ∈ recovered.marked 0 .declined ∨ k ∈ recovered.marked 0 .withdrawn →
          k ∉ recovered.marked 0 .started)
    ∧ (recovered.AtRest 0 → ((recovered.marked 0 .started).Perm (recovered.marked 0 .accepted)
        ↔ ∀ k ∈ recovered.marked 0 .takenBack, k ∉ recovered.marked 0 .accepted)) :=
  ⟨reachable_recovered, rfl, rfl, reachable_recovered.runs_accepted rfl rfl⟩

/-- Task 3 was left with the token before the drain of task 2 was refused, and was accepted. It was
taken back for task 2, which the drain of task 4 has run. -/
def robbed : TokenRun where
  crew.pool.shape := ⟨"pool", 0, 1, 2⟩
  crew.pool.threads := 1
  crew.pool.workers := ⟨[(0, .looking)], by decide⟩
  crew.pool.nextWorker := 1
  crew.tokens := [{ mode := .serial }]
  tickets := 5
  record := [⟨0, .pushed, 2⟩, ⟨0, .pushed, 3⟩, ⟨0, .accepted, 3⟩, ⟨0, .takenBack, 3⟩,
    ⟨0, .withdrawn, 2⟩, ⟨0, .pushed, 4⟩, ⟨0, .accepted, 4⟩, ⟨0, .started, 2⟩, ⟨0, .started, 4⟩]

theorem reachable_robbed : Reachable ⟨"pool", 0, 1, 2⟩ robbed := by
  have h1 := reachable_crowded.step (.offer 0 rfl rfl rfl)
  have h2 := h1.step (.refuse ⟨0, 2, false⟩ List.mem_cons_self rfl rfl)
  have h3 := h2.step (.withdraw ⟨0, 2, true⟩ List.mem_cons_self rfl)
  have h4 := (h3.step (.look 0 rfl)).step (.finish 0 0 .returned rfl)
  have h5 := (h4.step (.look 0 rfl)).step (.finish 0 1 .returned rfl)
  have h6 := h5.step (.offer 0 rfl rfl rfl)
  have h7 := h6.step (.handOver ⟨0, 4, false⟩ List.mem_cons_self rfl rfl)
  have h8 := (h7.step (.look 0 rfl)).step (.proceed 0 0 rfl)
  have h9 := (h8.step (.conclude 0 0 2 .returned rfl)).step (.proceed 0 0 rfl)
  have h10 := (h9.step (.conclude 0 0 4 .returned rfl)).step (.proceed 0 0 rfl)
  exact h10

/-- An accepted task can be lost, and the task of a failed submission run. -/
theorem accepted_not_run : Reachable ⟨"pool", 0, 1, 2⟩ robbed
    ∧ (robbed.crew.token 0).closed = false ∧ robbed.crew.pool.closed = false ∧ robbed.AtRest 0
    ∧ 3 ∈ robbed.marked 0 .accepted ∧ 3 ∉ robbed.marked 0 .started
    ∧ 2 ∈ robbed.marked 0 .withdrawn ∧ 2 ∈ robbed.marked 0 .started :=
  ⟨reachable_robbed, rfl, rfl, ⟨rfl, fun _ hc => nomatch hc⟩, by decide⟩

end TokenRun

end QueryHost
