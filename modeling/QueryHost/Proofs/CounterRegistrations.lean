import Mathlib.Tactic.Common
import QueryHost.Proofs.AssocRows
import QueryHost.Proofs.ClientReuse

/-!
# What a failed registration leaves

A metric is registered unless its description is at fault, its name is registered, or the name once
had another help text; a registration that is refused leaves the metrics as they were
(`Metrics.registerCounter_eq`). The clients of a service register two counters one after the
other, and look only then whether they have counters already. So if this fails, the clients and what
was counted are as before, but the names are only if the first counter was refused
(`IdleClients.initAtomic_iff`): else it stays registered, and so does the second one where the
clients turn out to have theirs.
-/

namespace QueryHost

variable {σ : Type}

namespace Metrics

/-- Why nothing can be registered under a name with a help text. -/
def Refuses (m : Metrics σ) (name help : String) : Prop :=
  m.library.describe? name help ≠ none ∨ m.registered.contains name = true
    ∨ (m.helps.get? name).any (· != help) = true

instance (m : Metrics σ) (name help : String) : Decidable (m.Refuses name help) :=
  inferInstanceAs (Decidable (_ ∨ _ ∨ _))

/-- The metrics with one counter more. -/
def withCounter (m : Metrics σ) (name help : String) : Metrics σ :=
  { m with
    counters := m.counters ++ [0]
    registered := m.registered.put name ⟨help, .counter m.counters.length⟩
    helps := m.helps.put name help }

section Registration

variable {m : Metrics σ} {name help : String}

theorem registerCounter_eq (m : Metrics σ) (name help : String) :
    (m.Refuses name help ∧ ∃ failure, m.registerCounter name help = .error failure)
      ∨ (¬ m.Refuses name help
        ∧ m.registerCounter name help = .ok (m.withCounter name help, m.counters.length)) := by
  unfold registerCounter register Refuses
  cases hfault : m.library.describe? name help with
  | some fault => exact .inl ⟨.inl (by simp), _, rfl⟩
  | none =>
    dsimp only
    split_ifs with hname hhelp
    · exact .inl ⟨.inr (.inl hname), _, rfl⟩
    · exact .inl ⟨.inr (.inr hhelp), _, rfl⟩
    · exact .inr ⟨by simp [hname, hhelp], rfl⟩

/-- A counter under another name changes nothing of what is refused. -/
theorem refuses_withCounter {name' help' : String} (h : name' ≠ name) :
    (m.withCounter name help).Refuses name' help' ↔ m.Refuses name' help' := by
  simp only [Refuses, withCounter, Assoc.contains, Assoc.get?_put, if_neg h]

theorem names_perm (m : Metrics σ) : m.names.Perm m.registered.keys := List.mergeSort_perm _ _

theorem names_withCounter (h : ¬ m.Refuses name help) :
    (m.withCounter name help).names.Perm (m.names ++ [name]) := by
  have hnew : name ∉ m.registered.keys := fun hname =>
    h (.inr (.inl (by rw [Assoc.contains_eq_decide, decide_eq_true hname])))
  have hkeys : (m.withCounter name help).registered.keys = m.registered.keys ++ [name] := by
    rw [withCounter, Assoc.keys_put, if_neg hnew]
  exact (hkeys ▸ names_perm _).trans (m.names_perm.symm.append_right _)

end Registration

end Metrics

/-! ## The counters of a service -/

/-- The names and help texts of the counters of a service. -/
def hitsName (service : String) : String := service ++ "_client_cache_hits_total"
def hitsHelp (service : String) : String := service ++ " client cache hits"
def missesName (service : String) : String := service ++ "_client_cache_misses_total"
def missesHelp (service : String) : String := service ++ " client cache misses"

/-- The metrics with both counters of a service more. -/
def Metrics.withClientCounters (m : Metrics σ) (service : String) : Metrics σ :=
  (m.withCounter (hitsName service) (hitsHelp service)).withCounter (missesName service)
    (missesHelp service)

namespace IdleClients

open Metrics

/-- What a call leaves if it fails is what was there before. -/
def InitAtomic (c : IdleClients) (m : Metrics σ) (service : String) : Prop :=
  ∀ failure, (c.initMetrics m service).2.2 = .error failure →
    (c.initMetrics m service).2.1.names = m.names
      ∧ (c.initMetrics m service).1.counters = c.counters
      ∧ ∀ id < m.counters.length, (c.initMetrics m service).2.1.counterValue id = m.counterValue id

/-- The names that a call has registered where it fails. -/
def leftNames (m : Metrics σ) (service : String) : List String :=
  if m.Refuses (hitsName service) (hitsHelp service) then []
  else if m.Refuses (missesName service) (missesHelp service) then [hitsName service]
  else [hitsName service, missesName service]

section Init

variable {c : IdleClients} {m : Metrics σ} {service : String}

theorem missesName_ne (service : String) : missesName service ≠ hitsName service := by
  intro h
  have hlength := congrArg String.length h
  simp only [missesName, hitsName, String.length_append, Nat.add_left_cancel_iff] at hlength
  exact absurd hlength (by decide)

/-- The second counter finds the metrics with the first one. -/
theorem registerMisses_eq (m : Metrics σ) (service : String) :
    (m.Refuses (missesName service) (missesHelp service)
        ∧ ∃ failure, (m.withCounter (hitsName service) (hitsHelp service)).registerCounter
          (missesName service) (missesHelp service) = .error failure)
      ∨ (¬ m.Refuses (missesName service) (missesHelp service)
        ∧ (m.withCounter (hitsName service) (hitsHelp service)).registerCounter
          (missesName service) (missesHelp service)
          = .ok (m.withClientCounters service, m.counters.length + 1)) := by
  have h := registerCounter_eq (m.withCounter (hitsName service) (hitsHelp service))
    (missesName service) (missesHelp service)
  rw [refuses_withCounter (missesName_ne service)] at h
  simpa [withClientCounters, withCounter] using h

/-! ### Where a call fails -/

theorem initMetrics_of_hits (c : IdleClients)
    (h : m.Refuses (hitsName service) (hitsHelp service)) :
    ∃ failure, c.initMetrics m service = (c, m, .error failure) := by
  rcases registerCounter_eq m (hitsName service) (hitsHelp service) with ⟨-, failure, hhits⟩ | hno
  · unfold hitsName hitsHelp at hhits
    exact ⟨failure, by simp only [initMetrics, hhits]⟩
  · exact absurd h hno.1

theorem initMetrics_of_misses (c : IdleClients)
    (h : ¬ m.Refuses (hitsName service) (hitsHelp service))
    (h' : m.Refuses (missesName service) (missesHelp service)) :
    ∃ failure, c.initMetrics m service
      = (c, m.withCounter (hitsName service) (hitsHelp service), .error failure) := by
  have hhits := ((registerCounter_eq m _ _).resolve_left fun hyes => h hyes.1).2
  obtain ⟨-, failure, hmisses⟩ :=
    (registerMisses_eq m service).resolve_right fun hno => hno.1 h'
  unfold missesName missesHelp at hmisses
  unfold hitsName hitsHelp at hhits hmisses
  exact ⟨failure, by simp only [initMetrics, hhits, hmisses, hitsName, hitsHelp]⟩

/-- With both counters registered, all depends on whether the clients have theirs. -/
theorem initMetrics_of_both (c : IdleClients)
    (h : ¬ m.Refuses (hitsName service) (hitsHelp service))
    (h' : ¬ m.Refuses (missesName service) (missesHelp service)) :
    (c.counters ≠ none ∧ ∃ failure, c.initMetrics m service
        = (c, m.withClientCounters service, .error failure))
      ∨ (c.counters = none ∧ (c.initMetrics m service).2.2 = .ok ()) := by
  have hhits := ((registerCounter_eq m _ _).resolve_left fun hyes => h hyes.1).2
  have hmisses := ((registerMisses_eq m service).resolve_left fun hyes => h' hyes.1).2
  unfold missesName missesHelp at hmisses
  unfold hitsName hitsHelp at hhits hmisses
  cases hc : c.counters with
  | some ids => exact .inl ⟨by simp, _, by simp only [initMetrics, hhits, hmisses, hc]; rfl⟩
  | none => exact .inr ⟨rfl, by simp only [initMetrics, hhits, hmisses, hc]⟩

/-- A call that fails has registered the counters that were not refused, and else done nothing. -/
theorem of_initMetrics_error {failure : Failure}
    (h : (c.initMetrics m service).2.2 = .error failure) :
    (c.initMetrics m service).1 = c
      ∧ (c.initMetrics m service).2.1.names.Perm (m.names ++ leftNames m service) := by
  unfold leftNames
  split_ifs with hhits hmisses
  · obtain ⟨failure, hcall⟩ := initMetrics_of_hits c hhits
    exact ⟨by rw [hcall], by rw [hcall, List.append_nil]⟩
  · obtain ⟨failure, hcall⟩ := initMetrics_of_misses c hhits hmisses
    exact ⟨by rw [hcall], by rw [hcall]; exact names_withCounter hhits⟩
  · rcases initMetrics_of_both c hhits hmisses with ⟨-, failure, hcall⟩ | ⟨-, hok⟩
    · refine ⟨by rw [hcall], ?_⟩
      have hsecond : ¬ (m.withCounter (hitsName service) (hitsHelp service)).Refuses
          (missesName service) (missesHelp service) := fun hno =>
        hmisses ((refuses_withCounter (missesName_ne service)).1 hno)
      rw [hcall]
      refine (names_withCounter hsecond).trans ?_
      simpa using (names_withCounter hhits).append_right [missesName service]
    · rw [hok] at h
      exact nomatch h

theorem leftNames_eq_nil_iff :
    leftNames m service = [] ↔ m.Refuses (hitsName service) (hitsHelp service) := by
  unfold leftNames
  split_ifs <;> simp_all

/-- A call fails exactly if a counter is refused or the clients have theirs. -/
theorem initMetrics_ok_iff : (c.initMetrics m service).2.2 = .ok ()
    ↔ ¬ m.Refuses (hitsName service) (hitsHelp service)
      ∧ ¬ m.Refuses (missesName service) (missesHelp service) ∧ c.counters = none := by
  by_cases hhits : m.Refuses (hitsName service) (hitsHelp service)
  · obtain ⟨failure, hcall⟩ := initMetrics_of_hits c hhits
    simp [hcall, hhits]
  by_cases hmisses : m.Refuses (missesName service) (missesHelp service)
  · obtain ⟨failure, hcall⟩ := initMetrics_of_misses c hhits hmisses
    simp [hcall, hmisses]
  rcases initMetrics_of_both c hhits hmisses with ⟨hc, failure, hcall⟩ | ⟨hc, hok⟩
  · simp [hcall, hc]
  · simp [hok, hhits, hmisses, hc]

end Init

/-- A call that fails leaves the clients and all counts as they were, and registers the counters up
to the one that is refused. So the names that are registered stay the same exactly if it does not
fail, or fails at the first counter. -/
theorem initAtomic_iff (c : IdleClients) (m : Metrics σ) (service : String) :
    (InitAtomic c m service ↔ m.Refuses (hitsName service) (hitsHelp service)
        ∨ (¬ m.Refuses (missesName service) (missesHelp service) ∧ c.counters = none))
      ∧ ∀ failure, (c.initMetrics m service).2.2 = .error failure →
        (c.initMetrics m service).1 = c
        ∧ (∀ id < m.counters.length,
          (c.initMetrics m service).2.1.counterValue id = m.counterValue id)
        ∧ (c.initMetrics m service).2.1.names.Perm (m.names ++ leftNames m service) := by
  have hcounts : ∀ id < m.counters.length,
      (c.initMetrics m service).2.1.counterValue id = m.counterValue id := fun id hid => by
    unfold counterValue
    rw [List.getD_eq_getElem?_getD, List.getD_eq_getElem?_getD,
      (spares_initMetrics c m service hid).count]
  refine ⟨⟨fun hatomic => ?_, fun hcond failure hfailed => ?_⟩, fun failure hfailed => ?_⟩
  · by_cases hok : (c.initMetrics m service).2.2 = .ok ()
    · exact .inr (initMetrics_ok_iff.1 hok).2
    · cases hr : (c.initMetrics m service).2.2 with
      | ok u => exact absurd hr hok
      | error failure =>
        have hperm := (of_initMetrics_error hr).2
        have hlength := hperm.length_eq
        rw [(hatomic failure hr).1, List.length_append] at hlength
        exact .inl (leftNames_eq_nil_iff.1 (List.length_eq_zero_iff.1 (by omega)))
  · have hhits : m.Refuses (hitsName service) (hitsHelp service) := by
      by_contra hhits
      have hok := initMetrics_ok_iff.2 ⟨hhits, hcond.resolve_left hhits⟩
      rw [hok] at hfailed
      exact nomatch hfailed
    obtain ⟨failure, hcall⟩ := initMetrics_of_hits c hhits
    exact ⟨by rw [hcall], by rw [hcall], hcounts⟩
  · obtain ⟨hsame, hnames⟩ := of_initMetrics_error hfailed
    exact ⟨hsame, hcounts, hnames⟩

/-- Clients whose counters are registered for one service. -/
def countedOnce : IdleClients × Metrics Unit :=
  let first := IdleClients.initMetrics { maxPerHost := 1 } ({} : Metrics Unit) "a"
  (first.1, first.2.1)

/-- To register the counters of other clients for another service fails, and both are there. -/
theorem init_not_atomic :
    ¬ ∀ (c : IdleClients) (m : Metrics Unit) (service : String), InitAtomic c m service := by
  intro h
  have hperm : (countedOnce.1.initMetrics countedOnce.2 "b").2.1.names.Perm
      (countedOnce.2.names ++ leftNames countedOnce.2 "b") := (of_initMetrics_error rfl).2
  have hlength := hperm.length_eq
  have hleft : (leftNames countedOnce.2 "b").length = 2 := by rfl
  rw [(h countedOnce.1 countedOnce.2 "b" _ rfl).1, List.length_append] at hlength
  omega

theorem initAtomic_iff_renamed :
    ((countedOnce.1.initMetrics countedOnce.2 "b").2.2
        = .error (.internal "b client cache metrics already registered"))
      ∧ (countedOnce.1.initMetrics countedOnce.2 "b").1 = countedOnce.1
      ∧ (countedOnce.1.initMetrics countedOnce.2 "b").2.1.names.Perm
        (countedOnce.2.names ++ ["b_client_cache_hits_total", "b_client_cache_misses_total"]) := by
  have hfailed : (countedOnce.1.initMetrics countedOnce.2 "b").2.2
      = .error (.internal "b client cache metrics already registered") := by rfl
  obtain ⟨hsame, -, hnames⟩ := (initAtomic_iff countedOnce.1 countedOnce.2 "b").2 _ hfailed
  exact ⟨hfailed, hsame, hnames⟩

end IdleClients

end QueryHost
