import QueryHost.Client.Idle
import QueryHost.Proofs.Constructions
import QueryHost.Proofs.ListParts

/-!
# Clients that are used again

Idle clients are kept by the address that they were opened for, and what a call does to the clients
of an address depends on these clients alone (`CountedClients.idle_call`). So an address never has
more of them than it may, never another one's, and a client is opened only where none is idle. The
counters count which of the two it was from their registration on, whatever else becomes of the
metrics (`CountedClients.Reachable.clients_used_again`).
-/

namespace QueryHost

variable {σ : Type}

namespace Metrics

variable {m m' : Metrics σ} {name help : String} {id : CounterId}

theorem registerCounter_cases (h : m.registerCounter name help = .ok (m', id)) :
    m.registered.contains name = false ∧ id = m.counters.length
      ∧ m'.counters = m.counters ++ [0]
      ∧ m'.registered = m.registered.put name ⟨help, .counter id⟩ := by
  unfold registerCounter at h
  cases hr : m.register name help (.counter m.counters.length) with
  | error f => simp [hr, bind, Except.bind] at h
  | ok n =>
    simp only [hr, bind, Except.bind, pure, Except.pure] at h
    obtain ⟨rfl, rfl⟩ := Prod.mk.inj (Except.ok.inj h)
    obtain ⟨hnew, rfl⟩ := register_cases hr
    exact ⟨hnew, rfl, rfl, rfl⟩

/-- Nobody counts on the counter, and where it is registered it stays so. -/
structure Spares (m m' : Metrics σ) (id : CounterId) : Prop where
  count : m'.counters[id]? = m.counters[id]?
  registered : ∀ name help, m.registered.get? name = some ⟨help, .counter id⟩ →
    m'.registered.get? name = some ⟨help, .counter id⟩

theorem Spares.refl (m : Metrics σ) (id : CounterId) : m.Spares m id := ⟨rfl, fun _ _ h => h⟩

theorem Spares.trans {m'' : Metrics σ} (h : m.Spares m' id) (h' : m'.Spares m'' id) :
    m.Spares m'' id :=
  ⟨h'.count.trans h.count, fun _ _ hget => h'.registered _ _ (h.registered _ _ hget)⟩

theorem spares_registerCounter {id' : CounterId} (h : m.registerCounter name help = .ok (m', id'))
    (hid : id < m.counters.length) : m.Spares m' id := by
  obtain ⟨hnew, -, hcounters, hregistered⟩ := registerCounter_cases h
  refine ⟨by rw [hcounters, List.getElem?_append_left hid], fun name' help' hget => ?_⟩
  rw [hregistered, Assoc.get?_put, if_neg, hget]
  rintro rfl
  simp [Assoc.contains, hget] at hnew

/-- Where the counters are initialized, a counter that there is already is let alone. -/
theorem spares_initMetrics (c : IdleClients) (m : Metrics σ) (name : String)
    (hid : id < m.counters.length) : m.Spares (c.initMetrics m name).2.1 id := by
  unfold IdleClients.initMetrics
  split
  · exact .refl m id
  · rename_i m₁ hits h₁
    have hspares := spares_registerCounter h₁ hid
    split
    · exact hspares
    · rename_i m₂ misses h₂
      have hid₁ : id < m₁.counters.length := by
        rw [(registerCounter_cases h₁).2.2.1, List.length_append]
        exact Nat.lt_add_right _ hid
      have hspares := hspares.trans (spares_registerCounter h₂ hid₁)
      split <;> exact hspares

theorem spares_increase {id' : CounterId} (n : Nat) (hid : id ≠ id') :
    m.Spares (m.increase id' n) id :=
  ⟨List.getElem?_modify_ne _ _ (Ne.symm hid), fun _ _ h => h⟩

theorem counters_increase (m : Metrics σ) (id : CounterId) (n : Nat) :
    (m.increase id n).counters[id]? = m.counters[id]?.map fun k => (k + n) % word64Count :=
  List.getElem?_modify_eq _ _ _

end Metrics

/-- Clients of a service with the metrics that they are counted in. -/
structure CountedClients (σ : Type) where
  clients : IdleClients
  metrics : Metrics σ

inductive ClientCall (σ : Type) where
  | get (a : Address)
  | release (a : Address) (client : ServiceClient)
  | close (a : Address)
  | shutdown
  | initMetrics (name : String)
  /-- Others have made these the metrics. -/
  | elsewhere (metrics : Metrics σ)

inductive ClientAnswer where
  /-- What is given to use, and whether one was idle. -/
  | served (reused : Bool) (r : Except Failure ServiceClient)
  | registered (r : Except Failure Unit)
  | done

/-- A call and what was answered. -/
abbrev ClientEvent (σ : Type) := ClientCall σ × ClientAnswer

namespace ClientCall

/-- Whether a call may do something to the idle clients of an address. -/
def Concerns (a : Address) : ClientCall σ → Prop
  | get b => b = a
  | release b _ => b = a
  | close b => b = a
  | shutdown => True
  | initMetrics _ => False
  | elsewhere _ => False

/-- What becomes of the idle clients of an address. -/
def leaves (limit : Nat) (a : Address) (idle : List ServiceClient) :
    ClientCall σ → List ServiceClient
  | get b => if b = a then idle.tail else idle
  | release b client => if b = a ∧ idle.length < limit then client :: idle else idle
  | close b => if b = a then [] else idle
  | shutdown => []
  | initMetrics _ => idle
  | elsewhere _ => idle

end ClientCall

namespace ClientEvent

def isHit : ClientEvent σ → Bool
  | (_, .served reused _) => reused
  | _ => false

def isMiss : ClientEvent σ → Bool
  | (_, .served reused _) => !reused
  | _ => false

end ClientEvent

namespace CountedClients

def idle (s : CountedClients σ) (a : Address) : List ServiceClient := s.clients.clients a

def call (s : CountedClients σ) : ClientCall σ → CountedClients σ × ClientAnswer
  | .get a =>
    let (clients, metrics, r) := s.clients.get s.metrics a
    (⟨clients, metrics⟩, .served (!(s.idle a).isEmpty) r)
  | .release a client => (⟨s.clients.release a client, s.metrics⟩, .done)
  | .close a => (⟨s.clients.close a, s.metrics⟩, .done)
  | .shutdown => (⟨s.clients.shutdown, s.metrics⟩, .done)
  | .initMetrics name =>
    let (clients, metrics, r) := s.clients.initMetrics s.metrics name
    (⟨clients, metrics⟩, .registered r)
  | .elsewhere metrics => (⟨s.clients, metrics⟩, .done)

/-- A client is released under an address that it was given for, and others leave the counters of
the clients alone. -/
def Allows (s : CountedClients σ) (events : List (ClientEvent σ)) : ClientCall σ → Prop
  | .release a client => ∃ reused, (.get a, .served reused (.ok client)) ∈ events
  | .elsewhere metrics => ∀ ids ∈ s.clients.counters,
      s.metrics.Spares metrics ids.hits ∧ s.metrics.Spares metrics ids.misses
  | _ => True

/-- The states that calls lead to, with the calls and their answers. -/
inductive Reachable (limit : Nat) : CountedClients σ → List (ClientEvent σ) → Prop
  | new (metrics : Metrics σ) : Reachable limit ⟨{ maxPerHost := limit }, metrics⟩ []
  | call {s : CountedClients σ} {events : List (ClientEvent σ)} (h : Reachable limit s events)
      (c : ClientCall σ) (hc : s.Allows events c) :
      Reachable limit (s.call c).1 (events ++ [(c, (s.call c).2)])

/-! ## One call -/

section Call

variable {s : CountedClients σ} {a b : Address} {client : ServiceClient}
  {rest : List ServiceClient}

theorem clients_put (c : IdleClients) (a b : Address) (l : List ServiceClient) :
    IdleClients.clients { c with idle := c.idle.put a l } b = if b = a then l else c.clients b := by
  unfold IdleClients.clients
  rw [Assoc.get?_put]
  split_ifs <;> rfl

theorem clients_initMetrics (c : IdleClients) (m : Metrics σ) (name : String) :
    (c.initMetrics m name).1.idle = c.idle
      ∧ (c.initMetrics m name).1.maxPerHost = c.maxPerHost := by
  unfold IdleClients.initMetrics
  split
  · exact ⟨rfl, rfl⟩
  · split
    · exact ⟨rfl, rfl⟩
    · split <;> exact ⟨rfl, rfl⟩

theorem get_of_idle (h : s.idle a = client :: rest) : s.call (.get a)
    = (⟨{ s.clients with idle := s.clients.idle.put a rest }, s.clients.count s.metrics (·.hits)⟩,
      .served true (.ok client)) := by
  have hclients : s.clients.clients a = client :: rest := h
  simp only [call, IdleClients.get, hclients, h]
  rfl

theorem get_of_none_idle (h : s.idle a = []) : s.call (.get a)
    = (⟨s.clients, s.clients.count s.metrics (·.misses)⟩,
      .served false (ServiceClient.open a)) := by
  have hclients : s.clients.clients a = [] := h
  simp only [call, IdleClients.get, hclients, h]
  rfl

theorem maxPerHost_call (s : CountedClients σ) (c : ClientCall σ) :
    (s.call c).1.clients.maxPerHost = s.clients.maxPerHost := by
  cases c with
  | get a =>
    cases h : s.idle a with
    | nil => rw [get_of_none_idle h]
    | cons client rest => rw [get_of_idle h]
  | initMetrics name => exact (clients_initMetrics s.clients s.metrics name).2
  | release | close | shutdown | elsewhere => rfl

/-- What a call leaves of the idle clients of an address depends on these clients alone. -/
theorem idle_call (s : CountedClients σ) (c : ClientCall σ) (a : Address) :
    (s.call c).1.idle a = c.leaves s.clients.maxPerHost a (s.idle a) := by
  cases c with
  | get b =>
    simp only [ClientCall.leaves, eq_comm (a := b)]
    cases h : s.idle b with
    | nil =>
      rw [get_of_none_idle h]
      split_ifs with hab
      · rw [hab, h]
        exact h
      · rfl
    | cons client rest =>
      rw [get_of_idle h]
      refine (clients_put s.clients b a rest).trans ?_
      split_ifs with hab
      · rw [hab, h]
        rfl
      · rfl
  | release b client =>
    refine (clients_put s.clients b a _).trans ?_
    simp only [ClientCall.leaves, eq_comm (a := b)]
    by_cases hab : a = b
    · subst hab
      simp [idle]
    · simp [hab, idle]
  | close b =>
    show IdleClients.clients (s.clients.close b) a = _
    unfold IdleClients.clients IdleClients.close
    simp only [ClientCall.leaves, Assoc.get?_erase, eq_comm (a := b)]
    split_ifs <;> rfl
  | shutdown => rfl
  | initMetrics name =>
    show IdleClients.clients (s.clients.initMetrics s.metrics name).1 a = _
    unfold IdleClients.clients
    rw [(clients_initMetrics s.clients s.metrics name).1]
    rfl
  | elsewhere metrics => rfl

end Call

/-! ## What runs keep -/

/-- No address has too many idle clients, and every client that was given or is idle belongs to the
address it is given or kept for. -/
structure Kept (limit : Nat) (s : CountedClients σ) (events : List (ClientEvent σ)) : Prop where
  limit_eq : s.clients.maxPerHost = limit
  few : ∀ a, (s.idle a).length ≤ limit
  own : ∀ a, ∀ client ∈ s.idle a, client.address = a
  given : ∀ a reused client, (.get a, .served reused (.ok client)) ∈ events → client.address = a

section Kept

variable {limit : Nat} {s : CountedClients σ} {events : List (ClientEvent σ)} {c : ClientCall σ}

/-- No call keeps more clients of an address than the limit. -/
theorem Kept.few_call (h : Kept limit s events) (c : ClientCall σ) (a : Address) :
    ((s.call c).1.idle a).length ≤ limit := by
  have hfew := h.few a
  rw [idle_call, h.limit_eq]
  cases c with
  | get b =>
    simp only [ClientCall.leaves]
    split_ifs
    · rw [List.length_tail]
      omega
    · exact hfew
  | release b client =>
    simp only [ClientCall.leaves]
    split_ifs with hroom
    · exact hroom.2
    · exact hfew
  | close b =>
    simp only [ClientCall.leaves]
    split_ifs
    · exact Nat.zero_le limit
    · exact hfew
  | shutdown => exact Nat.zero_le limit
  | initMetrics name => exact hfew
  | elsewhere metrics => exact hfew

/-- A client is kept by the address that it talks to. -/
theorem Kept.own_call (h : Kept limit s events) (hc : s.Allows events c) (a : Address) :
    ∀ client ∈ (s.call c).1.idle a, client.address = a := by
  intro client hmem
  rw [idle_call] at hmem
  cases c with
  | get b =>
    simp only [ClientCall.leaves] at hmem
    split_ifs at hmem
    · exact h.own a client (List.mem_of_mem_tail hmem)
    · exact h.own a client hmem
  | release b released =>
    simp only [ClientCall.leaves] at hmem
    split_ifs at hmem with hroom
    · rcases List.mem_cons.1 hmem with rfl | hmem
      · obtain ⟨reused, hgiven⟩ := hc
        exact hroom.1 ▸ h.given b reused client hgiven
      · exact h.own a client hmem
    · exact h.own a client hmem
  | close b =>
    simp only [ClientCall.leaves] at hmem
    split_ifs at hmem
    · exact nomatch hmem
    · exact h.own a client hmem
  | shutdown => exact nomatch hmem
  | initMetrics name => exact h.own a client hmem
  | elsewhere metrics => exact h.own a client hmem

/-- What is given is an idle client of the address, or a new one if there can be a service. -/
theorem Kept.get_answer (h : Kept limit s events) (a : Address) : ∃ reused r,
    (s.call (.get a)).2 = .served reused r ∧ (reused = true ↔ s.idle a ≠ [])
      ∧ (∀ client, r = .ok client → client.address = a
        ∧ (reused = true → s.idle a = client :: (s.call (.get a)).1.idle a))
      ∧ ((∃ f, r = .error f) ↔ s.idle a = [] ∧ (a.host = "" ∨ a.port = 0))
      ∧ ((∃ f, r = .error f) → (s.call (.get a)).1.clients = s.clients) := by
  cases hidle : s.idle a with
  | nil =>
    rw [get_of_none_idle hidle]
    refine ⟨false, _, rfl, by simp, fun client hr => ?_, ?_, fun _ => rfl⟩
    · unfold ServiceClient.open at hr
      split_ifs at hr
      obtain rfl := Except.ok.inj hr
      exact ⟨rfl, by simp⟩
    · unfold ServiceClient.open Address.isValid
      split_ifs with hvalid
      · simp_all
      · simp only [Except.error.injEq, exists_eq', true_and, true_iff]
        by_contra hno
        simp_all
  | cons client rest =>
    have hrest := idle_call s (.get a) a
    rw [get_of_idle hidle] at hrest ⊢
    simp only [ClientCall.leaves, hidle, if_pos, List.tail_cons] at hrest
    refine ⟨true, _, rfl, by simp, fun client' hr => ?_, by simp, by simp⟩
    obtain rfl := Except.ok.inj hr
    exact ⟨h.own a client (by simp [hidle]), fun _ => by rw [hrest]⟩

theorem Kept.call (h : Kept limit s events) (hc : s.Allows events c) :
    Kept limit (s.call c).1 (events ++ [(c, (s.call c).2)]) := by
  refine ⟨(maxPerHost_call s c).trans h.limit_eq, h.few_call c, h.own_call hc, ?_⟩
  intro a reused client hmem
  rcases List.mem_append.1 hmem with hmem | hmem
  · exact h.given a reused client hmem
  · obtain ⟨rfl, hanswer⟩ := Prod.mk.inj (List.mem_singleton.1 hmem)
    obtain ⟨_, r, hserved, -, hclient, -⟩ := h.get_answer a
    obtain ⟨-, hr⟩ := ClientAnswer.served.inj (hanswer.trans hserved)
    exact (hclient client hr.symm).1

theorem Reachable.kept (h : Reachable limit s events) : Kept limit s events := by
  induction h with
  | new metrics =>
    exact ⟨rfl, fun _ => Nat.zero_le limit, fun _ _ hmem => absurd hmem List.not_mem_nil,
      fun _ _ _ hmem => absurd hmem List.not_mem_nil⟩
  | call _ c hc ih => exact ih.call hc

end Kept

/-! ## What is counted -/

/-- The counters of the clients are registered under a name, and count these calls. -/
structure Counts (name : String) (s : CountedClients σ) (counted : List (ClientEvent σ))
    (ids : ClientCounters) : Prop where
  counters_eq : s.clients.counters = some ids
  hits_ne_misses : ids.hits ≠ ids.misses
  hits_registered : s.metrics.registered.get? (name ++ "_client_cache_hits_total")
    = some ⟨name ++ " client cache hits", .counter ids.hits⟩
  misses_registered : s.metrics.registered.get? (name ++ "_client_cache_misses_total")
    = some ⟨name ++ " client cache misses", .counter ids.misses⟩
  hits : s.metrics.counters[ids.hits]? = some (counted.countP ClientEvent.isHit % word64Count)
  misses : s.metrics.counters[ids.misses]?
    = some (counted.countP ClientEvent.isMiss % word64Count)

section Counts

variable {name : String} {s t : CountedClients σ} {counted events : List (ClientEvent σ)}
  {ids : ClientCounters} {e : ClientEvent σ} {c : ClientCall σ}

/-- Nothing is counted that spares both counters. -/
theorem Counts.spared (h : Counts name s counted ids)
    (hcounters : t.clients.counters = s.clients.counters)
    (hhits : s.metrics.Spares t.metrics ids.hits)
    (hmisses : s.metrics.Spares t.metrics ids.misses)
    (hhit : ClientEvent.isHit e = false) (hmiss : ClientEvent.isMiss e = false) :
    Counts name t (counted ++ [e]) ids where
  counters_eq := hcounters.trans h.counters_eq
  hits_ne_misses := h.hits_ne_misses
  hits_registered := hhits.registered _ _ h.hits_registered
  misses_registered := hmisses.registered _ _ h.misses_registered
  hits := by simp [hhits.count, h.hits, hhit]
  misses := by simp [hmisses.count, h.misses, hmiss]

theorem Counts.get (h : Counts name s counted ids) (a : Address) :
    Counts name (s.call (.get a)).1 (counted ++ [(.get a, (s.call (.get a)).2)]) ids := by
  have hcount : ∀ which, s.clients.count s.metrics which = s.metrics.increase (which ids) 1 := by
    intro which
    unfold IdleClients.count
    rw [h.counters_eq]
  cases hidle : s.idle a with
  | nil =>
    have hspared := s.metrics.spares_increase 1 h.hits_ne_misses
    rw [get_of_none_idle hidle, hcount]
    refine ⟨h.counters_eq, h.hits_ne_misses, h.hits_registered, h.misses_registered, ?_, ?_⟩
    · simp [hspared.count, h.hits, ClientEvent.isHit]
    · simp [Metrics.counters_increase, h.misses, ClientEvent.isMiss]
  | cons client rest =>
    have hspared := s.metrics.spares_increase 1 h.hits_ne_misses.symm
    rw [get_of_idle hidle, hcount]
    refine ⟨h.counters_eq, h.hits_ne_misses, h.hits_registered, h.misses_registered, ?_, ?_⟩
    · simp [Metrics.counters_increase, h.hits, ClientEvent.isHit]
    · simp [hspared.count, h.misses, ClientEvent.isMiss]

theorem counters_initMetrics (c : IdleClients) (m : Metrics σ) (name : String)
    (h : c.counters ≠ none) : (c.initMetrics m name).1 = c := by
  unfold IdleClients.initMetrics
  split
  · rfl
  · split
    · rfl
    · split
      · rfl
      · rename_i hnone
        exact absurd hnone h

/-- Every call keeps the counters right (`Counts`). -/
theorem Counts.call (h : Counts name s counted ids) (hc : s.Allows events c) :
    Counts name (s.call c).1 (counted ++ [(c, (s.call c).2)]) ids := by
  have hlt : ∀ {id : CounterId} {n : Nat}, s.metrics.counters[id]? = some n →
      id < s.metrics.counters.length := fun hget => (List.getElem?_eq_some_iff.1 hget).1
  cases c with
  | get a => exact h.get a
  | initMetrics name' =>
    have hclients := counters_initMetrics s.clients s.metrics name' (by simp [h.counters_eq])
    exact h.spared (congrArg (·.counters) hclients)
      (Metrics.spares_initMetrics _ _ _ (hlt h.hits))
      (Metrics.spares_initMetrics _ _ _ (hlt h.misses)) rfl rfl
  | elsewhere metrics =>
    obtain ⟨hhits, hmisses⟩ := hc ids h.counters_eq
    exact h.spared rfl hhits hmisses rfl rfl
  | release a client => exact h.spared rfl (.refl _ _) (.refl _ _) rfl rfl
  | close a => exact h.spared rfl (.refl _ _) (.refl _ _) rfl rfl
  | shutdown => exact h.spared rfl (.refl _ _) (.refl _ _) rfl rfl

/-- If `initMetrics` succeeds, it has registered the counter of the hits and then that of the
misses. -/
theorem initMetrics_ok {c : IdleClients} {m : Metrics σ}
    (h : (c.initMetrics m name).2.2 = .ok ()) : ∃ m₁ m₂ hits misses,
      m.registerCounter (name ++ "_client_cache_hits_total") (name ++ " client cache hits")
        = .ok (m₁, hits)
      ∧ m₁.registerCounter (name ++ "_client_cache_misses_total") (name ++ " client cache misses")
        = .ok (m₂, misses)
      ∧ c.initMetrics m name = ({ c with counters := some ⟨hits, misses⟩ }, m₂, .ok ()) := by
  unfold IdleClients.initMetrics at h ⊢
  split at h
  · exact nomatch h
  · rename_i m₁ hits h₁
    split at h
    · exact nomatch h
    · rename_i m₂ misses h₂
      split at h
      · exact nomatch h
      · exact ⟨m₁, m₂, hits, misses, h₁, h₂, by simp only []⟩

/-- Counting begins where the counters are initialized. -/
theorem counts_initMetrics (h : (s.call (.initMetrics name)).2 = .registered (.ok ())) :
    ∃ ids, Counts name (s.call (.initMetrics name)).1 [] ids := by
  obtain ⟨m₁, m₂, hits, misses, h₁, h₂, hinit⟩ := initMetrics_ok (ClientAnswer.registered.inj h)
  obtain ⟨-, hhits, hcounters₁, hregistered₁⟩ := Metrics.registerCounter_cases h₁
  obtain ⟨-, hmisses, hcounters₂, hregistered₂⟩ := Metrics.registerCounter_cases h₂
  have hlt : hits < m₁.counters.length := by
    rw [hhits, hcounters₁, List.length_append]
    exact Nat.lt_add_one _
  have hspared := Metrics.spares_registerCounter h₂ hlt
  have hstate : (s.call (.initMetrics name)).1
      = ⟨{ s.clients with counters := some ⟨hits, misses⟩ }, m₂⟩ := by
    simp only [CountedClients.call, hinit]
  rw [hstate]
  refine ⟨⟨hits, misses⟩, rfl, Nat.ne_of_lt (hmisses ▸ hlt), hspared.registered _ _ ?_, ?_, ?_, ?_⟩
  · rw [hregistered₁, Assoc.get?_put, if_pos rfl]
  · rw [hregistered₂, Assoc.get?_put, if_pos rfl]
  · rw [hspared.count, hcounters₁, hhits]
    simp
  · rw [hcounters₂, hmisses]
    simp

/-- From a registration on, the counters tell what was counted (`Counts`). -/
theorem Reachable.counts {limit : Nat} (h : Reachable limit s events) :
    ∀ {before after : List (ClientEvent σ)} {name : String},
      events = before ++ (.initMetrics name, .registered (.ok ())) :: after →
        ∃ ids, Counts name s after ids := by
  induction h with
  | new metrics => simp
  | call _ c hc ih =>
    intro before after name hsplit
    rcases append_eq_append_cons hsplit with ⟨mid, hevents, rfl⟩ | ⟨mid, rfl, hlast⟩
    · obtain ⟨ids, hcounts⟩ := ih hevents
      exact ⟨ids, hcounts.call hc⟩
    · cases mid with
      | nil =>
        obtain ⟨hsame, rfl⟩ := List.cons.inj hlast
        obtain ⟨rfl, hanswer⟩ := Prod.mk.inj hsame
        exact counts_initMetrics hanswer
      | cons e mid => simp at hlast

end Counts

/-! ## The main statement -/

/-- After any calls no address has more idle clients than it may. A client that is given belongs to
the address; it is an idle one exactly if there is one, and a refusal, which changes no client, is
for an address where none is idle and no service can be. A client that is released is kept while
there is room, and no call reaches the clients of another address. Since the counters were
initialized, they count the clients that were used again and all other ones that were asked for, in
words of 64 bits. -/
theorem Reachable.clients_used_again {limit : Nat} {s : CountedClients σ}
    {events : List (ClientEvent σ)} (h : Reachable limit s events) :
    (∀ a, (s.idle a).length ≤ limit)
      ∧ (∀ a, ∃ reused r, (s.call (.get a)).2 = .served reused r
        ∧ (reused = true ↔ s.idle a ≠ [])
        ∧ (∀ client, r = .ok client → client.address = a
          ∧ (reused = true → s.idle a = client :: (s.call (.get a)).1.idle a))
        ∧ ((∃ f, r = .error f) ↔ s.idle a = [] ∧ (a.host = "" ∨ a.port = 0))
        ∧ ((∃ f, r = .error f) → (s.call (.get a)).1.clients = s.clients))
      ∧ (∀ a client, (s.call (.release a client)).1.idle a
        = if (s.idle a).length < limit then client :: s.idle a else s.idle a)
      ∧ (∀ (c : ClientCall σ) a, ¬c.Concerns a → (s.call c).1.idle a = s.idle a)
      ∧ ∀ before name after,
        events = before ++ (.initMetrics name, .registered (.ok ())) :: after →
          ∃ ids, s.clients.counters = some ids
            ∧ s.metrics.registered.get? (name ++ "_client_cache_hits_total")
              = some ⟨name ++ " client cache hits", .counter ids.hits⟩
            ∧ s.metrics.registered.get? (name ++ "_client_cache_misses_total")
              = some ⟨name ++ " client cache misses", .counter ids.misses⟩
            ∧ s.metrics.counterValue ids.hits = after.countP ClientEvent.isHit % word64Count
            ∧ s.metrics.counterValue ids.misses
              = after.countP ClientEvent.isMiss % word64Count := by
  have hkept := h.kept
  refine ⟨hkept.few, hkept.get_answer, fun a client => ?_, fun c a hc => ?_,
    fun before name after hsplit => ?_⟩
  · rw [idle_call, hkept.limit_eq]
    simp only [ClientCall.leaves, true_and]
  · rw [idle_call]
    cases c with
    | get b => exact if_neg hc
    | release b client => exact if_neg fun hroom => hc hroom.1
    | close b => exact if_neg hc
    | shutdown => exact absurd trivial hc
    | initMetrics name => rfl
    | elsewhere metrics => rfl
  · obtain ⟨ids, hcounts⟩ := h.counts hsplit
    refine ⟨ids, hcounts.counters_eq, hcounts.hits_registered, hcounts.misses_registered, ?_, ?_⟩
    · rw [Metrics.counterValue, List.getD_eq_getElem?_getD, hcounts.hits]
      rfl
    · rw [Metrics.counterValue, List.getD_eq_getElem?_getD, hcounts.misses]
      rfl

/-- Where one client of an address may be idle. -/
def narrowClients : CountedClients Unit := ⟨{ maxPerHost := 1 }, {}⟩

/-- Of two clients that are released one is kept, and given again; nothing is at the port 0. -/
theorem clients_used_again_narrow : ∃ (s : CountedClients Unit) (after : List (ClientEvent Unit)),
    Reachable 1 s ((.initMetrics "backend", .registered (.ok ())) :: after)
      ∧ (s.idle ⟨"be", 9060⟩).length ≤ 1
      ∧ ∃ ids, s.clients.counters = some ids ∧ s.metrics.counterValue ids.hits = 1
        ∧ s.metrics.counterValue ids.misses = 3 := by
  have hnew : Reachable 1 narrowClients [] := .new {}
  have hgiven :=
    ((hnew.call (.initMetrics "backend") trivial).call (.get ⟨"be", 9060⟩) trivial).call
      (.get ⟨"be", 9060⟩) trivial
  have hreleased := hgiven.call (.release ⟨"be", 9060⟩ ⟨⟨"be", 9060⟩⟩)
    ⟨false, List.mem_append_right _ (List.mem_singleton_self _)⟩
  have hdropped := hreleased.call (.release ⟨"be", 9060⟩ ⟨⟨"be", 9060⟩⟩)
    ⟨false, List.mem_append_left _ (List.mem_append_right _ (List.mem_singleton_self _))⟩
  have hused := (hdropped.call (.get ⟨"be", 9060⟩) trivial).call (.get ⟨"be", 0⟩) trivial
  obtain ⟨hfew, -, -, -, hcounts⟩ := hused.clients_used_again
  obtain ⟨ids, hids, -, -, hhits, hmisses⟩ := hcounts [] "backend" _ rfl
  exact ⟨_, _, hused, hfew _, ids, hids, hhits.trans rfl, hmisses.trans rfl⟩

end CountedClients

end QueryHost
