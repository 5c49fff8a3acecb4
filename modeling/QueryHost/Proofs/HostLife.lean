import Mathlib.Data.List.Induction
import QueryHost.Host.Environment
import QueryHost.Proofs.Calls
import QueryHost.Proofs.Constructions

/-!
# The life of a host

Calls of `init` and `destroy` come in any order. What each does to the environment is known by its
phase (`Environment.Begins`, `Environment.destroy_cases`). Every subsystem that is adopted is shut
down again, once and in the reverse order: by the `init` that adopted it if that fails, and by the
`destroy` that follows otherwise. So between two calls the scene has seen rounds of adoptions and
shutdowns, and then the adoptions of the subsystems that live (`Host.Sound`). What was shut down is
down (`Subsystem.IsDown`).
-/

namespace QueryHost

namespace Environment

/-- What an environment is made from; nothing has been done with it. -/
def fresh (config : Config) (memory : MemInfo) (capability : HookCapability) : Environment :=
  { config, memory, capability }

/-! ## The index of the stores -/

/-- The last position of a store in a list. -/
def LastAt (stores : List String) (p : String) (i : Nat) : Prop :=
  stores[i]? = some p ∧ ∀ j, i < j → stores[j]? ≠ some p

theorem indexStores_append (stores : List String) (p : String) :
    indexStores (stores ++ [p]) = (indexStores stores).put p stores.length := by
  simp [indexStores, List.zipIdx_append, List.foldl_append]

theorem LastAt.lt_length {stores : List String} {p : String} {i : Nat} (h : LastAt stores p i) :
    i < stores.length := (List.getElem?_eq_some_iff.1 h.1).1

theorem lastAt_append_self (stores : List String) (p : String) (i : Nat) :
    LastAt (stores ++ [p]) p i ↔ i = stores.length := by
  constructor
  · intro h
    have hlt := h.lt_length
    by_contra hne
    have hlast : stores.length ≤ i := by
      by_contra hlt'
      exact h.2 stores.length (by omega) (by simp : (stores ++ [p])[stores.length]? = some p)
    simp only [List.length_append, List.length_singleton] at hlt
    omega
  · rintro rfl
    refine ⟨by simp, fun j hj => ?_⟩
    simp [List.getElem?_append_right (Nat.le_of_lt hj), Nat.sub_ne_zero_of_lt hj]

theorem lastAt_append_of_ne {stores : List String} {p q : String} (h : p ≠ q) (i : Nat) :
    LastAt (stores ++ [q]) p i ↔ LastAt stores p i := by
  have hget : ∀ j : Nat, (stores ++ [q])[j]? = some p ↔ stores[j]? = some p := by
    intro j
    rw [List.getElem?_append]
    split
    · rfl
    · rename_i hle
      have hnone : stores[j]? = none := List.getElem?_eq_none (by omega)
      rw [hnone, List.getElem?_singleton]
      split <;> simp [h.symm]
  simp only [LastAt, hget, ne_eq]

theorem get?_indexStores (stores : List String) (p : String) (i : Nat) :
    (indexStores stores).get? p = some i ↔ LastAt stores p i := by
  induction stores using List.reverseRecOn with
  | nil => simp [indexStores, LastAt]
  | append_singleton stores q ih =>
    rw [indexStores_append, Assoc.get?_put]
    split
    · rename_i hpq
      rw [hpq, lastAt_append_self, Option.some.injEq, eq_comm]
    · rename_i hpq
      rw [ih, lastAt_append_of_ne hpq]

theorem get?_indexStores_eq_none (stores : List String) (p : String) :
    (indexStores stores).get? p = none ↔ p ∉ stores := by
  induction stores using List.reverseRecOn with
  | nil => simp [indexStores]
  | append_singleton stores q ih =>
    rw [indexStores_append, Assoc.get?_put]
    split
    · rename_i hpq
      simp [hpq]
    · rename_i hpq
      simp [ih, hpq]

/-! ## What a call does -/

/-- The subsystems that live, in the order of their adoption. -/
def subsystems (e : Environment) : List Subsystem := e.scope.entries.map (·.subsystem)

/-- What `init` does, with the environment, the scene and the answer that it gives. -/
inductive Begins (e : Environment) (stores : List String) (s : Scene) :
    Environment → Scene → Except Failure Unit → Prop
  | again : e.phase = .initialized → Begins e stores s e s (.ok ())
  | late : e.phase = .destroyed → Begins e stores s e s (.error .alreadyDestroyed)
  | rejected {f : Failure} : e.phase = .uninitialized → Begins e stores s e s (.error f)
  | failed {f : Failure} {parts : Resources} {site : Site} : e.phase = .uninitialized →
      Site.Grows (Blueprint.subsystemOrder.take 8) Blueprint.subsystemOrder
        { scene := s, parts, metrics := e.metrics } site →
      Begins e stores s (e.abandon site f).1 (e.abandon site f).2 (.error f)
  | built {parts : Resources} {site : Site} {line : String} : e.phase = .uninitialized →
      Site.Grows (Blueprint.subsystemOrder.take 8) Blueprint.subsystemOrder
        { scene := s, parts, metrics := e.metrics } site →
      Begins e stores s
        { e with
          phase := .initialized
          stores
          storeIndex := indexStores stores
          metrics := site.metrics
          resources := some site.parts
          scope := site.scope }
        { site.scene with log := site.scene.log ++ [.info line] } (.ok ())

/-- `init` begins a life, fails, or refuses (`Begins`). -/
theorem begins_init (e : Environment) (m : Machine) (stores : List String) (s : Scene) :
    Begins e stores s (e.init m stores s).1 (e.init m stores s).2.1 (e.init m stores s).2.2 := by
  unfold init
  split
  · rename_i hp
    exact .again hp
  · rename_i hp
    exact .late hp
  · rename_i hp
    split
    · exact .rejected hp
    · have hgrows := Blueprint.adopts_build ⟨e.config, e.memory, e.capability, m, stores⟩
        { scene := s
          parts := Blueprint.parts ⟨e.config, e.memory, e.capability, m, stores⟩
          metrics := e.metrics }
      simp only []
      split <;> rename_i hrun <;> rw [hrun] at hgrows
      · exact .failed hp hgrows
      · exact .built hp hgrows

theorem map_shutdownOrder (s : Scope Subsystem) :
    s.shutdownOrder.map (·.subsystem) = (s.entries.map (·.subsystem)).reverse :=
  List.map_reverse

/-- A construction that has failed shuts down what it has adopted. -/
theorem lives_abandon (e : Environment) (site : Site) (f : Failure) :
    (e.abandon site f).2.lives = site.scene.lives ++ site.subsystems.reverse.map .shutDown := by
  simp only [abandon, lives_releaseAll, Site.subsystems, ← map_shutdownOrder, List.map_map,
    Function.comp_def]

theorem isDown_abandon (e : Environment) (site : Site) (f : Failure) {x : Subsystem}
    (hx : x ∈ site.subsystems) : ∃ r, (e.abandon site f).1.remains = some r
      ∧ x.IsDown r (e.abandon site f).2.accounts := by
  obtain ⟨entry, hentry, rfl⟩ := List.mem_map.1 hx
  exact ⟨_, rfl, isDown_releaseAll [] _ _ (List.mem_reverse.2 hentry)⟩

/-- What is left by the end of a host with these parts. -/
structure Ended (e : Environment) (s : Scene) (parts : Resources) (e' : Environment) (s' : Scene) :
    Prop where
  env : ∃ remains, e' = { e with
    phase := .destroyed
    metrics := e.metrics.deregisterAll
    resources := none
    scope := {}
    remains := some remains }
  lives : s'.lives = s.lives ++ e.subsystems.reverse.map .shutDown
  /-- The parts and the accounts are as the shutdowns have left them. -/
  remains : e'.remains.map (·, s'.accounts)
    = some (shutDownAll e.subsystems.reverse (parts, s.accounts))

/-- `destroy` does nothing, or ends the life of a host that is up (`Ended`). -/
theorem destroy_cases (e : Environment) (held : List TrackerId) (s : Scene) :
    ((e.phase ≠ .initialized ∨ e.resources = none) ∧ e.destroy held s = (e, s))
      ∨ ∃ parts, e.phase = .initialized ∧ e.resources = some parts
        ∧ e.Ended s parts (e.destroy held s).1 (e.destroy held s).2 := by
  unfold destroy
  split
  · rename_i parts hp hr
    refine .inr ⟨parts, hp, hr, ⟨_, rfl⟩, ?_, ?_⟩
    · simp only [lives_releaseAll, subsystems, ← map_shutdownOrder, List.map_map, Function.comp_def]
    · simp only [Option.map_some, releaseAll_eq, map_shutdownOrder, subsystems]
  · rename_i hnot
    refine .inl ⟨?_, rfl⟩
    rcases hr : e.resources with _ | parts
    · exact .inr rfl
    · exact .inl fun hp => hnot parts hp hr

/-- What lived is down. -/
theorem Ended.isDown {e e' : Environment} {s s' : Scene} {parts : Resources}
    (h : e.Ended s parts e' s') {x : Subsystem} (hx : x ∈ e.subsystems) :
    ∃ r, e'.remains = some r ∧ x.IsDown r s'.accounts := by
  obtain ⟨r, hr, heq⟩ := Option.map_eq_some_iff.1 h.remains
  have hdown := Subsystem.isDown_shutDownAll (List.mem_reverse.2 hx) parts s.accounts
  rw [← heq] at hdown
  exact ⟨r, hr, hdown⟩

end Environment

/-! ## Runs of calls -/

/-- Where a call may lead. -/
inductive Phase.Moves : Phase → Phase → Prop
  | stays (p : Phase) : Moves p p
  | built : Moves .uninitialized .initialized
  | ended : Moves .initialized .destroyed

inductive HostCall where
  | init (machine : Machine) (stores : List String)
  /-- `held` are the trackers that others still hold. -/
  | destroy (held : List TrackerId)

/-- An environment with the scene that it works on. -/
structure Host where
  env : Environment
  scene : Scene

namespace Host

open Environment

def call (h : Host) : HostCall → Host × Except Failure Unit
  | .init m stores =>
    let (env, scene, r) := h.env.init m stores h.scene
    (⟨env, scene⟩, r)
  | .destroy held =>
    let (env, scene) := h.env.destroy held h.scene
    (⟨env, scene⟩, .ok ())

/-- Subsystems are adopted and then shut down, the last adopted first. -/
def round (l : List Subsystem) : List LifeEvent := l.map .adopted ++ l.reverse.map .shutDown

/-- Each subsystem is another one. -/
def Distinct (l : List Subsystem) : Prop := (l.map Subsystem.name).Nodup

/-- What holds of a host between two calls, if the scene had seen `start` at first. -/
structure Sound (start : List LifeEvent) (h : Host) : Prop where
  index : h.env.storeIndex = indexStores h.env.stores
  resources : h.env.resources.isSome ↔ h.env.phase = .initialized
  names : h.env.names ≠ [] ↔ h.env.phase = .initialized
  named : h.env.names = h.env.subsystems.map Subsystem.name
  distinct : Distinct h.env.subsystems
  rounds : ∃ rounds : List (List Subsystem), (∀ l ∈ rounds, Distinct l)
    ∧ h.scene.lives = start ++ rounds.flatMap round ++ h.env.subsystems.map .adopted

variable {start : List LifeEvent} {e e' : Environment} {s s' : Scene} {stores : List String}
  {r : Except Failure Unit}

theorem sound_fresh (config : Config) (memory : MemInfo) (capability : HookCapability)
    (s : Scene) : Sound s.lives ⟨.fresh config memory capability, s⟩ :=
  ⟨rfl, by simp [fresh], by simp [fresh, Environment.names, Scope.names], rfl, List.nodup_nil,
    [], by simp, by simp [fresh, Environment.subsystems]⟩

theorem Sound.subsystems_eq_nil (h : Sound start ⟨e, s⟩) (hp : e.phase ≠ .initialized) :
    e.subsystems = [] := by
  by_contra hne
  refine hp (h.names.1 fun hnil => hne ?_)
  exact List.map_eq_nil_iff.1 (h.named.symm.trans hnil)

theorem distinct_of_grows {parts : Resources} {metrics : Metrics Gauge} {site : Site}
    (h : Site.Grows (Blueprint.subsystemOrder.take 8) Blueprint.subsystemOrder
      { scene := s, parts, metrics } site) : Distinct site.subsystems := by
  obtain ⟨-, hnames, htexts, -⟩ := h.of_empty
  exact (htexts ▸ hnames).nodup Blueprint.nodup_subsystemOrder

/-- An `init` keeps the host `Sound`. -/
theorem Sound.begins (h : Sound start ⟨e, s⟩) (hb : Begins e stores s e' s' r) :
    Sound start ⟨e', s'⟩ := by
  cases hb with
  | again => exact h
  | late => exact h
  | rejected => exact h
  | @failed f parts site hp hgrows =>
    obtain ⟨-, -, -, hlives⟩ := hgrows.of_empty
    obtain ⟨rounds, hdistinct, hbefore⟩ := h.rounds
    have hnil : e.subsystems = [] := h.subsystems_eq_nil (by simp [hp])
    refine ⟨h.index, h.resources, h.names, h.named, h.distinct, rounds ++ [site.subsystems], ?_, ?_⟩
    · intro l hl
      rcases List.mem_append.1 hl with hl | hl
      · exact hdistinct l hl
      · exact List.mem_singleton.1 hl ▸ distinct_of_grows hgrows
    · have hempty : (e.abandon site f).1.subsystems = [] := hnil
      simp only [hnil, List.map_nil, List.append_nil] at hbefore
      simp only [lives_abandon, hlives, hbefore, hempty, List.flatMap_append,
        List.flatMap_singleton, round, List.map_nil, List.append_nil, List.append_assoc]
  | @built parts site line hp hgrows =>
    obtain ⟨hsure, -, htexts, hlives⟩ := hgrows.of_empty
    obtain ⟨rounds, hdistinct, hbefore⟩ := h.rounds
    have hnil : e.subsystems = [] := h.subsystems_eq_nil (by simp [hp])
    have hsome : site.scope.names ≠ [] := by
      intro hnone
      exact absurd (hnone ▸ hsure) (by decide)
    refine ⟨rfl, by simp, by simpa [Environment.names] using hsome, htexts,
      distinct_of_grows hgrows, rounds, hdistinct, ?_⟩
    simp only [hnil, List.map_nil, List.append_nil] at hbefore
    exact hlives.trans (congrArg (· ++ _) hbefore)

theorem Sound.ended {parts : Resources} (h : Sound start ⟨e, s⟩) (hend : e.Ended s parts e' s') :
    Sound start ⟨e', s'⟩ := by
  obtain ⟨⟨remains, rfl⟩, hlives, -⟩ := hend
  obtain ⟨rounds, hdistinct, hbefore⟩ := h.rounds
  refine ⟨h.index, by simp, by simp [Environment.names, Scope.names], rfl, List.nodup_nil,
    rounds ++ [e.subsystems], ?_, ?_⟩
  · intro l hl
    rcases List.mem_append.1 hl with hl | hl
    · exact hdistinct l hl
    · exact List.mem_singleton.1 hl ▸ h.distinct
  · have hbefore : s.lives = start ++ rounds.flatMap round ++ e.subsystems.map .adopted := hbefore
    simp only [hlives, hbefore, Environment.subsystems, List.flatMap_append,
      List.flatMap_singleton, round, List.map_nil, List.append_nil, List.append_assoc]

theorem Sound.call {h : Host} (hs : Sound start h) (c : HostCall) : Sound start (h.call c).1 := by
  cases c with
  | init m stores => exact hs.begins (begins_init h.env m stores h.scene)
  | destroy held =>
    rcases h.env.destroy_cases held h.scene with ⟨-, heq⟩ | ⟨parts, -, -, hend⟩
    · have hsame : (h.call (.destroy held)).1 = h := by
        simp only [Host.call, heq]
      rwa [hsame]
    · exact Sound.ended hs hend

theorem Sound.callAll : ∀ (calls : List HostCall) {h : Host}, Sound start h →
    Sound start (callAll Host.call h calls).1
  | [], _, hs => hs
  | c :: calls, _, hs => Sound.callAll calls (hs.call c)

/-! ## What holds between two calls -/

/-- What can be relied on between two calls, if the scene had seen `start` at first. -/
structure Lives (start : List LifeEvent) (h : Host) : Prop where
  moves : ∀ c, Phase.Moves h.env.phase (h.call c).1.env.phase
  init_again : h.env.phase = .initialized → ∀ m stores, h.call (.init m stores) = (h, .ok ())
  init_late : h.env.phase = .destroyed →
    ∀ m stores, h.call (.init m stores) = (h, .error .alreadyDestroyed)
  destroy_idle : h.env.phase ≠ .initialized → ∀ held, h.call (.destroy held) = (h, .ok ())
  resources : match h.env.phase with
    | .uninitialized => h.env.getResources = .error .notInitialized
    | .initialized => ∃ r, h.env.getResources = .ok r
    | .destroyed => h.env.getResources = .error .alreadyDestroyed
  names : h.env.names ≠ [] ↔ h.env.phase = .initialized
  index : ∀ p, (∀ i, h.env.storeIndex.get? p = some i ↔ LastAt h.env.stores p i)
    ∧ (h.env.storeIndex.get? p = none ↔ p ∉ h.env.stores)
  /-- The first `init` that succeeds fixes the stores. -/
  init_stores : h.env.phase = .uninitialized → ∀ m stores,
    (h.call (.init m stores)).2 = .ok () →
      (h.call (.init m stores)).1.env.phase = .initialized
        ∧ (h.call (.init m stores)).1.env.stores = stores
  /-- An `init` that fails shuts down what it has adopted. -/
  init_failed : ∀ m stores f, (h.call (.init m stores)).2 = .error f →
    ∃ l : List Subsystem, Distinct l
      ∧ (h.call (.init m stores)).1.scene.lives = h.scene.lives ++ round l
      ∧ ∀ x ∈ l, ∃ remains, (h.call (.init m stores)).1.env.remains = some remains
        ∧ x.IsDown remains (h.call (.init m stores)).1.scene.accounts
  /-- What was adopted and not shut down is what lives. -/
  released : h.env.names = h.env.subsystems.map Subsystem.name
    ∧ ∃ rounds : List (List Subsystem), (∀ l ∈ rounds, Distinct l)
      ∧ h.scene.lives = start ++ rounds.flatMap round ++ h.env.subsystems.map .adopted
  /-- With the end of the host everything is shut down. -/
  ended : ∀ held, (∃ rounds : List (List Subsystem), (∀ l ∈ rounds, Distinct l)
      ∧ (h.call (.destroy held)).1.scene.lives = start ++ rounds.flatMap round)
    ∧ (h.call (.destroy held)).1.scene.lives
      = h.scene.lives ++ h.env.subsystems.reverse.map .shutDown
    ∧ ∀ x ∈ h.env.subsystems, ∃ remains, (h.call (.destroy held)).1.env.remains = some remains
      ∧ x.IsDown remains (h.call (.destroy held)).1.scene.accounts

theorem moves_begins (hb : Begins e stores s e' s' r) : Phase.Moves e.phase e'.phase := by
  cases hb with
  | built hp => exact hp ▸ .built
  | _ => exact .stays _

theorem stores_begins (hb : Begins e stores s e' s' (.ok ())) (hp : e.phase = .uninitialized) :
    e'.phase = .initialized ∧ e'.stores = stores := by
  cases hb with
  | again hp' => exact nomatch hp.symm.trans hp'
  | built => exact ⟨rfl, rfl⟩

theorem round_begins {f : Failure} (hb : Begins e stores s e' s' (.error f)) :
    ∃ l : List Subsystem, Distinct l ∧ s'.lives = s.lives ++ round l
      ∧ ∀ x ∈ l, ∃ remains, e'.remains = some remains ∧ x.IsDown remains s'.accounts := by
  cases hb with
  | late => exact ⟨[], List.nodup_nil, (List.append_nil _).symm, nofun⟩
  | rejected => exact ⟨[], List.nodup_nil, (List.append_nil _).symm, nofun⟩
  | @failed _ parts site _ hgrows =>
    obtain ⟨-, -, -, hlives⟩ := hgrows.of_empty
    refine ⟨site.subsystems, distinct_of_grows hgrows, ?_, fun x hx => isDown_abandon e site f hx⟩
    rw [lives_abandon, hlives, round, List.append_assoc]

theorem moves_call (h : Host) (c : HostCall) : Phase.Moves h.env.phase (h.call c).1.env.phase := by
  cases c with
  | init m stores => exact moves_begins (begins_init h.env m stores h.scene)
  | destroy held =>
    show Phase.Moves h.env.phase (h.env.destroy held h.scene).1.phase
    rcases h.env.destroy_cases held h.scene with ⟨-, heq⟩ | ⟨parts, hp, -, ⟨remains, henv⟩, -, -⟩
    · rw [heq]
      exact .stays _
    · rw [henv, hp]
      exact .ended

section Sound

variable {h : Host}

theorem Sound.getResources (hs : Sound start h) : match h.env.phase with
    | .uninitialized => h.env.getResources = .error .notInitialized
    | .initialized => ∃ r, h.env.getResources = .ok r
    | .destroyed => h.env.getResources = .error .alreadyDestroyed := by
  unfold Environment.getResources
  cases hp : h.env.phase with
  | uninitialized => rfl
  | destroyed => rfl
  | initialized =>
    obtain ⟨r, hr⟩ := Option.isSome_iff_exists.1 (hs.resources.2 hp)
    exact ⟨r, by rw [hr]⟩

theorem destroy_of_not_initialized (hp : h.env.phase ≠ .initialized) (held : List TrackerId) :
    h.call (.destroy held) = (h, .ok ()) := by
  rcases h.env.destroy_cases held h.scene with ⟨-, heq⟩ | ⟨-, hp', -⟩
  · simp only [Host.call, heq]
  · exact absurd hp' hp

theorem Sound.ended_of_initialized (hs : Sound start h) (hp : h.env.phase = .initialized)
    (held : List TrackerId) : ∃ parts, h.env.Ended h.scene parts
      (h.call (.destroy held)).1.env (h.call (.destroy held)).1.scene := by
  rcases h.env.destroy_cases held h.scene with ⟨hidle, -⟩ | ⟨parts, -, -, hend⟩
  · rcases hidle with hp' | hnone
    · exact absurd hp hp'
    · exact nomatch (hnone ▸ hs.resources.2 hp)
  · exact ⟨parts, hend⟩

theorem Sound.phase_destroy (hs : Sound start h) (held : List TrackerId) :
    (h.call (.destroy held)).1.env.phase ≠ .initialized := by
  by_cases hp : h.env.phase = .initialized
  · obtain ⟨parts, ⟨remains, henv⟩, -, -⟩ := hs.ended_of_initialized hp held
    simp [henv]
  · rwa [destroy_of_not_initialized hp held]

/-- The end of a host shuts down what lives, the last adopted first. -/
theorem Sound.shutDown_destroy (hs : Sound start h) (held : List TrackerId) :
    (h.call (.destroy held)).1.scene.lives
        = h.scene.lives ++ h.env.subsystems.reverse.map .shutDown
      ∧ ∀ x ∈ h.env.subsystems, ∃ remains, (h.call (.destroy held)).1.env.remains = some remains
        ∧ x.IsDown remains (h.call (.destroy held)).1.scene.accounts := by
  by_cases hp : h.env.phase = .initialized
  · obtain ⟨parts, hend⟩ := hs.ended_of_initialized hp held
    exact ⟨hend.lives, fun x hx => hend.isDown hx⟩
  · rw [destroy_of_not_initialized hp held, Sound.subsystems_eq_nil hs hp]
    exact ⟨(List.append_nil _).symm, nofun⟩

end Sound

/-- A host that is `Sound` lives as `Lives` says. -/
theorem Sound.lives {h : Host} (hs : Sound start h) : Lives start h where
  moves := h.moves_call
  init_again hp m stores := by simp [Host.call, Environment.init, hp]
  init_late hp m stores := by simp [Host.call, Environment.init, hp]
  destroy_idle hp held := destroy_of_not_initialized hp held
  resources := hs.getResources
  names := hs.names
  index p := by
    rw [hs.index]
    exact ⟨get?_indexStores _ p, get?_indexStores_eq_none _ p⟩
  init_stores hp m stores hok := by
    have hb := begins_init h.env m stores h.scene
    exact stores_begins (hok ▸ hb) hp
  init_failed m stores f herror := by
    have hb := begins_init h.env m stores h.scene
    exact round_begins (herror ▸ hb)
  released := ⟨hs.named, hs.rounds⟩
  ended held := by
    refine ⟨?_, hs.shutDown_destroy held⟩
    have hs' := hs.call (.destroy held)
    obtain ⟨rounds, hdistinct, hafter⟩ := hs'.rounds
    have hnil : (h.call (.destroy held)).1.env.subsystems = [] :=
      hs'.subsystems_eq_nil (hs.phase_destroy held)
    exact ⟨rounds, hdistinct, by rw [hafter, hnil, List.map_nil, List.append_nil]⟩

/-- Whatever calls are made, the phase moves forward only, repeated and late calls change nothing,
and every subsystem that is adopted is shut down once, in the reverse order of adoption. -/
theorem lives_after_calls (config : Config) (memory : MemInfo) (capability : HookCapability)
    (s : Scene) (calls : List HostCall) :
    (QueryHost.callAll call ⟨.fresh config memory capability, s⟩ calls).1.Lives s.lives :=
  ((sound_fresh config memory capability s).callAll calls).lives

end Host

end QueryHost
