import QueryHost.Cache.Segment
import QueryHost.Proofs.CacheLookups

/-!
# Segments that are loaded

A load opens a segment if it is not cached, and at most once; what it gives is what was opened last
with success under its key, now or by an earlier load. A failure to open is passed on, and no entry
comes or goes by it. A segment that is not cached, as it was erased or had to make room, is not
cached again before it is loaded, which opens it (`SegmentLoader.segments_read_through`).

To open a segment may have effects. They are kept as the state of a world, and beside it stands
what each opening has given, so that a load tells how often it has opened its segment.
-/

namespace QueryHost

variable {ω ε : Type}

inductive SegmentCall (ω ε : Type) where
  | load (key : SegmentKey) (opening : ω → Except ε Segment × ω)
  | erase (key : SegmentKey)

/-- A call, with what it gave; of a load also what its openings gave. -/
inductive SegmentEvent (ε : Type) where
  | loaded (key : SegmentKey) (openings : List (Except ε Segment)) (result : Except ε Segment)
  | erased (key : SegmentKey) (known : Bool)

namespace SegmentCall

def Loads (k : SegmentKey) : SegmentCall ω ε → Prop
  | load k' _ => k' = k
  | erase _ => False

end SegmentCall

namespace SegmentEvent

/-- The segments that were opened under a key. -/
def opened (k : SegmentKey) : SegmentEvent ε → List Segment
  | loaded k' openings _ => if k' = k then openings.filterMap (·.toOption) else []
  | erased _ _ => []

/-- The segment that was opened last under a key. -/
def latest? (k : SegmentKey) (events : List (SegmentEvent ε)) : Option Segment :=
  (events.flatMap (opened k)).getLast?

variable {k : SegmentKey} {events : List (SegmentEvent ε)} {e : SegmentEvent ε}

theorem latest_snoc (h : e.opened k = []) : latest? k (events ++ [e]) = latest? k events := by
  simp [latest?, h]

theorem latest_snoc_opened {s : Segment} (h : e.opened k = [s]) :
    latest? k (events ++ [e]) = some s := by
  simp [latest?, h]

end SegmentEvent

open SegmentEvent

namespace SegmentLoader

/-- An opening that is noted with what it gives. -/
def noting (opening : ω → Except ε Segment × ω) :
    StateM (List (Except ε Segment) × ω) (Except ε Segment) := do
  let (openings, w) ← get
  let (r, w) := opening w
  set (openings ++ [r], w)
  return r

def call (s : SegmentLoader × ω) : SegmentCall ω ε → (SegmentLoader × ω) × SegmentEvent ε
  | .load k opening =>
    let ((l, result), openings, w) := ((s.1.loadBy k (noting opening)).run ([], s.2)).run
    ((l, w), .loaded k openings result)
  | .erase k => (((s.1.erase k).1, s.2), .erased k (s.1.erase k).2)

/-- The segment is cached under the key. -/
def Holds (l : SegmentLoader) (k : SegmentKey) (s : Segment) : Prop :=
  ∃ e, (k, e) ∈ l.cache.entries ∧ e.value = s

/-- A load opens the segment, once, and gives what that has given. -/
def Opens (s : SegmentLoader × ω) (k : SegmentKey) (opening : ω → Except ε Segment × ω) : Prop :=
  (call s (.load k opening)).2 = .loaded k [(opening s.2).1] (opening s.2).1

section Call

variable {l : SegmentLoader} {k k' : SegmentKey} {w : ω} {opening : ω → Except ε Segment × ω}
  {s s' : Segment}

/-! ## One call -/

theorem call_load_of_some (h : (l.cache.lookup k).2 = some s) :
    call (l, w) (.load k opening) = ((⟨(l.cache.lookup k).1⟩, w), .loaded k [] (.ok s)) := by
  have hlookup : l.cache.lookup k = ((l.cache.lookup k).1, some s) := Prod.ext rfl h
  simp only [call, loadBy]
  rw [hlookup]
  rfl

theorem call_load_of_none (h : (l.cache.lookup k).2 = none) :
    call (l, w) (.load k opening) = ((⟨match (opening w).1 with
        | .error _ => (l.cache.lookup k).1
        | .ok s => ((l.cache.lookup k).1.insert k s 1).1⟩, (opening w).2),
      .loaded k [(opening w).1] (opening w).1) := by
  have hlookup : l.cache.lookup k = ((l.cache.lookup k).1, none) := Prod.ext rfl h
  simp only [call, loadBy]
  rw [hlookup]
  rcases hopened : opening w with ⟨r, w'⟩
  cases r with
  | error e => simp [noting, hopened]
  | ok s => simp [noting, hopened]

/-- A load that notes whether it has opened notes what has happened. -/
theorem call_load_pure (l : SegmentLoader) (k : SegmentKey) (w : ω) (r : Except ε Segment) :
    call (l, w) (.load k (r, ·)) = (((l.load k r).1, w),
      .loaded k (if (l.load k r).2.opened then [r] else []) (l.load k r).2.result) := by
  rcases hlookup : l.cache.lookup k with ⟨cache, found⟩
  cases found with
  | some s => simp [call, load, loadBy, hlookup]
  | none => cases r <;> simp [call, load, loadBy, noting, hlookup]

/-! ## What is cached -/

section Cached

variable {share : Nat} {hash : SegmentKey → Nat}

theorem holds_iff (h : l.cache.Housed shardCount share hash) :
    l.Holds k s ↔ (l.cache.lookup k).2 = some s :=
  (h.lookup_iff (by decide) k s).symm

theorem shards_pos (h : l.cache.Housed shardCount share hash) : 0 < l.cache.shards.length :=
  h.length_eq.symm ▸ (by decide)

theorem housed_lookup (h : l.cache.Housed shardCount share hash) (k : SegmentKey) :
    (l.cache.lookup k).1.Housed shardCount share hash :=
  h.call (by decide) (.lookup k)

theorem housed_insert (h : l.cache.Housed shardCount share hash) (k : SegmentKey) (s : Segment) :
    (l.cache.insert k s 1).1.Housed shardCount share hash :=
  h.call (by decide) (.insert k s 1)

theorem housed_erase (h : l.cache.Housed shardCount share hash) (k : SegmentKey) :
    (l.erase k).1.cache.Housed shardCount share hash :=
  h.call (by decide) (.erase k)

theorem holds_lookup (h : l.cache.Housed shardCount share hash) :
    Holds ⟨(l.cache.lookup k).1⟩ k' s ↔ l.Holds k' s := by
  rw [holds_iff h, holds_iff (housed_lookup h k), LruCache.lookup_lookup (shards_pos h)]

theorem holds_erase (h : l.cache.Housed shardCount share hash) :
    (l.erase k).1.Holds k' s ↔ k' ≠ k ∧ l.Holds k' s := by
  have herased : ((l.erase k).1.cache.lookup k').2
      = if k' = k then none else (l.cache.lookup k').2 := LruCache.lookup_erase (shards_pos h) k k'
  rw [holds_iff h, holds_iff (housed_erase h k), herased]
  split_ifs with hk
  · simp [hk]
  · simp [hk]

/-- A segment is cached if a shard has room for one. -/
theorem holds_insert (h : l.cache.Housed shardCount share hash) (hlacks : ∀ s, ¬ l.Holds k s) :
    Holds ⟨(l.cache.insert k s 1).1⟩ k s' ↔ s' = s ∧ 0 < share := by
  have hok : (l.cache.insert k s 1).2 = true ↔ 1 ≠ 0 ∧ 1 ≤ share := h.insert_ok_iff (by decide)
  cases htaken : (l.cache.insert k s 1).2 with
  | true =>
    have hshare := (hok.1 htaken).2
    rw [holds_iff (housed_insert h k s), (LruCache.lookup_insert (shards_pos h) htaken).1]
    exact ⟨fun heq => ⟨(Option.some.inj heq).symm, hshare⟩, fun heq => congrArg some heq.1.symm⟩
  | false =>
    rw [LruCache.insert_refused (shards_pos h) htaken]
    refine iff_of_false (hlacks s') fun heq => ?_
    exact nomatch htaken.symm.trans (hok.2 ⟨by decide, heq.2⟩)

theorem holds_of_insert (h : l.cache.Housed shardCount share hash) (hk : k' ≠ k)
    (hheld : Holds ⟨(l.cache.insert k s 1).1⟩ k' s') : l.Holds k' s' := by
  cases htaken : (l.cache.insert k s 1).2 with
  | true =>
    rw [holds_iff (housed_insert h k s)] at hheld
    exact (holds_iff h).2 ((LruCache.lookup_insert (shards_pos h) htaken).2 k' s' hk hheld)
  | false => rwa [LruCache.insert_refused (shards_pos h) htaken] at hheld

end Cached

/-! ## Every call -/

/-- The cache is as it was made but for its entries, and what it holds was opened last. -/
structure Kept (capacity : Nat) (hash : SegmentKey → Nat) (l : SegmentLoader)
    (events : List (SegmentEvent ε)) : Prop where
  housed : l.cache.Housed shardCount (capacity ⌈/⌉ shardCount) hash
  latest : ∀ {k s}, l.Holds k s → latest? k events = some s

section Kept

variable {capacity : Nat} {hash : SegmentKey → Nat} {events : List (SegmentEvent ε)}

theorem kept_new (capacity : Nat) (hash : SegmentKey → Nat) :
    Kept capacity hash (new capacity hash) ([] : List (SegmentEvent ε)) := by
  have hhoused : (new capacity hash).cache.Housed shardCount (capacity ⌈/⌉ shardCount) hash :=
    LruCache.Housed.new capacity shardCount hash
  refine ⟨hhoused, fun {k s} hheld => ?_⟩
  have hnone := LruCache.lookup_new (α := Segment) capacity shardCount hash k
  exact nomatch hnone.symm.trans ((holds_iff hhoused).1 hheld)

/-- What was cached is given, and nothing is opened. -/
theorem Kept.load_held (h : Kept capacity hash l events) (hheld : l.Holds k s) (w : ω)
    (opening : ω → Except ε Segment × ω) :
    ∃ l', call (l, w) (.load k opening) = ((l', w), .loaded k [] (.ok s))
      ∧ Kept capacity hash l' (events ++ [.loaded k [] (.ok s)])
      ∧ ∀ k' s', l'.Holds k' s' ↔ l.Holds k' s' := by
  have hsame : ∀ k' s', Holds ⟨(l.cache.lookup k).1⟩ k' s' ↔ l.Holds k' s' :=
    fun k' s' => holds_lookup h.housed
  refine ⟨_, call_load_of_some ((holds_iff h.housed).1 hheld),
    ⟨housed_lookup h.housed k, ?_⟩, hsame⟩
  intro k' s' hheld'
  rw [latest_snoc (by simp [opened])]
  exact h.latest ((hsame k' s').1 hheld')

/-- What was not cached is opened, and is cached then if there is room for anything. -/
theorem Kept.load_lacking (h : Kept capacity hash l events) (hlacks : ∀ s, ¬ l.Holds k s) (w : ω)
    (opening : ω → Except ε Segment × ω) :
    ∃ l', call (l, w) (.load k opening)
        = ((l', (opening w).2), .loaded k [(opening w).1] (opening w).1)
      ∧ Kept capacity hash l' (events ++ [.loaded k [(opening w).1] (opening w).1])
      ∧ (∀ e, (opening w).1 = .error e → l'.cache.entries = l.cache.entries)
      ∧ (∀ s, (opening w).1 = .ok s → ∀ s', l'.Holds k s' ↔ s' = s ∧ 0 < capacity)
      ∧ ∀ k' s', k' ≠ k → l'.Holds k' s' → l.Holds k' s' := by
  have hnone : (l.cache.lookup k).2 = none :=
    Option.eq_none_iff_forall_ne_some.2 fun s hs => hlacks s ((holds_iff h.housed).2 hs)
  have hhoused := housed_lookup h.housed k
  have hsame : ∀ {k' s'}, Holds ⟨(l.cache.lookup k).1⟩ k' s' ↔ l.Holds k' s' :=
    fun {k' s'} => holds_lookup h.housed
  have hshare : 0 < capacity ⌈/⌉ shardCount ↔ 0 < capacity := by
    rw [← Nat.not_le, ceilDiv_le_iff_le_mul (by decide)]
    omega
  refine ⟨_, call_load_of_none hnone, ?_⟩
  cases (opening w).1 with
  | error e =>
    refine ⟨⟨hhoused, fun hheld => ?_⟩, fun _ _ => ?_, by simp, fun k' s' _ => hsame.1⟩
    · rw [latest_snoc (by simp [opened, Except.toOption])]
      exact h.latest (hsame.1 hheld)
    · exact LruCache.entries_lookup_of_none (shards_pos h.housed) hnone
  | ok s =>
    have hlooked : ∀ s', ¬ Holds ⟨(l.cache.lookup k).1⟩ k s' := fun s' => hlacks s' ∘ hsame.1
    have hown : ∀ s', Holds ⟨((l.cache.lookup k).1.insert k s 1).1⟩ k s' ↔ s' = s ∧ 0 < capacity :=
      fun s' => (holds_insert hhoused hlooked).trans (and_congr_right fun _ => hshare)
    have hothers : ∀ k' s', k' ≠ k →
        Holds ⟨((l.cache.lookup k).1.insert k s 1).1⟩ k' s' → l.Holds k' s' := fun k' s' hk hheld =>
      hsame.1 (holds_of_insert hhoused hk hheld)
    refine ⟨⟨housed_insert (l := ⟨(l.cache.lookup k).1⟩) hhoused k s, ?_⟩, by simp, ?_, hothers⟩
    · intro k' s' hheld
      by_cases hk : k' = k
      · subst hk
        rw [((hown s').1 hheld).1]
        exact latest_snoc_opened (by simp [opened, Except.toOption])
      · rw [latest_snoc (by simp [opened, Ne.symm hk])]
        exact h.latest (hothers k' s' hk hheld)
    · intro s' hs'
      obtain rfl := Except.ok.inj hs'
      exact hown

theorem Kept.erase (h : Kept capacity hash l events) (k : SegmentKey) :
    Kept capacity hash (l.erase k).1 (events ++ [.erased k (l.erase k).2]) := by
  refine ⟨housed_erase h.housed k, fun hheld => ?_⟩
  rw [latest_snoc rfl]
  exact h.latest ((holds_erase h.housed).1 hheld).2

theorem Kept.call (h : Kept capacity hash l events) (w : ω) (c : SegmentCall ω ε) :
    Kept capacity hash (call (l, w) c).1.1 (events ++ [(call (l, w) c).2]) := by
  cases c with
  | load k opening =>
    by_cases hheld : ∃ s, l.Holds k s
    · obtain ⟨s, hs⟩ := hheld
      obtain ⟨l', heq, hkept, -⟩ := h.load_held hs w opening
      exact heq ▸ hkept
    · obtain ⟨l', heq, hkept, -⟩ := h.load_lacking (not_exists.1 hheld) w opening
      exact heq ▸ hkept
  | erase k => exact h.erase k

/-- Only a load brings a segment into the cache. -/
theorem Kept.lacks_call (h : Kept capacity hash l events) (hlacks : ∀ s, ¬ l.Holds k s) (w : ω)
    {c : SegmentCall ω ε} (hc : ¬ c.Loads k) :
    ∀ s, ¬ (SegmentLoader.call (l, w) c).1.1.Holds k s := by
  intro s hafter
  cases c with
  | load k' opening =>
    by_cases hheld : ∃ s', l.Holds k' s'
    · obtain ⟨s', hs'⟩ := hheld
      obtain ⟨l', heq, -, hsame⟩ := h.load_held hs' w opening
      rw [heq] at hafter
      exact hlacks s ((hsame k s).1 hafter)
    · obtain ⟨l', heq, -, -, -, hothers⟩ := h.load_lacking (not_exists.1 hheld) w opening
      rw [heq] at hafter
      exact hlacks s (hothers k s (Ne.symm hc) hafter)
  | erase k' => exact hlacks s ((holds_erase h.housed).1 hafter).2

/-! ## Runs -/

theorem Kept.run (h : Kept capacity hash l events) (w : ω) (calls : List (SegmentCall ω ε)) :
    Kept capacity hash (callAll SegmentLoader.call (l, w) calls).1.1
      (events ++ (callAll SegmentLoader.call (l, w) calls).2) :=
  callAll_history (R := fun s events => Kept capacity hash s.1 events)
    (fun s _ c h => h.call s.2 c) calls (l, w) events h

theorem Kept.lacks_run : ∀ {l : SegmentLoader} {events : List (SegmentEvent ε)},
    Kept capacity hash l events → (∀ s, ¬ l.Holds k s) → ∀ (w : ω) (calls : List (SegmentCall ω ε)),
      (∀ c ∈ calls, ¬ c.Loads k) →
      ∀ s, ¬ (callAll SegmentLoader.call (l, w) calls).1.1.Holds k s
  | _, _, _, hlacks, _, [], _ => hlacks
  | _, _, h, hlacks, w, c :: calls, hcalls => by
    obtain ⟨hc, hcalls⟩ := List.forall_mem_cons.1 hcalls
    exact (h.call w c).lacks_run (h.lacks_call hlacks w hc) _ calls hcalls

theorem Kept.opens_run (h : Kept capacity hash l events) (hlacks : ∀ s, ¬ l.Holds k s) (w : ω)
    {calls : List (SegmentCall ω ε)} (hcalls : ∀ c ∈ calls, ¬ c.Loads k)
    (opening : ω → Except ε Segment × ω) :
    Opens (callAll SegmentLoader.call (l, w) calls).1 k opening := by
  obtain ⟨l', heq, -⟩ := (h.run w calls).load_lacking (h.lacks_run hlacks w calls hcalls)
    (callAll SegmentLoader.call (l, w) calls).1.2 opening
  exact congrArg Prod.snd heq

/-- After any calls, a load of what is cached opens nothing and gives what was opened last under the
key; a load of anything else opens it once, and gives what that has given. A failure to open leaves
the entries as they were; else the segment is cached then, unless nothing can be, and others may
have made room for it. What is erased is not cached, and what is not cached, or is erased, is opened
by its next load. -/
theorem segments_read_through (capacity : Nat) (hash : SegmentKey → Nat) (w : ω)
    (calls : List (SegmentCall ω ε)) (k : SegmentKey) (opening : ω → Except ε Segment × ω) :
    let run := callAll call (new capacity hash, w) calls
    let l := run.1.1
    let opened := opening run.1.2
    let after := call run.1 (.load k opening)
    let l' := after.1.1
    let erased := ((l.erase k).1, run.1.2)
    (∀ s, l.Holds k s → after.2 = .loaded k [] (.ok s) ∧ after.1.2 = run.1.2
        ∧ latest? k run.2 = some s ∧ ∀ k' s', l'.Holds k' s' ↔ l.Holds k' s')
      ∧ ((∀ s, ¬ l.Holds k s) → after.2 = .loaded k [opened.1] opened.1 ∧ after.1.2 = opened.2
        ∧ (∀ e, opened.1 = .error e → l'.cache.entries = l.cache.entries)
        ∧ (∀ s, opened.1 = .ok s → latest? k (run.2 ++ [after.2]) = some s
          ∧ ∀ s', l'.Holds k s' ↔ s' = s ∧ 0 < capacity)
        ∧ ∀ k' s', k' ≠ k → l'.Holds k' s' → l.Holds k' s')
      ∧ (∀ k' s', erased.1.Holds k' s' ↔ k' ≠ k ∧ l.Holds k' s')
      ∧ ∀ more : List (SegmentCall ω ε), (∀ c ∈ more, ¬ c.Loads k) →
        ((∀ s, ¬ l.Holds k s) → Opens (callAll call run.1 more).1 k opening)
          ∧ Opens (callAll call erased more).1 k opening := by
  intro run l opened after l' erased
  have hkept : Kept capacity hash l run.2 := (kept_new capacity hash).run w calls
  refine ⟨fun s hheld => ?_, fun hlacks => ?_, fun k' s' => holds_erase hkept.housed,
    fun more hmore => ⟨fun hlacks => hkept.opens_run hlacks run.1.2 hmore opening, ?_⟩⟩
  · obtain ⟨l'', hafter, -, hsame⟩ := hkept.load_held hheld run.1.2 opening
    have hl' : l' = l'' := congrArg (·.1.1) hafter
    exact ⟨congrArg (·.2) hafter, congrArg (·.1.2) hafter, hkept.latest hheld, hl' ▸ hsame⟩
  · obtain ⟨l'', hafter, -, herror, hok, hothers⟩ := hkept.load_lacking hlacks run.1.2 opening
    have hl' : l' = l'' := congrArg (·.1.1) hafter
    have hevent : after.2 = .loaded k [opened.1] opened.1 := congrArg (·.2) hafter
    rw [hl']
    refine ⟨hevent, congrArg (·.1.2) hafter, herror, fun s hs => ⟨?_, hok s hs⟩, hothers⟩
    rw [hevent, hs]
    exact latest_snoc_opened (by simp [SegmentEvent.opened, Except.toOption])
  · have hlacks : ∀ s, ¬ erased.1.Holds k s := fun s hheld =>
      ((holds_erase hkept.housed).1 hheld).1 rfl
    exact (hkept.erase k).opens_run hlacks run.1.2 hmore opening

end Kept

end Call

/-! ## One place for two segments -/

/-- An opening that gives `r`, and is counted. -/
def counted (r : Except String Segment) (n : Nat) : Except String Segment × Nat := (r, n + 1)

/-- The second segment takes the place of the first, which cannot be opened any more. -/
def replacing : List (SegmentCall Nat String) :=
  [.load ⟨"rs", 0⟩ (counted (.ok ⟨"rs_0.dat", 42⟩)),
    .load ⟨"rs", 1⟩ (counted (.ok ⟨"rs_1.dat", 7⟩)),
    .load ⟨"rs", 0⟩ (counted (.error "missing"))]

theorem segments_read_through_replacing :
    let run := callAll call (new 1 fun _ => 0, 0) replacing
    run.1.2 = 3
      ∧ run.1.1.Holds ⟨"rs", 1⟩ ⟨"rs_1.dat", 7⟩ ∧ latest? ⟨"rs", 1⟩ run.2 = some ⟨"rs_1.dat", 7⟩
      ∧ (call run.1 (.load ⟨"rs", 1⟩ (counted (.error "missing")))).2
        = .loaded ⟨"rs", 1⟩ [] (.ok ⟨"rs_1.dat", 7⟩)
      ∧ (∀ s, ¬ run.1.1.Holds ⟨"rs", 0⟩ s)
      ∧ (call run.1 (.load ⟨"rs", 0⟩ (counted (.ok ⟨"rs_0.dat", 43⟩)))).2
        = .loaded ⟨"rs", 0⟩ [.ok ⟨"rs_0.dat", 43⟩] (.ok ⟨"rs_0.dat", 43⟩)
      ∧ Opens (callAll call ((run.1.1.erase ⟨"rs", 1⟩).1, 3) replacing.tail.tail).1 ⟨"rs", 1⟩
        (counted (.error "missing")) := by
  intro run
  have hheld : run.1.1.Holds ⟨"rs", 1⟩ ⟨"rs_1.dat", 7⟩ := ⟨⟨_, 1, 4⟩, by decide, rfl⟩
  have hkeys : ∀ x ∈ run.1.1.cache.entries, x.1 ≠ ⟨"rs", 0⟩ := by decide
  have hlacks : ∀ s, ¬ run.1.1.Holds ⟨"rs", 0⟩ s := fun s ⟨e, he, _⟩ => hkeys _ he rfl
  obtain ⟨hhit, -, -, herased⟩ := segments_read_through 1 (fun _ => 0) 0 replacing ⟨"rs", 1⟩
    (counted (.error "missing"))
  obtain ⟨-, hmiss, -⟩ := segments_read_through 1 (fun _ => 0) 0 replacing ⟨"rs", 0⟩
    (counted (.ok ⟨"rs_0.dat", 43⟩))
  obtain ⟨hgiven, -, hlatest, -⟩ := hhit _ hheld
  exact ⟨rfl, hheld, hlatest, hgiven, hlacks, (hmiss hlacks).1,
    (herased replacing.tail.tail (by simp [replacing, SegmentCall.Loads])).2⟩

end SegmentLoader

end QueryHost
