import QueryHost.Cache.Page
import QueryHost.Proofs.CacheLookups
import QueryHost.Proofs.WordBits
import Mathlib.GroupTheory.GroupAction.Ring

/-!
# Pages of two types

A page cache divides its capacity without leaving the range of a word, keeps its two types apart,
and gives for a key nothing but the page that it took last (`PageCache.pages_are_latest`).
-/

namespace QueryHost

/-! ## Calls of a page cache -/

inductive PageCall where
  | insert (key : PageKey) (page : Bytes) (type : PageType)
  | lookup (key : PageKey) (type : PageType)
  deriving DecidableEq, Repr

/-- A call with its answer. -/
inductive PageEvent where
  | inserted (key : PageKey) (page : Bytes) (type : PageType) (taken : Bool)
  | looked (key : PageKey) (type : PageType) (found : Option Bytes)
  deriving DecidableEq, Repr

def PageCall.type : PageCall → PageType
  | insert _ _ type => type
  | lookup _ type => type

/-- The page that was taken last under a key and a type. -/
def latest? (k : PageKey) (type : PageType) (events : List PageEvent) : Option Bytes :=
  (events.filterMap fun
    | .inserted k' page type' true => if k' = k ∧ type' = type then some page else none
    | _ => none).getLast?

/-- The value of a step in unsigned words of 64 bits, if it does not leave their range. -/
def word64? (n : Int) : Option Nat := if 0 ≤ n ∧ n ≤ word64Max then some n.toNat else none

namespace PageCache

/-- The capacities of the parts for data and for indexes, as they are found in words. -/
def divide? (capacity percentage : Nat) : Option (Nat × Nat) := do
  let index ← word64? (capacity / 100 * percentage)
  let data ← word64? (capacity - index)
  return (data, index)

/-- The capacity of each shard of a part, as it is found in words. -/
def share? (capacity shards : Nat) : Option Nat :=
  if capacity % shards = 0 then word64? (capacity / shards) else word64? (capacity / shards + 1)

def call (c : PageCache) : PageCall → PageCache × PageEvent
  | .insert k page type =>
    ((c.insert k page type).1, .inserted k page type (c.insert k page type).2)
  | .lookup k type => ((c.lookup k type).1, .looked k type (c.lookup k type).2)

section Latest

variable {k : PageKey} {type : PageType} {events : List PageEvent} {e : PageEvent}

theorem latest_snoc_taken (k' : PageKey) (page : Bytes) (type' : PageType) :
    latest? k type (events ++ [.inserted k' page type' true])
      = if k' = k ∧ type' = type then some page else latest? k type events := by
  unfold latest?
  rw [List.filterMap_append]
  split_ifs with h
  · simp [h]
  · simp [h]

theorem latest_snoc (h : ∀ k page type, e ≠ .inserted k page type true) :
    latest? k type (events ++ [e]) = latest? k type events := by
  unfold latest?
  rw [List.filterMap_append]
  cases e with
  | inserted k' page type' taken =>
    cases taken with
    | true => exact absurd rfl (h k' page type')
    | false => simp
  | looked k' type' found => simp

end Latest

/-- A part with so many bytes: none has no cache, and the shards of a cache have equal shares. -/
structure Divided (shards total : Nat) (hash : PageKey → Nat)
    (part : Option (LruCache PageKey Bytes)) : Prop where
  none_iff : part = none ↔ total = 0
  capacity_eq : ∀ p ∈ part, p.capacity = total
  housed : ∀ p ∈ part, p.Housed shards (total ⌈/⌉ shards) hash

/-- Both parts are as they were made, and what they give was taken last. -/
structure Current (shards : Nat) (total : PageType → Nat) (hash : PageType → PageKey → Nat)
    (c : PageCache) (events : List PageEvent) : Prop where
  divided : ∀ type, Divided shards (total type) (hash type) (c.part type)
  latest : ∀ type, ∀ p ∈ c.part type, ∀ k page, (p.lookup k).2 = some page →
    latest? k type events = some page

section Calls

variable {c : PageCache} {shards : Nat} {total : PageType → Nat}
  {hash : PageType → PageKey → Nat} {events : List PageEvent} {type type' : PageType}
  {p : LruCache PageKey Bytes}

theorem part_setPart (c : PageCache) (type type' : PageType) (p : LruCache PageKey Bytes) :
    (c.setPart type p).part type' = if type' = type then some p else c.part type' := by
  cases type <;> cases type' <;> rfl

theorem lookup_of_no_part (h : c.part type = none) (k : PageKey) : c.lookup k type = (c, none) := by
  unfold PageCache.lookup
  rw [h]

theorem insert_of_no_part (h : c.part type = none) (k : PageKey) (page : Bytes) :
    c.insert k page type = (c, false) := by
  unfold PageCache.insert
  rw [h]

theorem lookup_of_part (h : c.part type = some p) (k : PageKey) :
    c.lookup k type = (c.setPart type (p.lookup k).1, (p.lookup k).2) := by
  unfold PageCache.lookup
  rw [h]

theorem insert_of_part (h : c.part type = some p) (k : PageKey) (page : Bytes) :
    c.insert k page type = (c.setPart type (p.insert k page (max page.length 1)).1,
      (p.insert k page (max page.length 1)).2) := by
  unfold PageCache.insert
  rw [h]

/-- A call changes no part but that of its type. -/
theorem part_call (c : PageCache) (call : PageCall) (h : type ≠ call.type) :
    (c.call call).1.part type = c.part type := by
  cases call with
  | insert k page type' =>
    show (c.insert k page type').1.part type = _
    cases hp : c.part type' with
    | none => rw [insert_of_no_part hp]
    | some p => exact insert_of_part hp k page ▸ (part_setPart c type' type _).trans (if_neg h)
  | lookup k type' =>
    show (c.lookup k type').1.part type = _
    cases hp : c.part type' with
    | none => rw [lookup_of_no_part hp]
    | some p => exact lookup_of_part hp k ▸ (part_setPart c type' type _).trans (if_neg h)

theorem Divided.set (h : Divided shards (total type) (hash type) (c.part type))
    (hp : c.part type = some p) (hpos : 0 < shards) (call : CacheCall PageKey Bytes) :
    Divided shards (total type) (hash type) (some (p.call call).1) := by
  have hhoused := h.housed p hp
  obtain ⟨s, -, heq⟩ := p.exists_call (hhoused.length_eq.symm ▸ hpos) call
  refine ⟨?_, fun q hq => ?_, fun q hq => ?_⟩
  · rw [← h.none_iff, hp]
    simp
  · obtain rfl := Option.some.inj hq
    rw [heq, ← h.capacity_eq p hp]
  · obtain rfl := Option.some.inj hq
    exact hhoused.call hpos call

/-- A call of the cache of one part, if what it gives then was taken last. -/
theorem Current.setPart {e : PageEvent} (h : Current shards total hash c events)
    (hp : c.part type = some p) (hpos : 0 < shards) (call : CacheCall PageKey Bytes)
    (hown : ∀ k page, ((p.call call).1.lookup k).2 = some page →
      latest? k type (events ++ [e]) = some page)
    (hother : ∀ k type', type' ≠ type →
      latest? k type' (events ++ [e]) = latest? k type' events) :
    Current shards total hash (c.setPart type (p.call call).1) (events ++ [e]) := by
  refine ⟨fun type' => ?_, fun type' p' hp' k page hfound => ?_⟩
  · rw [part_setPart]
    split_ifs with htype
    · exact htype ▸ (h.divided type).set hp hpos call
    · exact h.divided type'
  · rw [part_setPart] at hp'
    split_ifs at hp' with htype
    · obtain rfl := Option.some.inj hp'
      exact htype ▸ hown k page hfound
    · rw [hother k type' htype]
      exact h.latest type' p' hp' k page hfound

theorem Current.of_same {e : PageEvent} (h : Current shards total hash c events)
    (he : ∀ k page type, e ≠ .inserted k page type true) :
    Current shards total hash c (events ++ [e]) := by
  refine ⟨h.divided, fun type p hp k page hfound => ?_⟩
  rw [latest_snoc he]
  exact h.latest type p hp k page hfound

/-- After each call the caches hold only what was inserted last. -/
theorem Current.call (h : Current shards total hash c events) (hpos : 0 < shards)
    (call : PageCall) :
    Current shards total hash (c.call call).1 (events ++ [(c.call call).2]) := by
  have hshards : ∀ {type p}, c.part type = some p → 0 < p.shards.length := fun {type p} hp =>
    ((h.divided type).housed p hp).length_eq.symm ▸ hpos
  cases call with
  | insert k page type =>
    show Current _ _ _ (c.insert k page type).1
      (events ++ [.inserted k page type (c.insert k page type).2])
    cases hp : c.part type with
    | none =>
      rw [insert_of_no_part hp]
      exact h.of_same (by simp)
    | some p =>
      rw [insert_of_part hp]
      refine h.setPart hp hpos (.insert k page (max page.length 1)) (fun k' page' hfound => ?_)
        fun k' type' htype => ?_
      · cases htaken : (p.insert k page (max page.length 1)).2 with
        | false =>
          rw [latest_snoc (by simp)]
          exact h.latest type p hp k' page' (LruCache.insert_refused (hshards hp) htaken ▸ hfound)
        | true =>
          obtain ⟨hself, hothers⟩ := LruCache.lookup_insert (hshards hp) htaken
          rw [latest_snoc_taken]
          split_ifs with hk
          · exact hself.symm.trans (hk.1 ▸ hfound)
          · exact h.latest type p hp k' page'
              (hothers k' page' (fun heq => hk ⟨heq.symm, rfl⟩) hfound)
      · cases (p.insert k page (max page.length 1)).2 with
        | false => exact latest_snoc (by simp)
        | true => rw [latest_snoc_taken, if_neg fun hk => htype hk.2.symm]
  | lookup k type =>
    show Current _ _ _ (c.lookup k type).1 (events ++ [.looked k type (c.lookup k type).2])
    cases hp : c.part type with
    | none =>
      rw [lookup_of_no_part hp]
      exact h.of_same (by simp)
    | some p =>
      rw [lookup_of_part hp]
      refine h.setPart hp hpos (.lookup k) (fun k' page' hfound => ?_)
        fun k' type' htype => latest_snoc (by simp)
      rw [latest_snoc (by simp)]
      exact h.latest type p hp k' page'
          ((LruCache.lookup_lookup (hshards hp) k k').symm.trans hfound)

end Calls

/-! ## The capacities -/

section Capacities

variable {capacity percentage shards j : Nat} {hash : PageKey → Nat}

theorem word64_of_le {n : Nat} (h : n ≤ word64Max) : word64? n = some n := by
  unfold word64?
  rw [if_pos ⟨Int.natCast_nonneg n, Int.ofNat_le.2 h⟩, Int.toNat_natCast]

theorem index_le (capacity : Nat) (hpct : percentage ≤ 100) :
    capacity / 100 * percentage ≤ capacity := by
  calc capacity / 100 * percentage ≤ capacity / 100 * 100 := Nat.mul_le_mul_left _ hpct
    _ ≤ capacity := Nat.div_mul_le_self capacity 100

theorem divide_eq (hword : capacity ≤ word64Max) (hpct : percentage ≤ 100) :
    divide? capacity percentage
      = some (capacity - capacity / 100 * percentage, capacity / 100 * percentage) := by
  have hle := index_le capacity hpct
  have hindex : word64? ((capacity / 100 : Int) * percentage)
      = some (capacity / 100 * percentage) := by
    exact_mod_cast word64_of_le (hle.trans hword)
  have hdata : word64? ((capacity : Int) - (capacity / 100 * percentage : Nat))
      = some (capacity - capacity / 100 * percentage) := by
    rw [← Int.ofNat_sub hle]
    exact word64_of_le ((Nat.sub_le _ _).trans hword)
  unfold divide?
  rw [hindex]
  show (word64? _).bind _ = _
  rw [hdata]
  rfl

/-- What the part for indexes lacks is the percentage of less than a hundred bytes. -/
theorem index_near (capacity percentage : Nat) :
    capacity / 100 * percentage ≤ capacity * percentage / 100
      ∧ (percentage ≤ 100 → capacity * percentage / 100 ≤ capacity / 100 * percentage + 99) := by
  have hrest := Nat.mod_lt capacity (by decide : 0 < 100)
  have hsplit : capacity * percentage
      = 100 * (capacity / 100 * percentage) + capacity % 100 * percentage := by
    conv_lhs => rw [← Nat.div_add_mod capacity 100]
    rw [Nat.add_mul, Nat.mul_assoc]
  constructor
  · omega
  · intro hpct
    have hless : capacity % 100 * percentage ≤ 99 * 100 := Nat.mul_le_mul (by omega) hpct
    omega

theorem share_eq (hpos : 0 < shards) (hword : capacity < word64Max) :
    share? capacity shards = some (capacity ⌈/⌉ shards) := by
  have hceil : capacity ⌈/⌉ shards
      = capacity / shards + (capacity % shards + shards - 1) / shards := by
    have hsplit : capacity + shards - 1
        = shards * (capacity / shards) + (capacity % shards + shards - 1) := by
      have := Nat.div_add_mod capacity shards
      omega
    rw [Nat.ceilDiv_eq_add_pred_div, hsplit, Nat.mul_add_div hpos]
  have hrest := Nat.mod_lt capacity hpos
  have hquot := Nat.div_le_self capacity shards
  unfold share?
  rw [hceil]
  split_ifs with h
  · have hnone : (capacity % shards + shards - 1) / shards = 0 := Nat.div_eq_of_lt (by omega)
    rw [hnone, Nat.add_zero]
    exact_mod_cast word64_of_le (hquot.trans hword.le)
  · have hone : (capacity % shards + shards - 1) / shards = 1 :=
      Nat.div_eq_of_lt_le (by omega) (by omega)
    rw [hone]
    exact_mod_cast word64_of_le (Nat.succ_le_of_lt (hquot.trans_lt hword))

end Capacities

/-! ## Runs -/

section Runs

variable {c : PageCache} {shards j : Nat} {total : PageType → Nat}
  {hash : PageType → PageKey → Nat} {events : List PageEvent}

/-- How many bytes the parts get. -/
def partBytes (capacity percentage : Nat) : PageType → Nat
  | .data => capacity - capacity / 100 * percentage
  | .index => capacity / 100 * percentage

theorem new_eq (j : Nat) (hash : PageType → PageKey → Nat) {capacity : Int} {percentage : Nat}
    (hpos : 0 ≤ capacity) (hpct : percentage ≤ 100) :
    ∃ c, new capacity percentage (2 ^ j) hash = .ok c
      ∧ ∀ type, c.part type
        = build (partBytes capacity.toNat percentage type) (2 ^ j) (hash type) := by
  unfold new
  rw [if_neg (Int.not_lt.2 hpos), if_neg (Nat.not_lt.2 hpct), isPowerOfTwo_two_pow]
  exact ⟨_, rfl, fun type => by cases type <;> rfl⟩

theorem ceilLog2_two_pow (j : Nat) : ceilLog2 (max (2 ^ j) 1) = j := by
  have hlog : ∀ k, ceilLog2 (max (2 ^ j) 1) ≤ k ↔ j ≤ k := fun k => by
    rw [ceilLog2_le_iff, Nat.one_shiftLeft, max_eq_left Nat.one_le_two_pow,
      Nat.pow_le_pow_iff_right (by decide)]
  exact Nat.le_antisymm ((hlog j).2 (Nat.le_refl j)) ((hlog _).1 (Nat.le_refl _))

theorem divided_build (total j : Nat) (hash : PageKey → Nat) :
    Divided (2 ^ j) total hash (build total (2 ^ j) hash) := by
  unfold build
  split_ifs with h
  · refine ⟨by simp [Nat.ne_of_gt h], fun p hp => ?_, fun p hp => ?_⟩
    · obtain rfl := Option.some.inj hp
      rfl
    · obtain rfl := Option.some.inj hp
      have hnew := LruCache.Housed.new (α := Bytes) total (2 ^ j) hash
      rwa [ceilLog2_two_pow] at hnew
  · exact ⟨by simp; omega, by simp, by simp⟩

theorem current_new (h : ∀ type, c.part type = build (total type) (2 ^ j) (hash type)) :
    Current (2 ^ j) total hash c [] := by
  refine ⟨fun type => h type ▸ divided_build (total type) j (hash type),
    fun type p hp k page hfound => ?_⟩
  rw [h, build] at hp
  split_ifs at hp
  · obtain rfl := Option.some.inj hp
    rw [LruCache.lookup_new] at hfound
    exact nomatch hfound
  · exact nomatch hp

theorem Current.stats_capacity (h : Current shards total hash c events) (type : PageType) :
    (c.stats type).capacity = total type := by
  unfold PageCache.stats
  cases hp : c.part type with
  | none => exact ((h.divided type).none_iff.1 hp).symm
  | some p => exact (h.divided type).capacity_eq p hp

theorem Current.shards_eq (h : Current shards total hash c events) {type : PageType}
    {p : LruCache PageKey Bytes} (hp : c.part type = some p) :
    p.shardCount = shards ∧ ∀ s ∈ p.shards, s.capacity = total type ⌈/⌉ shards := by
  have hhoused := (h.divided type).housed p hp
  refine ⟨hhoused.length_eq, fun s hs => ?_⟩
  obtain ⟨i, hi⟩ := hhoused.held_of_mem hs
  exact hi.capacity_eq

/-- A page is taken unless a shard of its type has no room for it at all. -/
theorem Current.insert_ok_iff (h : Current shards total hash c events) (hpos : 0 < shards)
    (k : PageKey) (page : Bytes) (type : PageType) :
    (c.insert k page type).2 = true ↔ max page.length 1 ≤ total type ⌈/⌉ shards := by
  cases hp : c.part type with
  | none =>
    rw [insert_of_no_part hp, (h.divided type).none_iff.1 hp, zero_ceilDiv]
    simp
  | some p =>
    rw [insert_of_part hp]
    refine (((h.divided type).housed p hp).insert_ok_iff hpos).trans (and_iff_right ?_)
    exact Nat.ne_of_gt (Nat.lt_of_lt_of_le Nat.one_pos (Nat.le_max_right _ _))

theorem Current.lookup_insert (h : Current shards total hash c events) (hpos : 0 < shards)
    {k : PageKey} {page : Bytes} {type : PageType} (htaken : (c.insert k page type).2 = true) :
    ((c.insert k page type).1.lookup k type).2 = some page := by
  cases hp : c.part type with
  | none =>
    rw [insert_of_no_part hp] at htaken
    exact nomatch htaken
  | some p =>
    have hlen := ((h.divided type).housed p hp).length_eq
    rw [insert_of_part hp] at htaken ⊢
    rw [lookup_of_part ((part_setPart c type type _).trans (if_pos rfl))]
    exact (LruCache.lookup_insert (hlen.symm ▸ hpos) htaken).1

theorem Current.latest_of_lookup (h : Current shards total hash c events) {k : PageKey}
    {page : Bytes} {type : PageType} (hfound : (c.lookup k type).2 = some page) :
    latest? k type events = some page := by
  cases hp : c.part type with
  | none =>
    rw [lookup_of_no_part hp] at hfound
    exact nomatch hfound
  | some p =>
    rw [lookup_of_part hp] at hfound
    exact h.latest type p hp k page hfound

theorem Current.run (h : Current shards total hash c events) (hpos : 0 < shards)
    (calls : List PageCall) : Current shards total hash (callAll PageCache.call c calls).1
      (events ++ (callAll PageCache.call c calls).2) :=
  callAll_history (fun _ _ call h => h.call hpos call) calls c events h

/-- A capacity is divided within the range of a word: the parts add up to it, and the one for
indexes has its percentage but for less than a hundred bytes. After any calls, a call changes
nothing of the other type; what is found under a key is the page of its type that was taken last,
and a page is taken, and found then, unless it is larger than a shard. -/
theorem pages_are_latest (capacity : Int) (nonneg : 0 ≤ capacity) (small : capacity < 2 ^ 63)
    (percentage : Nat) (part : percentage ≤ 100) (j : Nat) (hash : PageType → PageKey → Nat) :
    ∃ c, PageCache.new capacity percentage (2 ^ j) hash = .ok c
      ∧ divide? capacity.toNat percentage
        = some ((c.stats .data).capacity, (c.stats .index).capacity)
      ∧ (∀ type, ∀ p ∈ c.part type, p.shardCount = 2 ^ j
        ∧ ∀ s ∈ p.shards, share? (c.stats type).capacity (2 ^ j) = some s.capacity)
      ∧ ((c.stats .data).capacity : Int) + (c.stats .index).capacity = capacity
      ∧ (c.stats .index).capacity ≤ capacity.toNat * percentage / 100
      ∧ capacity.toNat * percentage / 100 ≤ (c.stats .index).capacity + 99
      ∧ ∀ calls : List PageCall,
        let run := callAll PageCache.call c calls
        (∀ (call : PageCall) type, type ≠ call.type →
            (run.1.call call).1.part type = run.1.part type
              ∧ (run.1.call call).1.stats type = run.1.stats type)
          ∧ (∀ k type, (run.1.lookup k type).2 = none
            ∨ ∃ page, (run.1.lookup k type).2 = some page ∧ latest? k type run.2 = some page)
          ∧ ∀ k page type, ((run.1.insert k page type).2 = true
              ↔ max page.length 1 ≤ (c.stats type).capacity ⌈/⌉ 2 ^ j)
            ∧ ((run.1.insert k page type).2 = true →
              ((run.1.insert k page type).1.lookup k type).2 = some page) := by
  obtain ⟨c, hnew, hparts⟩ := new_eq j hash nonneg part
  have hpos : 0 < 2 ^ j := Nat.two_pow_pos j
  have hfresh := current_new hparts
  have hword : capacity.toNat < word64Max := by
    simp only [word64Max]
    omega
  have hle := index_le capacity.toNat part
  have hbytes : ∀ type, partBytes capacity.toNat percentage type ≤ capacity.toNat := by
    rintro (_ | _)
    · exact Nat.sub_le _ _
    · exact hle
  obtain ⟨hlow, hnear⟩ := index_near capacity.toNat percentage
  refine ⟨c, hnew, ?_, fun type p hp => ?_, ?_, ?_, ?_, fun calls => ?_⟩
  · rw [hfresh.stats_capacity, hfresh.stats_capacity]
    exact divide_eq hword.le part
  · obtain ⟨hcount, hshares⟩ := hfresh.shards_eq hp
    refine ⟨hcount, fun s hs => ?_⟩
    rw [hshares s hs, hfresh.stats_capacity]
    exact share_eq hpos ((hbytes type).trans_lt hword)
  · rw [hfresh.stats_capacity, hfresh.stats_capacity]
    simp only [partBytes]
    omega
  · rw [hfresh.stats_capacity]
    exact hlow
  · rw [hfresh.stats_capacity]
    exact hnear part
  · have hrun := hfresh.run hpos calls
    refine ⟨fun call type htype => ?_, fun k type => ?_, fun k page type => ⟨?_, ?_⟩⟩
    · have hsame := part_call (callAll PageCache.call c calls).1 call htype
      exact ⟨hsame, by unfold PageCache.stats; rw [hsame]⟩
    · cases hfound : ((callAll PageCache.call c calls).1.lookup k type).2 with
      | none => exact .inl rfl
      | some page => exact .inr ⟨page, rfl, hrun.latest_of_lookup hfound⟩
    · rw [hfresh.stats_capacity]
      exact hrun.insert_ok_iff hpos k page type
    · exact hrun.lookup_insert hpos

/-- A hash for each of the two caches. -/
def offsets : PageType → PageKey → Nat
  | .data, k => k.offset + 1
  | .index, k => k.offset

/-- Ten bytes are for indexes, five in each of two shards. -/
def smallPages : PageCache where
  capacity := 210
  indexPercentage := 5
  data := build 200 2 (offsets .data)
  index := build 10 2 (offsets .index)

/-- The pages for indexes crowd a shard, and one is too large for it. -/
def crowdedPages : PageCache × List PageEvent :=
  callAll PageCache.call smallPages
    [.insert ⟨"f", 0⟩ [1] .data, .insert ⟨"f", 0⟩ [2, 2, 2] .index, .insert ⟨"f", 2⟩ [3, 3] .index,
      .insert ⟨"f", 2⟩ [4, 4, 4] .index, .insert ⟨"f", 2⟩ [5, 5, 5, 5, 5, 5] .index,
      .insert ⟨"f", 1⟩ [] .index]

theorem pages_are_latest_crowded : (0 : Int) ≤ 210 ∧ (210 : Int) < 2 ^ 63 ∧ 5 ≤ 100
    ∧ PageCache.new 210 5 (2 ^ 1) offsets = .ok smallPages ∧ divide? 210 5 = some (200, 10)
    ∧ (crowdedPages.1.lookup ⟨"f", 0⟩ .index).2 = none
    ∧ latest? ⟨"f", 0⟩ .index crowdedPages.2 = some [2, 2, 2]
    ∧ (crowdedPages.1.lookup ⟨"f", 2⟩ .index).2 = some [4, 4, 4]
    ∧ latest? ⟨"f", 2⟩ .index crowdedPages.2 = some [4, 4, 4]
    ∧ (crowdedPages.1.lookup ⟨"f", 0⟩ .data).2 = some [1] := by
  obtain ⟨c, hnew, hdivide, -, -, -, -, hrun⟩ :=
    pages_are_latest 210 (by decide) (by decide) 5 (by decide) 1 offsets
  obtain rfl : c = smallPages := Except.ok.inj (hnew.symm.trans rfl)
  have hfound : (crowdedPages.1.lookup ⟨"f", 2⟩ .index).2 = some [4, 4, 4] := by decide
  obtain ⟨page, hpage, hlast⟩ := ((hrun _).2.1 ⟨"f", 2⟩ .index).resolve_left
    (by rw [hfound]; simp : ¬(crowdedPages.1.lookup ⟨"f", 2⟩ .index).2 = none)
  obtain rfl : page = [4, 4, 4] := Option.some.inj (hpage.symm.trans hfound)
  exact ⟨by decide, by decide, by decide, hnew, hdivide, by decide, by decide, hfound, hlast,
    by decide⟩

end Runs

end PageCache

end QueryHost
