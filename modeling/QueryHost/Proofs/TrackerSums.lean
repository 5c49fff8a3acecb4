import Mathlib.Algebra.Ring.Int.Defs
import Mathlib.Data.List.Infix
import Mathlib.Logic.Relation
import Mathlib.Order.Bounds.Basic
import QueryHost.Memory.Tracker

/-!
# What the counts of a tracker add up to

The path of a tracker leads over its parents up to the root (`Valid.mem_path_iff`), so what is
counted on a path is counted at a tracker and above it. After any run of calls whose sums are words,
each count of a tracker is the sum over the calls at it and below it, and its peak is the most that
was ever in use (`counts_are_sums`).
-/

namespace QueryHost

inductive TrackerCall where
  | newRoot (kind : TrackerKind) (label : String)
  | newChild (kind : TrackerKind) (label : String) (limit : Int) (parent : TrackerId)
  | consume (tracker : TrackerId) (bytes : Int)
  | release (tracker : TrackerId) (bytes : Int)
  deriving DecidableEq, Repr

namespace TrackerCall

/-- The tracker that a call names is there. -/
def Names (ts : Trackers) : TrackerCall → Prop
  | newRoot _ _ => True
  | newChild _ _ _ parent => parent < ts.nodes.length
  | consume t _ => t < ts.nodes.length
  | release t _ => t < ts.nodes.length

instance (ts : Trackers) : (c : TrackerCall) → Decidable (c.Names ts)
  | newRoot _ _ => isTrue trivial
  | newChild _ _ _ parent => inferInstanceAs (Decidable (parent < ts.nodes.length))
  | consume t _ => inferInstanceAs (Decidable (t < ts.nodes.length))
  | release t _ => inferInstanceAs (Decidable (t < ts.nodes.length))

/-- The parent of the tracker that a call creates, if it creates one that has a parent. -/
def parentOfNew : TrackerCall → Option (Option TrackerId)
  | newRoot _ _ => some none
  | newChild _ _ _ parent => some (some parent)
  | _ => none

def consumes : TrackerCall → Option (TrackerId × Int)
  | consume t bytes => some (t, bytes)
  | _ => none

def releases : TrackerCall → Option (TrackerId × Int)
  | release t bytes => some (t, bytes)
  | _ => none

theorem Names.parent_lt {ts : Trackers} {c : TrackerCall} (h : c.Names ts)
    {parent : Option TrackerId} (hnew : c.parentOfNew = some parent) :
    ∀ p ∈ parent, p < ts.nodes.length := by
  intro p hp
  cases c <;> simp only [parentOfNew, reduceCtorEq, Option.some.injEq] at hnew
  · rw [← hnew] at hp
    exact absurd hp (by simp)
  · rw [← hnew, Option.mem_some_iff] at hp
    exact hp ▸ h

theorem Names.mono {ts ts' : Trackers} {c : TrackerCall} (h : c.Names ts)
    (hle : ts.nodes.length ≤ ts'.nodes.length) : c.Names ts' := by
  cases c with
  | newRoot kind label => trivial
  | newChild kind label limit parent => exact Nat.lt_of_lt_of_le h hle
  | consume t bytes => exact Nat.lt_of_lt_of_le h hle
  | release t bytes => exact Nat.lt_of_lt_of_le h hle

/-- The amounts of calls are at trackers that they name. -/
def AtNamed (amount : TrackerCall → Option (TrackerId × Int)) : Prop :=
  ∀ {ts : Trackers} {c : TrackerCall} {u : TrackerId} {bytes : Int}, c.Names ts →
    amount c = some (u, bytes) → u < ts.nodes.length

theorem atNamed_consumes : AtNamed consumes := by
  intro ts c u bytes h hu
  cases c <;> simp only [consumes, reduceCtorEq, Option.some.injEq, Prod.mk.injEq] at hu
  exact hu.1 ▸ h

theorem atNamed_releases : AtNamed releases := by
  intro ts c u bytes h hu
  cases c <;> simp only [releases, reduceCtorEq, Option.some.injEq, Prod.mk.injEq] at hu
  exact hu.1 ▸ h

end TrackerCall

namespace Trackers

def call (ts : Trackers) : TrackerCall → Trackers
  | .newRoot kind label => (ts.newRoot kind label).1
  | .newChild kind label limit parent => (ts.newChild kind label limit parent).1
  | .consume t bytes => ts.consume t bytes
  | .release t bytes => ts.release t bytes

def after (calls : List TrackerCall) : Trackers := calls.foldl call {}

/-- Every call names a tracker that is there by then. -/
inductive Valid : List TrackerCall → Prop
  | nil : Valid []
  | snoc {calls : List TrackerCall} {c : TrackerCall} :
      Valid calls → c.Names (after calls) → Valid (calls ++ [c])

/-- The parents of all trackers, in the order of their creation. -/
def parents (calls : List TrackerCall) : List (Option TrackerId) :=
  calls.filterMap TrackerCall.parentOfNew

def IsParent (calls : List TrackerCall) (t p : TrackerId) : Prop :=
  (parents calls)[t]? = some (some p)

/-- What an amount at a tracker adds to the sum of `t`. -/
def share (ts : Trackers) (t : TrackerId) : Option (TrackerId × Int) → Int
  | some (u, bytes) => if t ∈ ts.path u then max bytes 0 else 0
  | none => 0

/-- The sum of the positive amounts of the calls at `t` and below it. -/
def total (amount : TrackerCall → Option (TrackerId × Int)) (calls : List TrackerCall)
    (t : TrackerId) : Int :=
  (calls.map fun c => (after calls).share t (amount c)).sum

def consumed : List TrackerCall → TrackerId → Int := total TrackerCall.consumes

def released : List TrackerCall → TrackerId → Int := total TrackerCall.releases

/-- Zero and what was in use at `t` in each state of the run. -/
def everInUse (calls : List TrackerCall) (t : TrackerId) : Set Int :=
  insert 0 {bytes | ∃ before, before <+: calls ∧ bytes = (after before).current t}

theorem after_snoc (calls : List TrackerCall) (c : TrackerCall) :
    after (calls ++ [c]) = (after calls).call c := List.foldl_concat _ _ _ _

/-! ## The tree -/

/-- The paths of all trackers. No count changes them. -/
def shape (ts : Trackers) : List (List TrackerId) := ts.nodes.map (·.path)

section Tree

variable {ts : Trackers} {calls before : List TrackerCall} {c : TrackerCall}
  {t u p : TrackerId} {n : Tracker}

theorem length_shape (ts : Trackers) : ts.shape.length = ts.nodes.length := List.length_map _

theorem path_eq_shape (ts : Trackers) (t : TrackerId) : ts.path t = ts.shape[t]?.getD [] := by
  unfold path shape node?
  rw [List.getElem?_map]
  cases ts.nodes[t]? <;> rfl

theorem lt_of_node? (h : ts.node? t = some n) : t < ts.nodes.length :=
  (List.getElem?_eq_some_iff.1 h).1

theorem exists_node? (h : t < ts.nodes.length) : ∃ n, ts.node? t = some n :=
  ⟨_, List.getElem?_eq_getElem h⟩

theorem node?_add (new : Tracker) : (ts.add new).1.node? t
    = if t = ts.nodes.length then some new else ts.node? t := by
  simp only [add, node?]
  split_ifs with h
  · rw [h, List.getElem?_concat_length]
  · rw [List.getElem?_append]
    split_ifs with hlt
    · rfl
    · have hlen : ts.nodes.length < t := Nat.lt_of_le_of_ne (Nat.le_of_not_lt hlt) (Ne.symm h)
      rw [List.getElem?_eq_none (by simp only [List.length_singleton]; omega),
        List.getElem?_eq_none (Nat.le_of_lt hlen)]

theorem node?_onPath (ts : Trackers) (u t : TrackerId) (f : Tracker → Tracker) :
    (ts.onPath u f).node? t = (ts.node? t).map fun n => if t ∈ ts.path u then f n else n := by
  simp only [onPath, node?, List.getElem?_mapIdx]

theorem shape_onPath {f : Tracker → Tracker} (hf : ∀ n, (f n).path = n.path) :
    (ts.onPath u f).shape = ts.shape := by
  refine List.ext_getElem? fun i => ?_
  have hnode := ts.node?_onPath u i f
  simp only [node?] at hnode
  rw [shape, shape, List.getElem?_map, List.getElem?_map, hnode]
  cases ts.nodes[i]? with
  | none => rfl
  | some n =>
    simp only [Option.map_some]
    split_ifs
    · rw [hf]
    · rfl

/-- The path of the tracker that a call creates. -/
def newPath (ts : Trackers) (parent : Option TrackerId) : List TrackerId :=
  ts.nodes.length :: (parent.map ts.path).getD []

/-- A call that creates a tracker adds its path, and no other changes a path. -/
theorem shape_call (ts : Trackers) (c : TrackerCall) :
    (ts.call c).shape = ts.shape ++ (c.parentOfNew.map ts.newPath).toList := by
  cases c with
  | newRoot kind label => exact List.map_append
  | newChild kind label limit parent => exact List.map_append
  | consume u bytes =>
    refine Eq.trans ?_ (List.append_nil _).symm
    simp only [call, consume]
    split_ifs
    · exact shape_onPath fun _ => rfl
    · rfl
  | release u bytes =>
    refine Eq.trans ?_ (List.append_nil _).symm
    simp only [call, release]
    split_ifs
    · exact shape_onPath fun _ => rfl
    · rfl

theorem shape_mono (h : before <+: calls) : (after before).shape <+: (after calls).shape := by
  obtain ⟨more, rfl⟩ := h
  induction more using List.reverseRecOn with
  | nil => rw [List.append_nil]
  | append_singleton more c ih =>
    rw [← List.append_assoc, after_snoc, shape_call]
    exact ih.trans (List.prefix_append _ _)

theorem length_mono (h : before <+: calls) :
    (after before).nodes.length ≤ (after calls).nodes.length := by
  rw [← length_shape, ← length_shape]
  exact (shape_mono h).length_le

theorem path_kept (h : before <+: calls) (hu : u < (after before).nodes.length) :
    (after calls).path u = (after before).path u := by
  rw [← length_shape] at hu
  rw [path_eq_shape, path_eq_shape, List.prefix_iff_getElem?.1 (shape_mono h) u hu,
    List.getElem?_eq_getElem hu]

theorem parents_snoc (calls : List TrackerCall) (c : TrackerCall) :
    parents (calls ++ [c]) = parents calls ++ c.parentOfNew.toList := by
  rw [parents, List.filterMap_append, parents]
  cases h : c.parentOfNew <;> simp [h]

theorem length_parents (calls : List TrackerCall) :
    (parents calls).length = (after calls).nodes.length := by
  induction calls using List.reverseRecOn with
  | nil => rfl
  | append_singleton calls c ih =>
    rw [← length_shape] at ih ⊢
    rw [after_snoc, shape_call, parents_snoc, List.length_append, List.length_append, ih]
    cases c.parentOfNew <;> rfl

/-- What is above a tracker stays above it. -/
theorem above_kept (h : before <+: calls) {parent : Option TrackerId}
    (hlt : ∀ p ∈ parent, p < (after before).nodes.length) :
    (parent.map (after calls).path).getD [] = (parent.map (after before).path).getD [] := by
  cases parent with
  | none => rfl
  | some p => exact path_kept h (hlt p rfl)

/-- The path of a tracker is itself, then the path of its parent, which is older. -/
theorem Valid.path_eq (h : Valid calls) : ∀ {t : TrackerId} {parent : Option TrackerId},
    (parents calls)[t]? = some parent →
      (∀ p ∈ parent, p < t)
        ∧ (after calls).path t = t :: (parent.map (after calls).path).getD [] := by
  induction h with
  | nil => intro t parent ht; simp [parents] at ht
  | @snoc calls c _ hc ih =>
    intro t parent ht
    have hpre : calls <+: calls ++ [c] := List.prefix_append _ _
    rw [parents_snoc] at ht
    by_cases hold : t < (parents calls).length
    · rw [List.getElem?_append_left hold] at ht
      obtain ⟨hlt, hpath⟩ := ih ht
      rw [length_parents] at hold
      rw [path_kept hpre hold, above_kept hpre fun p hp => Nat.lt_trans (hlt p hp) hold]
      exact ⟨hlt, hpath⟩
    · rw [List.getElem?_append_right (Nat.le_of_not_lt hold)] at ht
      cases hnew : c.parentOfNew with
      | none => simp [hnew] at ht
      | some q =>
        simp only [hnew, Option.toList_some, List.getElem?_singleton] at ht
        split_ifs at ht with hsub
        obtain rfl := Option.some.inj ht
        obtain rfl : t = (after calls).nodes.length := by
          rw [length_parents] at hold hsub
          exact Nat.le_antisymm (Nat.le_of_sub_eq_zero hsub) (Nat.le_of_not_lt hold)
        have hlt := hc.parent_lt hnew
        refine ⟨hlt, ?_⟩
        rw [above_kept hpre hlt, path_eq_shape, after_snoc, shape_call, hnew, Option.map_some,
          Option.toList_some, ← length_shape, List.getElem?_concat_length, length_shape]
        rfl

/-- The path of a tracker holds itself and its ancestors; a parent has a smaller number than its
child. -/
theorem Valid.mem_path_iff (h : Valid calls) : ∀ {u : TrackerId},
    u < (after calls).nodes.length →
      (t ∈ (after calls).path u ↔ Relation.ReflTransGen (IsParent calls) u t) := by
  intro u
  induction u using Nat.strongRecOn with
  | _ u ih =>
    intro hu
    rw [← length_parents] at hu
    have hparent : (parents calls)[u]? = some (parents calls)[u] := List.getElem?_eq_getElem hu
    generalize (parents calls)[u] = parent at hparent
    obtain ⟨hlt, hpath⟩ := h.path_eq hparent
    rw [hpath, List.mem_cons, Relation.ReflTransGen.cases_head_iff, eq_comm]
    refine or_congr_right ?_
    cases parent with
    | none => simp [IsParent, hparent]
    | some p =>
      rw [length_parents] at hu
      have hp : p < u := hlt p rfl
      simp only [IsParent, hparent, Option.some.injEq, exists_eq_left']
      exact ih p hp (Nat.lt_trans hp hu)

/-- A path leads to trackers that were created before. -/
theorem Valid.le_of_mem_path (h : Valid calls) (hu : u < (after calls).nodes.length)
    (ht : t ∈ (after calls).path u) : t ≤ u := by
  refine ((h.mem_path_iff hu).1 ht).head_induction_on (Nat.le_refl t) fun {u p} hp _ hle => ?_
  exact Nat.le_of_lt (Nat.lt_of_le_of_lt hle ((h.path_eq hp).1 p rfl))

end Tree

/-! ## The sums -/

section Sums

variable {calls before : List TrackerCall} {c : TrackerCall} {t : TrackerId}
  {amount : TrackerCall → Option (TrackerId × Int)}

theorem Valid.names (h : Valid calls) : ∀ c ∈ calls, c.Names (after calls) := by
  induction h with
  | nil => simp
  | @snoc calls last _ hlast ih =>
    intro c hc
    have hle := length_mono (List.prefix_append calls [last])
    rcases List.mem_append.1 hc with hc | hc
    · exact (ih c hc).mono hle
    · exact List.mem_singleton.1 hc ▸ hlast.mono hle

theorem share_kept (h : before <+: calls) (ha : TrackerCall.AtNamed amount)
    (hc : c.Names (after before)) :
    (after calls).share t (amount c) = (after before).share t (amount c) := by
  cases hp : amount c with
  | none => rfl
  | some p => simp only [share, path_kept h (ha hc hp)]

theorem share_nonneg (ts : Trackers) (t : TrackerId) (p : Option (TrackerId × Int)) :
    0 ≤ ts.share t p := by
  unfold share
  split
  · split_ifs <;> omega
  · exact Int.le_refl 0

theorem total_snoc (ha : TrackerCall.AtNamed amount) (h : Valid calls)
    (hc : c.Names (after calls)) : total amount (calls ++ [c]) t
      = total amount calls t + (after calls).share t (amount c) := by
  have hpre : calls <+: calls ++ [c] := List.prefix_append _ _
  have hold : (calls.map fun c' => (after (calls ++ [c])).share t (amount c'))
      = calls.map fun c' => (after calls).share t (amount c') :=
    List.map_congr_left fun c' hc' => share_kept hpre ha (h.names c' hc')
  rw [total, List.map_append, hold, List.sum_append, List.map_singleton, List.sum_singleton,
    share_kept hpre ha hc, total]

theorem total_nonneg (ha : TrackerCall.AtNamed amount) (h : Valid calls) :
    0 ≤ total amount calls t := by
  induction h with
  | nil => exact Int.le_refl 0
  | @snoc calls c h hc ih =>
    rw [total_snoc ha h hc]
    exact Int.add_nonneg ih (share_nonneg _ _ _)

theorem total_le_snoc (ha : TrackerCall.AtNamed amount) (h : Valid calls)
    (hc : c.Names (after calls)) : total amount calls t ≤ total amount (calls ++ [c]) t := by
  rw [total_snoc ha h hc]
  exact Int.le_add_of_nonneg_right (share_nonneg _ _ _)

theorem share_of_length_le (ha : TrackerCall.AtNamed amount) (h : Valid calls)
    (hc : c.Names (after calls)) (hlen : (after calls).nodes.length ≤ t) :
    (after calls).share t (amount c) = 0 := by
  cases hp : amount c with
  | none => rfl
  | some p =>
    have hu : p.1 < (after calls).nodes.length := ha hc hp
    refine if_neg fun ht => absurd (h.le_of_mem_path hu ht) ?_
    exact Nat.not_le.2 (Nat.lt_of_lt_of_le hu hlen)

/-- Nothing is counted at a tracker before it is there. -/
theorem total_of_length_le (ha : TrackerCall.AtNamed amount) (h : Valid calls) :
    (after calls).nodes.length ≤ t → total amount calls t = 0 := by
  induction h with
  | nil => exact fun _ => rfl
  | @snoc calls c h hc ih =>
    intro hlen
    have hlen : (after calls).nodes.length ≤ t :=
      Nat.le_trans (length_mono (List.prefix_append _ _)) hlen
    rw [total_snoc ha h hc, ih hlen, share_of_length_le ha h hc hlen, Int.add_zero]

end Sums

/-! ## One call -/

section Call

variable {ts : Trackers} {calls : List TrackerCall} {c : TrackerCall} {t u : TrackerId}
  {n n' : Tracker} {bytes : Int}

theorem share_of_pos (h : 0 < bytes) :
    ts.share t (some (u, bytes)) = if t ∈ ts.path u then bytes else 0 := by
  simp only [share, max_eq_left (Int.le_of_lt h)]

theorem share_of_not_pos (h : ¬ 0 < bytes) : ts.share t (some (u, bytes)) = 0 := by
  simp only [share, max_eq_right (Int.not_lt.1 h), ite_self]

theorem node?_onPath_cases {f : Tracker → Tracker} (hpos : 0 < bytes)
    (h : (ts.onPath u f).node? t = some n') : ∃ n, ts.node? t = some n
      ∧ (ts.share t (some (u, bytes)) = 0 ∧ n' = n
        ∨ ts.share t (some (u, bytes)) = bytes ∧ n' = f n) := by
  rw [node?_onPath, Option.map_eq_some_iff] at h
  obtain ⟨n, hn, rfl⟩ := h
  refine ⟨n, hn, ?_⟩
  rw [share_of_pos hpos]
  split_ifs
  · exact .inr ⟨rfl, rfl⟩
  · exact .inl ⟨rfl, rfl⟩

/-- A call creates a tracker with no counts, or counts at each tracker what its share is. -/
theorem node?_call (h : (ts.call c).node? t = some n') :
    (t = ts.nodes.length ∧ n'.current = 0 ∧ n'.peak = 0 ∧ n'.allocated = 0 ∧ n'.deallocated = 0)
      ∨ ∃ n, ts.node? t = some n
        ∧ (ts.share t c.consumes = 0 ∧ ts.share t c.releases = 0 ∧ n' = n
          ∨ ts.share t c.releases = 0 ∧ n' = n.add (ts.share t c.consumes)
          ∨ ts.share t c.consumes = 0 ∧ n' = n.subtract (ts.share t c.releases)) := by
  cases c with
  | newRoot kind label =>
    simp only [call, newRoot, node?_add] at h
    split_ifs at h with ht
    · obtain rfl := Option.some.inj h
      exact .inl ⟨ht, rfl, rfl, rfl, rfl⟩
    · exact .inr ⟨n', h, .inl ⟨rfl, rfl, rfl⟩⟩
  | newChild kind label limit parent =>
    simp only [call, newChild, node?_add] at h
    split_ifs at h with ht
    · obtain rfl := Option.some.inj h
      exact .inl ⟨ht, rfl, rfl, rfl, rfl⟩
    · exact .inr ⟨n', h, .inl ⟨rfl, rfl, rfl⟩⟩
  | consume u bytes =>
    right
    simp only [call, consume] at h
    simp only [TrackerCall.consumes]
    split_ifs at h with hpos
    · obtain ⟨n, hn, ⟨hzero, rfl⟩ | ⟨hshare, rfl⟩⟩ := node?_onPath_cases hpos h
      · exact ⟨n', hn, .inl ⟨hzero, rfl, rfl⟩⟩
      · exact ⟨n, hn, .inr (.inl ⟨rfl, by rw [hshare]⟩)⟩
    · exact ⟨n', h, .inl ⟨share_of_not_pos hpos, rfl, rfl⟩⟩
  | release u bytes =>
    right
    simp only [call, release] at h
    simp only [TrackerCall.releases]
    split_ifs at h with hpos
    · obtain ⟨n, hn, ⟨hzero, rfl⟩ | ⟨hshare, rfl⟩⟩ := node?_onPath_cases hpos h
      · exact ⟨n', hn, .inl ⟨rfl, hzero, rfl⟩⟩
      · exact ⟨n, hn, .inr (.inr ⟨rfl, by rw [hshare]⟩)⟩
    · exact ⟨n', h, .inl ⟨rfl, share_of_not_pos hpos, rfl⟩⟩

end Call

/-! ## A run of calls -/

/-- The sums are words. As they never fall, they were words all along. -/
def Fits (calls : List TrackerCall) : Prop :=
  ∀ t, consumed calls t ≤ int64Max ∧ released calls t ≤ int64Max

/-- The counts of a tracker after a run. -/
structure Counts (calls : List TrackerCall) (t : TrackerId) (n : Tracker) : Prop where
  allocated : n.allocated = consumed calls t
  deallocated : n.deallocated = released calls t
  current : n.current = consumed calls t - released calls t
  peak : IsGreatest (everInUse calls t) n.peak

section Run

variable {ts : Trackers} {calls : List TrackerCall} {c : TrackerCall} {t : TrackerId}
  {n n' : Tracker}

theorem current_of_node? (h : ts.node? t = some n) : ts.current t = n.current := by
  simp only [current, h]

theorem current_of_length_le (h : ts.nodes.length ≤ t) : ts.current t = 0 := by
  have hn : ts.node? t = none := List.getElem?_eq_none h
  simp only [current, hn]

theorem current_mem_everInUse (hn : (after calls).node? t = some n) :
    n.current ∈ everInUse calls t :=
  .inr ⟨calls, List.prefix_refl calls, (current_of_node? hn).symm⟩

theorem everInUse_snoc (calls : List TrackerCall) (c : TrackerCall) (t : TrackerId) :
    everInUse (calls ++ [c]) t
      = insert ((after (calls ++ [c])).current t) (everInUse calls t) := by
  ext bytes
  simp only [everInUse, Set.mem_insert_iff, Set.mem_ofPred_eq, List.prefix_concat_iff, or_and_right,
    exists_or, exists_eq_left]
  exact or_left_comm

theorem isGreatest_everInUse_of_length_le (h : (after calls).nodes.length ≤ t) :
    IsGreatest (everInUse calls t) 0 := by
  refine ⟨Set.mem_insert _ _, ?_⟩
  rintro bytes (rfl | ⟨before, hpre, rfl⟩)
  · exact Int.le_refl 0
  · rw [current_of_length_le (Nat.le_trans (length_mono hpre) h)]

theorem isGreatest_everInUse_snoc {peak : Int} (h : IsGreatest (everInUse calls t) peak)
    (hn : (after (calls ++ [c])).node? t = some n') (hpeak : n'.peak = max peak n'.current) :
    IsGreatest (everInUse (calls ++ [c]) t) n'.peak := by
  rw [everInUse_snoc, hpeak, max_comm, current_of_node? hn]
  exact h.insert _

theorem Fits.of_snoc (h : Valid calls) (hc : c.Names (after calls)) (hfits : Fits (calls ++ [c])) :
    Fits calls := fun t =>
  ⟨Int.le_trans (total_le_snoc TrackerCall.atNamed_consumes h hc) (hfits t).1,
    Int.le_trans (total_le_snoc TrackerCall.atNamed_releases h hc) (hfits t).2⟩

theorem Counts.of_new (h : Valid calls) (hc : c.Names (after calls))
    (ht : t = (after calls).nodes.length) (hn' : (after (calls ++ [c])).node? t = some n')
    (hcurrent : n'.current = 0) (hpeak : n'.peak = 0) (hallocated : n'.allocated = 0)
    (hdeallocated : n'.deallocated = 0) : Counts (calls ++ [c]) t n' := by
  have hle : (after calls).nodes.length ≤ t := Nat.le_of_eq ht.symm
  have hzero : ∀ {amount}, TrackerCall.AtNamed amount → total amount (calls ++ [c]) t = 0 := by
    intro amount ha
    rw [total_snoc ha h hc, total_of_length_le ha h hle, share_of_length_le ha h hc hle]
    rfl
  have hC : consumed (calls ++ [c]) t = 0 := hzero TrackerCall.atNamed_consumes
  have hR : released (calls ++ [c]) t = 0 := hzero TrackerCall.atNamed_releases
  refine ⟨by omega, by omega, by omega, ?_⟩
  refine isGreatest_everInUse_snoc (isGreatest_everInUse_of_length_le hle) hn' ?_
  rw [hpeak, hcurrent, max_self]

/-- A call keeps the counts, as long as the sums are words. -/
theorem counts_snoc (h : Valid calls) (hc : c.Names (after calls)) (hfits : Fits (calls ++ [c]))
    (hold : ∀ n, (after calls).node? t = some n → Counts calls t n)
    (hn' : (after (calls ++ [c])).node? t = some n') : Counts (calls ++ [c]) t n' := by
  have hC : consumed (calls ++ [c]) t = consumed calls t + (after calls).share t c.consumes :=
    total_snoc TrackerCall.atNamed_consumes h hc
  have hR : released (calls ++ [c]) t = released calls t + (after calls).share t c.releases :=
    total_snoc TrackerCall.atNamed_releases h hc
  have hC0 : 0 ≤ consumed calls t := total_nonneg TrackerCall.atNamed_consumes h
  have hR0 : 0 ≤ released calls t := total_nonneg TrackerCall.atNamed_releases h
  obtain ⟨hCmax, hRmax⟩ := hfits t
  have hstep := hn'
  rw [after_snoc] at hstep
  rcases node?_call hstep with ⟨ht, hcur, hpeak, hal, hde⟩ | ⟨n, hn, hkind⟩
  · exact .of_new h hc ht hn' hcur hpeak hal hde
  obtain ⟨hal, hde, hcur, hpeak⟩ := hold n hn
  have hle : n.current ≤ n.peak := hpeak.2 (current_mem_everInUse hn)
  have ha0 := share_nonneg (after calls) t c.consumes
  have hr0 := share_nonneg (after calls) t c.releases
  generalize (after calls).share t c.consumes = a at *
  generalize (after calls).share t c.releases = r at *
  rcases hkind with ⟨rfl, rfl, rfl⟩ | ⟨rfl, rfl⟩ | ⟨rfl, rfl⟩
  · refine ⟨by omega, by omega, by omega, ?_⟩
    exact isGreatest_everInUse_snoc hpeak hn' (max_eq_left hle).symm
  · have hcur' : (n.add a).current = n.current + a :=
      wrapInt64_eq_self (by simp only [int64Min, int64Max] at *; omega) (by omega)
    have hal' : (n.add a).allocated = n.allocated + a :=
      wrapInt64_eq_self (by simp only [int64Min]; omega) (by omega)
    have hde' : (n.add a).deallocated = n.deallocated := rfl
    refine ⟨by omega, by omega, by omega, ?_⟩
    exact isGreatest_everInUse_snoc hpeak hn' rfl
  · have hcur' : (n.subtract r).current = n.current - r :=
      wrapInt64_eq_self (by simp only [int64Min, int64Max] at *; omega) (by omega)
    have hde' : (n.subtract r).deallocated = n.deallocated + r :=
      wrapInt64_eq_self (by simp only [int64Min]; omega) (by omega)
    have hal' : (n.subtract r).allocated = n.allocated := rfl
    have hle' : (n.subtract r).current ≤ n.peak := by omega
    refine ⟨by omega, by omega, by omega, ?_⟩
    exact isGreatest_everInUse_snoc hpeak hn' (max_eq_left hle').symm

theorem Valid.counts (h : Valid calls) : Fits calls → ∀ n, (after calls).node? t = some n →
    Counts calls t n := by
  induction h with
  | nil => intro _ n hn; simp [after, node?] at hn
  | snoc h hc ih => exact fun hfits n hn => counts_snoc h hc hfits (ih (hfits.of_snoc h hc)) hn

theorem Valid.anyLimitExceeded_iff (h : Valid calls) (ht : t < (after calls).nodes.length) :
    (after calls).anyLimitExceeded t = true
      ↔ ∃ u a, Relation.ReflTransGen (IsParent calls) t u ∧ (after calls).node? u = some a
        ∧ 0 ≤ a.limit ∧ a.limit < a.current := by
  simp only [anyLimitExceeded, List.any_eq_true, h.mem_path_iff ht, Option.any_eq_true,
    Tracker.isExceeded, Tracker.hasLimit, Bool.and_eq_true, decide_eq_true_eq]
  constructor
  · rintro ⟨u, hup, a, ha, hlimit⟩
    exact ⟨u, a, hup, ha, hlimit⟩
  · rintro ⟨u, a, hup, ha, hlimit⟩
    exact ⟨u, hup, a, ha, hlimit⟩

/-- After any run, what is counted at a tracker is the sum over the calls at it and below it, its
peak is the most that was ever in use, and a limit is exceeded exactly when a tracker on the way up
has more in use than its limit. The last clause says which calls the sums are over. -/
theorem counts_are_sums (h : Valid calls) (hfits : Fits calls)
    (hn : (after calls).node? t = some n) :
    n.allocated = consumed calls t
      ∧ n.deallocated = released calls t
      ∧ n.current = n.allocated - n.deallocated
      ∧ IsGreatest (everInUse calls t) n.peak
      ∧ ((after calls).anyLimitExceeded t = true
          ↔ ∃ u a, Relation.ReflTransGen (IsParent calls) t u ∧ (after calls).node? u = some a
            ∧ 0 ≤ a.limit ∧ a.limit < a.current)
      ∧ ∀ u < (after calls).nodes.length,
          t ∈ (after calls).path u ↔ Relation.ReflTransGen (IsParent calls) u t := by
  obtain ⟨hal, hde, hcur, hpeak⟩ := h.counts hfits n hn
  refine ⟨hal, hde, ?_, hpeak, h.anyLimitExceeded_iff (lt_of_node? hn), fun u hu => ?_⟩
  · rw [hcur, hal, hde]
  · exact h.mem_path_iff hu

end Run

/-- A child goes above its limit, and then some bytes are released at the root alone. -/
def overdrawn : List TrackerCall :=
  [.newRoot .global "process", .newChild .query "query" 100 0, .consume 1 60, .consume 1 (-5),
    .consume 1 50, .release 0 70]

theorem counts_are_sums_overdrawn : Valid overdrawn ∧ Fits overdrawn
    ∧ (∃ n, (after overdrawn).node? 0 = some n ∧ n.allocated = 110 ∧ n.deallocated = 70
      ∧ n.current = 40 ∧ IsGreatest (everInUse overdrawn 0) n.peak)
    ∧ (∃ u a, Relation.ReflTransGen (IsParent overdrawn) 1 u ∧ (after overdrawn).node? u = some a
      ∧ 0 ≤ a.limit ∧ a.limit < a.current) := by
  have hvalid : Valid overdrawn :=
    ((((((Valid.nil.snoc (c := .newRoot .global "process") (by decide)).snoc
      (c := .newChild .query "query" 100 0) (by decide)).snoc
      (c := .consume 1 60) (by decide)).snoc (c := .consume 1 (-5)) (by decide)).snoc
      (c := .consume 1 50) (by decide)).snoc (c := .release 0 70) (by decide))
  have hfits : Fits overdrawn
    | 0 => by decide
    | 1 => by decide
    | t + 2 => by
      have hle : (after overdrawn).nodes.length ≤ t + 2 := Nat.le_add_left 2 t
      rw [consumed, released, total_of_length_le TrackerCall.atNamed_consumes hvalid hle,
        total_of_length_le TrackerCall.atNamed_releases hvalid hle]
      decide
  obtain ⟨root, hroot⟩ : ∃ n, (after overdrawn).node? 0 = some n := exists_node? (by decide)
  obtain ⟨child, hchild⟩ : ∃ n, (after overdrawn).node? 1 = some n := exists_node? (by decide)
  obtain ⟨hal, hde, hcur, hpeak, -⟩ := counts_are_sums hvalid hfits hroot
  obtain ⟨-, -, -, -, hlimit, -⟩ := counts_are_sums hvalid hfits hchild
  have hC : consumed overdrawn 0 = 110 := by decide
  have hR : released overdrawn 0 = 70 := by decide
  refine ⟨hvalid, hfits, ⟨root, hroot, by omega, by omega, by omega, hpeak⟩, hlimit.1 (by decide)⟩

end Trackers

end QueryHost
