import Mathlib.Algebra.BigOperators.Group.List.Basic
import QueryHost.Proofs.TrackerUsers

/-!
# Trackers that count through others

A tracker counts what is counted below it. If nothing is counted at it directly, and all that is
below it is below one of its children, it counts what these count together (`Trackers.Gathers`): any
call that does not name it keeps that (`Gathers.call`), and a new child is one more to count through
(`Gathers.child`). The limits of trackers never change (`limit?_call`).
-/

namespace QueryHost

/-- Where a call counts, or gives a tracker a child. -/
def TrackerCall.site? : TrackerCall → Option TrackerId
  | newRoot _ _ => none
  | newChild _ _ _ parent => some parent
  | consume t _ => some t
  | release t _ => some t

namespace Trackers

section Paths

variable {ts : Trackers} {c : TrackerCall} {t u : TrackerId} {parent : Option TrackerId}

theorem path_call_of_lt (ht : t < ts.nodes.length) (c : TrackerCall) :
    (ts.call c).path t = ts.path t := by
  rw [path_eq_shape, shape_call, List.getElem?_append_left (by rwa [length_shape]), path_eq_shape]

theorem path_call_new (h : c.parentOfNew = some parent) :
    (ts.call c).path ts.nodes.length = ts.nodes.length :: (parent.map ts.path).getD [] := by
  rw [path_eq_shape, shape_call, h, ← length_shape, Option.map_some, Option.toList_some,
    List.getElem?_concat_length, Option.getD_some, newPath, length_shape]

theorem path_newChild (ts : Trackers) (kind : TrackerKind) (label : String) (limit : Int)
    (m : TrackerId) : (ts.call (.newChild kind label limit m)).path ts.nodes.length
      = ts.nodes.length :: ts.path m := by
  rw [path_call_new rfl, Option.map_some, Option.getD_some]

theorem length_call (ts : Trackers) (c : TrackerCall) :
    (ts.call c).nodes.length = ts.nodes.length + c.parentOfNew.toList.length := by
  rw [← length_shape, shape_call, List.length_append, length_shape]
  cases c.parentOfNew <;> rfl

theorem lt_call (ht : t < ts.nodes.length) (c : TrackerCall) : t < (ts.call c).nodes.length := by
  rw [length_call]
  exact Nat.lt_add_right _ ht

/-- A tracker that is there after a call was there before, or is the one that the call creates. -/
theorem lt_call_cases (hu : u < (ts.call c).nodes.length) :
    u < ts.nodes.length ∨ u = ts.nodes.length ∧ ∃ parent, c.parentOfNew = some parent := by
  rw [length_call] at hu
  cases hnew : c.parentOfNew with
  | none =>
    rw [hnew] at hu
    exact .inl hu
  | some parent =>
    rw [hnew] at hu
    exact (Nat.lt_succ_iff_lt_or_eq.1 hu).imp_right fun h => ⟨h, parent, rfl⟩

/-- Paths lead to trackers that are there. -/
def Closed (ts : Trackers) : Prop :=
  ∀ u < ts.nodes.length, ∀ t ∈ ts.path u, t < ts.nodes.length

theorem Valid.closed {calls : List TrackerCall} (h : Valid calls) : (after calls).Closed :=
  fun _ hu _ ht => Nat.lt_of_le_of_lt (h.le_of_mem_path hu ht) hu

theorem Closed.call (h : ts.Closed) (hc : c.Names ts) : (ts.call c).Closed := by
  intro u hu t ht
  rcases lt_call_cases hu with hold | ⟨rfl, parent, hnew⟩
  · rw [path_call_of_lt hold] at ht
    exact lt_call (h u hold t ht) c
  · rw [path_call_new hnew, List.mem_cons] at ht
    rcases ht with rfl | ht
    · exact hu
    · cases parent with
      | none => exact absurd ht List.not_mem_nil
      | some p => exact lt_call (h p (hc.parent_lt hnew p rfl) t ht) c

end Paths

/-! ## Limits -/

section Limits

variable {ts : Trackers} {t : TrackerId} {limit : Int}

def limit? (ts : Trackers) (t : TrackerId) : Option Int := (ts.node? t).map (·.limit)

theorem limit?_call (ht : t < ts.nodes.length) (c : TrackerCall) :
    (ts.call c).limit? t = ts.limit? t := by
  obtain ⟨n', hn'⟩ := exists_node? (lt_call ht c)
  rcases node?_call hn' with ⟨rfl, -⟩ | ⟨n, hn, hkind⟩
  · exact absurd ht (Nat.lt_irrefl _)
  · rw [limit?, limit?, hn', hn]
    rcases hkind with ⟨-, -, rfl⟩ | ⟨-, rfl⟩ | ⟨-, rfl⟩ <;> rfl

theorem limit?_newRoot (ts : Trackers) (kind : TrackerKind) (label : String) :
    (ts.call (.newRoot kind label)).limit? ts.nodes.length = some (-1) := by
  simp [limit?, call, newRoot, node?_add]

theorem limit?_newChild (ts : Trackers) (kind : TrackerKind) (label : String) (limit : Int)
    (parent : TrackerId) :
    (ts.call (.newChild kind label limit parent)).limit? ts.nodes.length = some limit := by
  simp [limit?, call, newChild, node?_add]

theorem isExceeded_iff (h : ts.limit? t = some limit) :
    (ts.node? t).any Tracker.isExceeded = true ↔ 0 ≤ limit ∧ limit < ts.current t := by
  obtain ⟨n, hn, rfl⟩ := Option.map_eq_some_iff.1 h
  rw [current_of_node? hn, hn]
  simp [Tracker.isExceeded, Tracker.hasLimit]

end Limits

/-! ## A tracker that counts through others -/

section Gathers

variable {ts : Trackers} {c : TrackerCall} {m : TrackerId} {below : List TrackerId}

/-- Whatever is below `m` is below exactly one of the given trackers, and `m` counts what they do.
-/
structure Gathers (ts : Trackers) (m : TrackerId) (below : List TrackerId) : Prop where
  words : ts.Words
  closed : ts.Closed
  own : m ∈ ts.path m
  m_lt : m < ts.nodes.length
  below_lt : ∀ t ∈ below, t < ts.nodes.length
  one : ∀ u < ts.nodes.length,
    below.countP (fun t => decide (t ∈ ts.path u)) = if m ∈ ts.path u ∧ u ≠ m then 1 else 0
  sum : ts.current m ≡ (below.map ts.current).sum [ZMOD word64Count]

theorem sum_onPath (path : List TrackerId) (bytes : Int) : ∀ below : List TrackerId,
    (below.map fun t => if t ∈ path then bytes else 0).sum
      = below.countP (fun t => decide (t ∈ path)) * bytes
  | [] => by simp
  | t :: below => by
    rw [List.map_cons, List.sum_cons, sum_onPath path bytes below, List.countP_cons]
    by_cases ht : t ∈ path <;> simp [ht, Int.add_mul, Int.add_comm]

theorem inflow_cases (ts : Trackers) (c : TrackerCall) : (∀ t, ts.inflow c t = 0)
    ∨ ∃ u bytes, c.site? = some u ∧ ∀ t, ts.inflow c t = if t ∈ ts.path u then bytes else 0 := by
  cases c with
  | newRoot kind label => exact .inl fun t => rfl
  | newChild kind label limit parent => exact .inl fun t => rfl
  | consume u bytes =>
    refine .inr ⟨u, max bytes 0, rfl, fun t => ?_⟩
    simp [inflow, TrackerCall.consumes, TrackerCall.releases, share]
  | release u bytes =>
    refine .inr ⟨u, -max bytes 0, rfl, fun t => ?_⟩
    simp only [inflow, TrackerCall.consumes, TrackerCall.releases, share]
    split_ifs <;> omega

theorem sum_congr {f g : TrackerId → Int} : ∀ {below : List TrackerId},
    (∀ t ∈ below, f t ≡ g t [ZMOD word64Count]) →
      (below.map f).sum ≡ (below.map g).sum [ZMOD word64Count]
  | [], _ => .rfl
  | t :: below, h => by
    obtain ⟨ht, hbelow⟩ := List.forall_mem_cons.1 h
    exact ht.add (sum_congr hbelow)

/-- What a call adds at `m` it adds at the trackers below, unless it names `m` itself. -/
theorem Gathers.sum_inflow (h : ts.Gathers m below) (hc : c.Names ts) (hsite : c.site? ≠ some m) :
    (below.map (ts.inflow c)).sum = ts.inflow c m := by
  rcases ts.inflow_cases c with hzero | ⟨u, bytes, hu, hin⟩
  · simp [funext hzero]
  · have hlt : u < ts.nodes.length := by
      cases c <;> simp only [TrackerCall.site?, reduceCtorEq, Option.some.injEq] at hu <;>
        exact hu ▸ hc
    have hne : u ≠ m := fun hum => hsite (hum ▸ hu)
    rw [funext hin, sum_onPath, h.one u hlt]
    by_cases hm : m ∈ ts.path u <;> simp [hm, hne]

theorem Gathers.sum_call (h : ts.Gathers m below)
    (hin : (below.map (ts.inflow c)).sum = ts.inflow c m) :
    (ts.call c).current m ≡ (below.map (ts.call c).current).sum [ZMOD word64Count] := by
  have hbelow : (below.map (ts.call c).current).sum
      ≡ (below.map fun t => ts.current t + ts.inflow c t).sum [ZMOD word64Count] :=
    sum_congr fun t ht => current_call_modEq ts c t (h.below_lt t ht)
  calc (ts.call c).current m
      ≡ ts.current m + ts.inflow c m [ZMOD word64Count] := current_call_modEq ts c m h.m_lt
    _ ≡ (below.map ts.current).sum + (below.map (ts.inflow c)).sum [ZMOD word64Count] := by
      rw [hin]
      exact h.sum.add_right _
    _ = (below.map fun t => ts.current t + ts.inflow c t).sum := Eq.symm List.sum_map_add
    _ ≡ (below.map (ts.call c).current).sum [ZMOD word64Count] := hbelow.symm

theorem Gathers.count_new (h : ts.Gathers m below) (path : List TrackerId) :
    below.countP (fun t => decide (t ∈ ts.nodes.length :: path))
      = below.countP (fun t => decide (t ∈ path)) := by
  refine List.countP_congr fun t ht => ?_
  have hne : t ≠ ts.nodes.length := Nat.ne_of_lt (h.below_lt t ht)
  simp [hne]

/-- A call that does not name `m`. A tracker that it creates lies where its parent does. -/
theorem Gathers.call (h : ts.Gathers m below) (hc : c.Names ts) (hsite : c.site? ≠ some m) :
    (ts.call c).Gathers m below where
  words := h.words.call c
  closed := h.closed.call hc
  own := path_call_of_lt h.m_lt c ▸ h.own
  m_lt := lt_call h.m_lt c
  below_lt t ht := lt_call (h.below_lt t ht) c
  sum := h.sum_call (h.sum_inflow hc hsite)
  one u hu := by
    rcases lt_call_cases hu with hold | ⟨rfl, parent, hnew⟩
    · rw [path_call_of_lt hold]
      exact h.one u hold
    · have hne : m ≠ ts.nodes.length := Nat.ne_of_lt h.m_lt
      rw [path_call_new hnew, h.count_new]
      cases parent with
      | none => simp [hne]
      | some p =>
        have hp : p ≠ m := by
          rintro rfl
          cases c <;> simp_all [TrackerCall.parentOfNew, TrackerCall.site?]
        rw [Option.map_some, Option.getD_some, h.one p (hc.parent_lt hnew p rfl)]
        simp [hne, hne.symm, hp]

/-- The new child of `m` is one more tracker that `m` counts through. -/
theorem Gathers.child (h : ts.Gathers m below) (kind : TrackerKind) (label : String) (limit : Int) :
    (ts.call (.newChild kind label limit m)).Gathers m (below ++ [ts.nodes.length]) := by
  have hc : (TrackerCall.newChild kind label limit m).Names ts := h.m_lt
  have hnew : ts.nodes.length < (ts.call (.newChild kind label limit m)).nodes.length := by
    rw [length_call]
    exact Nat.lt_succ_self _
  refine ⟨h.words.call _, h.closed.call hc, path_call_of_lt h.m_lt _ ▸ h.own, lt_call h.m_lt _,
    fun t ht => ?_, fun u hu => ?_, ?_⟩
  · rcases List.mem_append.1 ht with ht | ht
    · exact lt_call (h.below_lt t ht) _
    · exact List.mem_singleton.1 ht ▸ hnew
  · rw [List.countP_append, List.countP_singleton]
    rcases lt_call_cases hu with hold | ⟨rfl, -⟩
    · have hnot : ts.nodes.length ∉ ts.path u := fun hmem =>
        Nat.lt_irrefl _ (h.closed u hold _ hmem)
      rw [path_call_of_lt hold, h.one u hold]
      simp [hnot]
    · have hne : m ≠ ts.nodes.length := Nat.ne_of_lt h.m_lt
      rw [path_newChild, h.count_new, h.one m h.m_lt]
      simp [h.own, hne.symm]
  · rw [List.map_append, List.sum_append, List.map_singleton, List.sum_singleton,
      current_call_of_le ts _ _ (Nat.le_refl _), Int.add_zero]
    refine h.sum_call ?_
    have hin : ts.inflow (.newChild kind label limit m) = fun _ => 0 := funext fun _ => rfl
    simp [hin]

/-- A new child counts through no other tracker at first. -/
theorem gathers_newChild (hwords : ts.Words) (hclosed : ts.Closed) (kind : TrackerKind)
    (label : String) (limit : Int) {parent : TrackerId} (hp : parent < ts.nodes.length) :
    (ts.call (.newChild kind label limit parent)).Gathers ts.nodes.length [] := by
  have hpath := ts.path_newChild kind label limit parent
  refine ⟨hwords.call _, hclosed.call hp, hpath ▸ List.mem_cons_self, ?_, by simp,
    fun u hu => ?_, ?_⟩
  · rw [length_call]
    exact Nat.lt_succ_self _
  · rw [List.countP_nil, eq_comm, if_neg]
    rintro ⟨hmem, hne⟩
    have hold := (lt_call_cases hu).resolve_right fun h => hne h.1
    rw [path_call_of_lt hold] at hmem
    exact Nat.lt_irrefl _ (hclosed u hold _ hmem)
  · rw [current_call_of_le ts _ _ (Nat.le_refl _)]
    exact .rfl

theorem Gathers.current_eq (h : ts.Gathers m below) :
    ts.current m = wrapInt64 (below.map ts.current).sum := by
  rw [← h.words m]
  exact wrapInt64_congr h.sum

end Gathers

end Trackers

end QueryHost
