import Mathlib.Algebra.BigOperators.Group.List.Basic
import Mathlib.Algebra.Order.BigOperators.Group.List
import Mathlib.Order.Bounds.Defs
import QueryHost.Cache.Chunk
import QueryHost.Proofs.ListParts
import QueryHost.Proofs.TrackerUsers

/-!
# Where the bytes of the chunks are counted

Every chunk of an allocator that was not given back is parked or held, and only once (`Issued`). The
reserve is the bytes of the parked ones, each in the list of its size (`Sorted`). The tracker of the
allocator is charged for all of them, besides what others have in use there (`bytes_are_accounted`).

`ChunkLedger` keeps beside the allocator the chunks that its users hold. Only these can be freed, so
each chunk that is freed came from the allocator.
-/

namespace QueryHost

inductive ChunkCall where
  | allocate (size : Nat)
  /-- The holder of a chunk writes to it and frees it. -/
  | free (i : Nat) (data : Bytes)
  /-- The holder of a chunk drops it. -/
  | drop (i : Nat)
  | releaseReserved
  /-- Others use the trackers. -/
  | elsewhere (c : TrackerCall)
  deriving DecidableEq, Repr

def ChunkCall.elsewhere? : ChunkCall → Option TrackerCall
  | .elsewhere c => some c
  | _ => none

theorem ChunkCall.elsewhere?_eq_some {c : ChunkCall} {d : TrackerCall}
    (h : c.elsewhere? = some d) : c = .elsewhere d := by
  cases c <;> simp only [elsewhere?, reduceCtorEq, Option.some.injEq] at h
  rw [h]

structure ChunkLedger where
  allocator : ChunkAllocator
  trackers : Trackers
  held : List Chunk := []
  deriving DecidableEq, Repr

namespace Chunk

/-- The sum of the sizes. -/
def bytes (cs : List Chunk) : Int := (cs.map fun c => (c.size : Int)).sum

theorem bytes_cons (c : Chunk) (cs : List Chunk) : bytes (c :: cs) = c.size + bytes cs :=
  List.sum_cons

theorem bytes_append (cs cs' : List Chunk) : bytes (cs ++ cs') = bytes cs + bytes cs' := by
  simp only [bytes, List.map_append, List.sum_append]

theorem bytes_perm {cs cs' : List Chunk} (h : cs.Perm cs') : bytes cs = bytes cs' :=
  (h.map _).sum_eq

theorem bytes_nonneg (cs : List Chunk) : 0 ≤ bytes cs :=
  List.sum_nonneg (by simp)

end Chunk

namespace ChunkAllocator

/-! ## What a step can do -/

section Cases

variable (a : ChunkAllocator) (ts : Trackers)

/-- `allocate` fails for a size that is too large, takes a parked chunk, or makes a new one. -/
theorem allocate_cases (size : Nat) :
    (a.free[ceilLog2 (max size 1)]? = none ∧ ∃ f, a.allocate ts size = .error f)
      ∨ (∃ c rest, a.free[ceilLog2 (max size 1)]? = some (c :: rest)
          ∧ a.allocate ts size = .ok (c, { a with
            free := a.free.set (ceilLog2 (max size 1)) rest
            reserved := a.reserved - (2 ^ ceilLog2 (max size 1) : Nat) }, ts))
      ∨ (a.free[ceilLog2 (max size 1)]? = some []
          ∧ a.allocate ts size
            = .ok (⟨a.nextSerial, 2 ^ ceilLog2 (max size 1), a.tracker, []⟩,
              { a with nextSerial := a.nextSerial + 1 },
              ts.consume a.tracker (chargedBytes (2 ^ ceilLog2 (max size 1))))) := by
  unfold allocate
  simp only [Nat.one_shiftLeft, Nat.log2_two_pow]
  split
  · exact .inl ⟨‹_›, _, rfl⟩
  · exact .inr (.inl ⟨_, _, ‹_›, rfl⟩)
  · exact .inr (.inr ⟨‹_›, rfl⟩)

theorem release_cases (c : Chunk) :
    a.release ts c = (a, discard ts c)
      ∨ (a.reserved + c.size ≤ a.reserveLimit ∧ a.release ts c = ({ a with
          reserved := a.reserved + c.size
          free := a.free.modify c.size.log2 (c :: ·) }, ts)) := by
  unfold release
  split_ifs with h
  · exact .inl rfl
  · exact .inr ⟨Int.not_lt.1 h, rfl⟩

end Cases

theorem foldl_reserved (cs : List Chunk) (n : Int) :
    cs.foldl (fun n c => n - (c.size : Int)) n = n - Chunk.bytes cs := by
  induction cs generalizing n with
  | nil => exact (Int.sub_zero n).symm
  | cons c cs ih => rw [List.foldl_cons, ih, Chunk.bytes_cons, Int.sub_sub]

section Sorted

variable {a : ChunkAllocator} {c : Chunk} {i : Nat}

/-- The parked chunks are in the lists of their sizes, and the reserve counts them. -/
structure Sorted (a : ChunkAllocator) : Prop where
  length_free : a.free.length = 48
  size_eq : ∀ i l, a.free[i]? = some l → ∀ c ∈ l, c.size = 2 ^ i
  reserved : a.reserved = Chunk.bytes a.parked
  reserved_le : a.reserved ≤ a.reserveLimit

theorem Sorted.reserved_nonneg (h : a.Sorted) : 0 ≤ a.reserved :=
  h.reserved ▸ Chunk.bytes_nonneg _

theorem sorted_new (limit : Int) (t : TrackerId) : (new limit t).Sorted where
  length_free := rfl
  size_eq i l hl c hc := by
    obtain rfl : l = [] := List.eq_of_mem_replicate (List.mem_of_getElem? hl)
    cases hc
  reserved := rfl
  reserved_le := Int.le_max_right limit 0

theorem Sorted.pop (h : a.Sorted) {rest : List Chunk} (hfree : a.free[i]? = some (c :: rest)) :
    Sorted { a with free := a.free.set i rest, reserved := a.reserved - (2 ^ i : Nat) } := by
  have hsize : c.size = 2 ^ i := h.size_eq i _ hfree c List.mem_cons_self
  have hbytes := Chunk.bytes_perm (perm_flatten_set_rest hfree (.refl _))
  rw [Chunk.bytes_cons] at hbytes
  refine ⟨(List.length_set ..).trans h.length_free, fun j l hj d hd => ?_, ?_, ?_⟩
  · rw [List.getElem?_set] at hj
    split_ifs at hj with hij
    · obtain rfl := Option.some.inj hj
      exact hij ▸ h.size_eq i _ hfree d (List.mem_cons_of_mem c hd)
    · exact h.size_eq j l hj d hd
  · simp only [h.reserved, parked, hbytes, hsize]
    omega
  · have hle := h.reserved_le
    have hpos := Int.natCast_nonneg (2 ^ i)
    simp only
    omega

theorem Sorted.push (h : a.Sorted) (hi : i < 48) (hsize : c.size = 2 ^ i)
    (hle : a.reserved + c.size ≤ a.reserveLimit) :
    Sorted { a with reserved := a.reserved + c.size, free := a.free.modify i (c :: ·) } := by
  have hbytes := Chunk.bytes_perm (perm_flatten_modify (h.length_free.symm ▸ hi)
    fun l => .refl (c :: l))
  rw [Chunk.bytes_cons] at hbytes
  refine ⟨(List.length_modify ..).trans h.length_free, fun j l hj d hd => ?_, ?_, hle⟩
  · rw [List.getElem?_modify] at hj
    obtain ⟨l', hl', rfl⟩ := Option.map_eq_some_iff.1 hj
    split_ifs at hd with hij
    · rcases List.mem_cons.1 hd with rfl | hd
      · exact hij ▸ hsize
      · exact h.size_eq j l' hl' d hd
    · exact h.size_eq j l' hl' d hd
  · simp only [h.reserved, parked, hbytes]
    omega

theorem parked_releaseReserved (a : ChunkAllocator) (ts : Trackers) :
    (a.releaseReserved ts).1.parked = [] := by
  simp only [releaseReserved, parked, List.flatten_eq_nil_iff, List.mem_map]
  rintro l ⟨l', -, rfl⟩
  rfl

theorem Sorted.releaseReserved (h : a.Sorted) (ts : Trackers) :
    (a.releaseReserved ts).1.Sorted := by
  have hzero : (a.releaseReserved ts).1.reserved = 0 := by
    simp only [ChunkAllocator.releaseReserved]
    rw [foldl_reserved, h.reserved, Int.sub_self]
  refine ⟨(List.length_map _).trans h.length_free, fun i l hl c hc => ?_, ?_, ?_⟩
  · obtain ⟨l', -, rfl⟩ := Option.map_eq_some_iff.1 ((List.getElem?_map ..).symm.trans hl)
    cases hc
  · rw [hzero, parked_releaseReserved]
    rfl
  · rw [hzero]
    exact Int.le_trans h.reserved_nonneg h.reserved_le

end Sorted

end ChunkAllocator

/-! ## Chunks of an allocator -/

namespace Chunk

/-- The chunks are different ones, issued for the tracker `t` with serials below `next`. -/
structure Issued (t : TrackerId) (next : Nat) (cs : List Chunk) : Prop where
  size : ∀ c ∈ cs, ∃ i < 48, c.size = 2 ^ i
  tracker : ∀ c ∈ cs, c.tracker = t
  serial_lt : ∀ c ∈ cs, c.serial < next
  nodup : (cs.map (·.serial)).Nodup

section Issued

variable {t : TrackerId} {next : Nat} {c : Chunk} {cs cs' : List Chunk}

theorem Issued.perm (h : Issued t next cs) (hperm : cs.Perm cs') : Issued t next cs' where
  size c hc := h.size c (hperm.mem_iff.2 hc)
  tracker c hc := h.tracker c (hperm.mem_iff.2 hc)
  serial_lt c hc := h.serial_lt c (hperm.mem_iff.2 hc)
  nodup := (hperm.map _).nodup_iff.1 h.nodup

theorem Issued.sublist (h : Issued t next cs) (hsub : cs'.Sublist cs) : Issued t next cs' where
  size c hc := h.size c (hsub.subset hc)
  tracker c hc := h.tracker c (hsub.subset hc)
  serial_lt c hc := h.serial_lt c (hsub.subset hc)
  nodup := h.nodup.sublist (hsub.map _)

/-- It does not matter what is in a chunk. -/
theorem Issued.write (h : Issued t next (c :: cs)) (data : Bytes) :
    Issued t next ((c.write data).1 :: cs) where
  size := List.forall_mem_cons.2 (List.forall_mem_cons.1 h.size)
  tracker := List.forall_mem_cons.2 (List.forall_mem_cons.1 h.tracker)
  serial_lt := List.forall_mem_cons.2 (List.forall_mem_cons.1 h.serial_lt)
  nodup := h.nodup

theorem Issued.new (h : Issued t next cs) {i : Nat} (hi : i < 48) :
    Issued t (next + 1) (⟨next, 2 ^ i, t, []⟩ :: cs) where
  size := List.forall_mem_cons.2 ⟨⟨i, hi, rfl⟩, h.size⟩
  tracker := List.forall_mem_cons.2 ⟨rfl, h.tracker⟩
  serial_lt := List.forall_mem_cons.2
    ⟨Nat.lt_succ_self _, fun c hc => Nat.lt_succ_of_lt (h.serial_lt c hc)⟩
  nodup := by
    refine List.nodup_cons.2 ⟨fun hmem => ?_, h.nodup⟩
    obtain ⟨c, hc, hserial⟩ := List.mem_map.1 hmem
    exact absurd (h.serial_lt c hc) (by rw [hserial]; exact Nat.lt_irrefl _)

end Issued

end Chunk

namespace ChunkAllocator

section Charged

variable {others ts : Trackers} {t : TrackerId} {n : Int} {c : Chunk} {cs : List Chunk}

theorem chargedBytes_two_pow {i : Nat} (h : i < 48) : chargedBytes (2 ^ i) = (2 ^ i : Nat) := by
  have hle : 2 ^ i ≤ 2 ^ 47 := Nat.pow_le_pow_right Nat.two_pos (Nat.le_of_lt_succ h)
  unfold chargedBytes int64Max
  omega

theorem charged_discard (h : Trackers.Charged t n others ts) (hc : c.tracker = t)
    (hsize : ∃ i < 48, c.size = 2 ^ i) : Trackers.Charged t (n - c.size) others (discard ts c) := by
  obtain ⟨i, hi, hsize⟩ := hsize
  rw [discard, hc, hsize, chargedBytes_two_pow hi]
  exact h.release (Int.natCast_nonneg _)

theorem charged_discard_all (h : Trackers.Charged t n others ts) (hcs : ∀ c ∈ cs, c.tracker = t)
    (hsize : ∀ c ∈ cs, ∃ i < 48, c.size = 2 ^ i) :
    Trackers.Charged t (n - Chunk.bytes cs) others (cs.foldl discard ts) := by
  induction cs generalizing ts n with
  | nil => rwa [Chunk.bytes, List.map_nil, List.sum_nil, Int.sub_zero]
  | cons c cs ih =>
    obtain ⟨hc, hcs⟩ := List.forall_mem_cons.1 hcs
    obtain ⟨hsize, hsizes⟩ := List.forall_mem_cons.1 hsize
    rw [List.foldl_cons, Chunk.bytes_cons, ← Int.sub_sub]
    exact ih (charged_discard h hc hsize) hcs hsizes

end Charged

end ChunkAllocator

namespace ChunkLedger

open ChunkAllocator (discard)

def call (b : ChunkLedger) : ChunkCall → ChunkLedger
  | .allocate size =>
    match b.allocator.allocate b.trackers size with
    | .ok (c, allocator, trackers) => { allocator, trackers, held := b.held ++ [c] }
    | .error _ => b
  | .free i data =>
    match b.held[i]? with
    | some c =>
      let (allocator, trackers) := b.allocator.release b.trackers (c.write data).1
      { allocator, trackers, held := b.held.eraseIdx i }
    | none => b
  | .drop i =>
    match b.held[i]? with
    | some c => { b with trackers := discard b.trackers c, held := b.held.eraseIdx i }
    | none => b
  | .releaseReserved =>
    let (allocator, trackers) := b.allocator.releaseReserved b.trackers
    { b with allocator, trackers }
  | .elsewhere c => { b with trackers := b.trackers.call c }

/-- An allocator for the tracker `t`, after a run of calls. -/
def run (limit : Int) (t : TrackerId) (founding : List TrackerCall) (calls : List ChunkCall) :
    ChunkLedger :=
  calls.foldl call { allocator := .new limit t, trackers := .after founding }

/-- What is done to the trackers but by the allocator. -/
def otherCalls (founding : List TrackerCall) (calls : List ChunkCall) : List TrackerCall :=
  founding ++ calls.filterMap ChunkCall.elsewhere?

/-- The chunks that are parked or held. -/
def chunks (b : ChunkLedger) : List Chunk := b.allocator.parked ++ b.held

/-- The chunks are counted where they should be, besides what others do with the trackers. -/
structure Kept (others : Trackers) (b : ChunkLedger) : Prop where
  sorted : b.allocator.Sorted
  issued : Chunk.Issued b.allocator.tracker b.allocator.nextSerial b.chunks
  charged : Trackers.Charged b.allocator.tracker (Chunk.bytes b.chunks) others b.trackers

section Kept

variable {others : Trackers} {b : ChunkLedger} {c : Chunk} {i : Nat}

/-- What is allocated is held from then on, and charged if it is new. -/
theorem Kept.allocate (h : b.Kept others) (size : Nat) : Kept others (b.call (.allocate size)) := by
  rcases b.allocator.allocate_cases b.trackers size with
    ⟨-, f, ha⟩ | ⟨c, rest, hfree, ha⟩ | ⟨hfree, ha⟩
  · simp only [call, ha]
    exact h
  · simp only [call, ha]
    have hchunks : b.chunks.Perm
        ((b.allocator.free.set (ceilLog2 (max size 1)) rest).flatten ++ (b.held ++ [c])) := by
      rw [← List.append_assoc]
      exact ((perm_flatten_set_rest hfree (.refl _)).append_right b.held).trans
        (List.perm_append_singleton c _).symm
    refine ⟨h.sorted.pop hfree, h.issued.perm hchunks, ?_⟩
    have hcharged := h.charged
    rw [Chunk.bytes_perm hchunks] at hcharged
    exact hcharged
  · simp only [call, ha]
    have hi : ceilLog2 (max size 1) < 48 := by
      have hlt := (List.getElem?_eq_some_iff.1 hfree).1
      rwa [h.sorted.length_free] at hlt
    generalize ceilLog2 (max size 1) = i at hi
    have hchunks : ∀ c, (c :: b.chunks).Perm (b.allocator.parked ++ (b.held ++ [c])) := by
      intro c
      rw [← List.append_assoc]
      exact (List.perm_append_singleton c _).symm
    refine ⟨⟨h.sorted.length_free, h.sorted.size_eq, h.sorted.reserved, h.sorted.reserved_le⟩,
      (h.issued.new hi).perm (hchunks _), ?_⟩
    have hcharged := h.charged.consume (Int.natCast_nonneg (2 ^ i))
    rw [ChunkAllocator.chargedBytes_two_pow hi]
    rw [Int.add_comm, ← Chunk.bytes_cons ⟨_, 2 ^ i, _, _⟩, Chunk.bytes_perm (hchunks _)] at hcharged
    exact hcharged

/-- What is left when a held chunk is gone. -/
theorem perm_chunks (hheld : b.held[i]? = some c) :
    b.chunks.Perm (c :: (b.allocator.parked ++ b.held.eraseIdx i)) :=
  ((perm_cons_eraseIdx hheld).append_left _).trans List.perm_middle

theorem Kept.gone (h : b.Kept others) (hheld : b.held[i]? = some c) :
    Kept others { b with
      trackers := discard b.trackers c
      held := b.held.eraseIdx i } := by
  have hperm := perm_chunks hheld
  have hall := h.issued.perm hperm
  refine ⟨h.sorted, hall.sublist (List.sublist_cons_self c _), ?_⟩
  have hcharged := ChunkAllocator.charged_discard h.charged
    (hall.tracker c List.mem_cons_self) (hall.size c List.mem_cons_self)
  rw [Chunk.bytes_perm hperm, Chunk.bytes_cons, add_sub_cancel_left] at hcharged
  exact hcharged

/-- What is freed is parked or given back. -/
theorem Kept.free (h : b.Kept others) (i : Nat) (data : Bytes) :
    Kept others (b.call (.free i data)) := by
  simp only [call]
  split
  · rename_i c hheld
    rcases b.allocator.release_cases b.trackers (c.write data).1 with ha | ⟨hle, ha⟩
    · have hgone := h.gone hheld
      rw [ha]
      exact hgone
    · have hall := (h.issued.perm (perm_chunks hheld)).write data
      obtain ⟨k, hk, hsize⟩ := hall.size _ List.mem_cons_self
      rw [ha, hsize, Nat.log2_two_pow, ← hsize]
      have hpush := perm_flatten_modify (h.sorted.length_free.symm ▸ hk)
        fun l => .refl ((c.write data).1 :: l)
      have hchunks := (hpush.append_right (b.held.eraseIdx i)).symm
      refine ⟨h.sorted.push hk hsize hle, hall.perm hchunks, ?_⟩
      have hcharged := h.charged
      rw [Chunk.bytes_perm (perm_chunks hheld)] at hcharged
      exact Chunk.bytes_perm hchunks ▸ hcharged
  · exact h

theorem Kept.drop (h : b.Kept others) (i : Nat) : Kept others (b.call (.drop i)) := by
  simp only [call]
  split
  · rename_i c hheld
    exact h.gone hheld
  · exact h

theorem Kept.releaseReserved (h : b.Kept others) : Kept others (b.call .releaseReserved) := by
  have hchunks : (b.call .releaseReserved).chunks = b.held := by
    rw [chunks]
    exact congrArg (· ++ b.held) (b.allocator.parked_releaseReserved b.trackers)
  refine ⟨h.sorted.releaseReserved b.trackers, ?_, ?_⟩
  · rw [hchunks]
    exact h.issued.sublist (List.sublist_append_right _ _)
  · have hcharged := ChunkAllocator.charged_discard_all h.charged
      (fun c hc => h.issued.tracker c (List.mem_append_left b.held hc))
      (fun c hc => h.issued.size c (List.mem_append_left b.held hc))
    rw [chunks, Chunk.bytes_append, add_sub_cancel_left] at hcharged
    rw [hchunks]
    exact hcharged

theorem Kept.elsewhere (h : b.Kept others) (ht : b.allocator.tracker < others.nodes.length)
    (hpath : ∀ u ∈ others.path b.allocator.tracker, u < others.nodes.length) (c : TrackerCall) :
    Kept (others.call c) (b.call (.elsewhere c)) :=
  ⟨h.sorted, h.issued, h.charged.call ht hpath c⟩

theorem Kept.own (h : b.Kept others) {c : ChunkCall} (hc : c.elsewhere? = none) :
    Kept others (b.call c) := by
  cases c with
  | allocate size => exact h.allocate size
  | free i data => exact h.free i data
  | drop i => exact h.drop i
  | releaseReserved => exact h.releaseReserved
  | elsewhere c => cases hc

theorem allocator_call (b : ChunkLedger) (c : ChunkCall) :
    (b.call c).allocator.tracker = b.allocator.tracker
      ∧ (b.call c).allocator.reserveLimit = b.allocator.reserveLimit := by
  cases c with
  | allocate size =>
    rcases b.allocator.allocate_cases b.trackers size with
      ⟨-, f, ha⟩ | ⟨c, rest, -, ha⟩ | ⟨-, ha⟩ <;>
      simp only [call, ha, and_self]
  | free i data =>
    simp only [call]
    split
    · rename_i c _
      rcases b.allocator.release_cases b.trackers (c.write data).1 with ha | ⟨-, ha⟩ <;>
        simp only [ha, and_self]
    · exact ⟨rfl, rfl⟩
  | drop i =>
    simp only [call]
    split <;> exact ⟨rfl, rfl⟩
  | releaseReserved => exact ⟨rfl, rfl⟩
  | elsewhere c => exact ⟨rfl, rfl⟩

end Kept

section Run

variable {b : ChunkLedger} {t : TrackerId} {founding : List TrackerCall} {calls : List ChunkCall}

theorem otherCalls_snoc (founding : List TrackerCall) (calls : List ChunkCall) (c : ChunkCall) :
    otherCalls founding (calls ++ [c]) = otherCalls founding calls ++ c.elsewhere?.toList := by
  rw [otherCalls, otherCalls, List.filterMap_append, List.append_assoc]
  cases h : c.elsewhere? <;> simp [h]

theorem lt_otherCalls (ht : t < (Trackers.after founding).nodes.length) (calls : List ChunkCall) :
    t < (Trackers.after (otherCalls founding calls)).nodes.length :=
  Nat.lt_of_lt_of_le ht (Trackers.length_mono (List.prefix_append _ _))

theorem allocator_run (limit : Int) (t : TrackerId) (founding : List TrackerCall)
    (calls : List ChunkCall) : (run limit t founding calls).allocator.tracker = t
      ∧ (run limit t founding calls).allocator.reserveLimit = max limit 0 := by
  induction calls using List.reverseRecOn with
  | nil => exact ⟨rfl, rfl⟩
  | append_singleton calls c ih =>
    rw [run, List.foldl_concat]
    exact ⟨(allocator_call _ c).1.trans ih.1, (allocator_call _ c).2.trans ih.2⟩

theorem kept_run (limit : Int) (ht : t < (Trackers.after founding).nodes.length) :
    ∀ {calls : List ChunkCall}, Trackers.Valid (otherCalls founding calls) →
      Kept (.after (otherCalls founding calls)) (run limit t founding calls) := by
  intro calls
  induction calls using List.reverseRecOn with
  | nil =>
    intro _
    have hcalls : otherCalls founding [] = founding := List.append_nil _
    rw [hcalls]
    have hchunks : (run limit t founding []).chunks = [] := rfl
    refine ⟨ChunkAllocator.sorted_new limit t, ?_, ?_⟩
    · rw [hchunks]
      exact ⟨by simp, by simp, by simp, .nil⟩
    · rw [hchunks]
      exact Trackers.charged_self (Trackers.words_after founding)
  | append_singleton calls c ih =>
    intro hvalid
    rw [otherCalls_snoc] at hvalid ⊢
    rw [run, List.foldl_concat]
    cases hc : c.elsewhere? with
    | none =>
      rw [hc, Option.toList_none, List.append_nil] at hvalid
      rw [Option.toList_none, List.append_nil]
      exact (ih hvalid).own hc
    | some d =>
      obtain rfl := ChunkCall.elsewhere?_eq_some hc
      rw [hc] at hvalid
      have hbefore : Trackers.Valid (otherCalls founding calls) := hvalid.of_snoc
      have hlt := lt_otherCalls ht calls
      rw [← (allocator_run limit t founding calls).1] at hlt
      refine Trackers.after_snoc _ d ▸ (ih hbefore).elsewhere hlt (fun u hu => ?_) d
      exact Nat.lt_of_le_of_lt (hbefore.le_of_mem_path hlt hu) hlt

/-- Any size up to the largest of the lists can be had, rounded up to a power of two. -/
theorem allocate_answer {a : ChunkAllocator} (h : a.Sorted) (ts : Trackers) (size : Nat) :
    ((∃ c a' ts', a.allocate ts size = .ok (c, a', ts')) ↔ size ≤ 2 ^ 47)
      ∧ ∀ c a' ts', a.allocate ts size = .ok (c, a', ts') →
        IsLeast {m | (∃ k, m = 2 ^ k) ∧ max size 1 ≤ m} c.size := by
  have hlt : ceilLog2 (max size 1) < a.free.length ↔ size ≤ 2 ^ 47 := by
    rw [h.length_free, Nat.lt_succ_iff, ceilLog2_le_iff, Nat.one_shiftLeft]
    omega
  have hleast : IsLeast {m | (∃ k, m = 2 ^ k) ∧ max size 1 ≤ m} (2 ^ ceilLog2 (max size 1)) := by
    have hle := ceilLog2_le_iff.1 (Nat.le_refl (ceilLog2 (max size 1)))
    rw [Nat.one_shiftLeft] at hle
    refine ⟨⟨⟨_, rfl⟩, hle⟩, ?_⟩
    rintro m ⟨⟨k, rfl⟩, hk⟩
    rw [← Nat.one_shiftLeft, ← ceilLog2_le_iff] at hk
    exact Nat.pow_le_pow_right Nat.two_pos hk
  rcases a.allocate_cases ts size with ⟨hfree, f, ha⟩ | ⟨c, rest, hfree, ha⟩ | ⟨hfree, ha⟩
  · rw [List.getElem?_eq_none_iff, ← Nat.not_lt, hlt] at hfree
    simp only [ha, reduceCtorEq, exists_false, hfree, false_imp_iff, implies_true, and_self]
  · have hsize := h.size_eq _ _ hfree c List.mem_cons_self
    refine ⟨iff_of_true ⟨c, _, _, ha⟩ (hlt.1 (List.getElem?_eq_some_iff.1 hfree).1), ?_⟩
    intro c' a' ts' hok
    obtain rfl : c = c' := (Prod.mk.inj (Except.ok.inj (ha.symm.trans hok))).1
    rwa [hsize]
  · refine ⟨iff_of_true ⟨_, _, _, ha⟩ (hlt.1 (List.getElem?_eq_some_iff.1 hfree).1), ?_⟩
    intro c' a' ts' hok
    obtain rfl := (Prod.mk.inj (Except.ok.inj (ha.symm.trans hok))).1
    exact hleast

theorem call_allocate_of_lt (h : b.allocator.Sorted) {size : Nat} (hsize : ¬ size ≤ 2 ^ 47) :
    b.call (.allocate size) = b := by
  have hnone := mt (allocate_answer h b.trackers size).1.1 hsize
  simp only [call]
  split
  · rename_i c a ts ha
    exact absurd ⟨c, a, ts, ha⟩ hnone
  · rfl

/-- After any run, the reserve is what the parked chunks take and within its limit, each parked
chunk is in the list of its size, and no chunk is there twice. The tracker of the allocator and
those above it have in use what the chunks take besides what others have in use there, and that
alone where others use nothing. The remaining trackers are left as they are. A size is refused only
if it is too large, and then nothing changes. -/
theorem bytes_are_accounted (limit : Int)
    (hvalid : Trackers.Valid (otherCalls founding calls))
    (ht : t < (Trackers.after founding).nodes.length) :
    let b := run limit t founding calls
    let without := Trackers.after (otherCalls founding calls)
    let above := Relation.ReflTransGen (Trackers.IsParent (otherCalls founding calls)) t
    b.allocator.reserved = Chunk.bytes b.allocator.parked
      ∧ 0 ≤ b.allocator.reserved ∧ b.allocator.reserved ≤ max limit 0
      ∧ (∀ i l, b.allocator.free[i]? = some l → ∀ c ∈ l, c.size = 2 ^ i)
      ∧ (b.chunks.map (·.serial)).Nodup
      ∧ (∀ u, above u →
          int64Min ≤ without.current u + Chunk.bytes b.chunks →
          without.current u + Chunk.bytes b.chunks ≤ int64Max →
          b.trackers.current u = without.current u + Chunk.bytes b.chunks)
      ∧ (∀ u, above u → Trackers.consumed (otherCalls founding calls) u = 0 →
          Trackers.released (otherCalls founding calls) u = 0 →
          Chunk.bytes b.chunks ≤ int64Max →
          b.trackers.current u = Chunk.bytes b.chunks)
      ∧ (∀ u < without.nodes.length, ¬ above u → b.trackers.current u = without.current u)
      ∧ ∀ size, ((∃ c a ts, b.allocator.allocate b.trackers size = .ok (c, a, ts)) ↔ size ≤ 2 ^ 47)
        ∧ (∀ c a ts, b.allocator.allocate b.trackers size = .ok (c, a, ts) →
          IsLeast {m | (∃ k, m = 2 ^ k) ∧ max size 1 ≤ m} c.size)
        ∧ (¬ size ≤ 2 ^ 47 → b.call (.allocate size) = b) := by
  intro b without above
  obtain ⟨hsorted, hissued, hcharged⟩ := kept_run limit ht hvalid
  obtain ⟨htracker, hlimit⟩ := allocator_run limit t founding calls
  rw [htracker] at hcharged
  have hlt := lt_otherCalls ht calls
  have hpath : ∀ u, u ∈ without.path t ↔ above u := fun u => hvalid.mem_path_iff hlt
  have hcurrent : ∀ u, above u → int64Min ≤ without.current u + Chunk.bytes b.chunks →
      without.current u + Chunk.bytes b.chunks ≤ int64Max →
      b.trackers.current u = without.current u + Chunk.bytes b.chunks := by
    intro u hu
    have hmem := (hpath u).2 hu
    exact hcharged.current_of_mem
      (Nat.lt_of_le_of_lt (hvalid.le_of_mem_path hlt hmem) hlt) hmem
  refine ⟨hsorted.reserved, hsorted.reserved_nonneg, hlimit ▸ hsorted.reserved_le, hsorted.size_eq,
    hissued.nodup, hcurrent, fun u hu hconsumed hreleased high => ?_, fun u hu habove => ?_,
    fun size => ?_⟩
  · have hzero : without.current u = 0 := hvalid.current_of_unused hconsumed hreleased
    have hall := hcurrent u hu
    rw [hzero, Int.zero_add] at hall
    refine hall (Int.le_trans ?_ (Chunk.bytes_nonneg _)) high
    decide
  · exact hcharged.current_of_not_mem (Trackers.words_after _) hu (mt (hpath u).1 habove)
  · obtain ⟨hok, hleast⟩ := allocate_answer hsorted b.trackers size
    exact ⟨hok, hleast, call_allocate_of_lt hsorted⟩

/-- A chunk is freed and had again, and another one is freed in its stead. -/
def reused : List ChunkCall :=
  [.allocate 1000, .allocate 3, .free 0 [7], .elsewhere (.consume 0 50), .allocate 600, .free 0 []]

def reusedTrackers : List TrackerCall :=
  [.newRoot .global "process", .newChild .other "chunks" (-1) 0]

theorem bytes_are_accounted_reused :
    Trackers.Valid (otherCalls reusedTrackers reused)
      ∧ 1 < (Trackers.after reusedTrackers).nodes.length
      ∧ (run 2048 1 reusedTrackers reused).allocator.reserved = 4
      ∧ (run 2048 1 reusedTrackers reused).trackers.current 1 = 1028
      ∧ (run 2048 1 reusedTrackers reused).trackers.current 0 = 1078 := by
  have hvalid : Trackers.Valid (otherCalls reusedTrackers reused) :=
    ((Trackers.Valid.nil.snoc (c := .newRoot .global "process") (by decide)).snoc
      (c := .newChild .other "chunks" (-1) 0) (by decide)).snoc (c := .consume 0 50) (by decide)
  have ht : 1 < (Trackers.after reusedTrackers).nodes.length := by decide
  obtain ⟨hreserved, -, -, -, -, habove, halone, -, -⟩ := bytes_are_accounted 2048 hvalid ht
  have hparent : Trackers.IsParent (otherCalls reusedTrackers reused) 1 0 := rfl
  refine ⟨hvalid, ht, hreserved.trans (by decide), ?_, ?_⟩
  · exact (halone 1 .refl (by decide) (by decide) (by decide)).trans (by decide)
  · exact (habove 0 (.single hparent) (by decide) (by decide)).trans (by decide)

end Run

end ChunkLedger

end QueryHost
