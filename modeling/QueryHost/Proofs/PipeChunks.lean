import Mathlib.Data.List.Infix
import Mathlib.Tactic.Common
import QueryHost.Load.Pipe
import QueryHost.Proofs.Calls

/-!
# The chunks of a pipe

What a pipe has taken is what was read from it, followed by what it holds, until it is cancelled and
holds nothing; the bytes it holds are counted rightly all the time (`Kept`). A finished pipe takes
no more, and what it holds can be read to the end (`reads_to_end`). From the whole,
`chunks_in_order`.

Each use of a pipe is made under its lock. Somebody who has to wait makes the same use again later,
or has read nothing if there is no more time to wait.
-/

namespace QueryHost

inductive PipeUse where
  | append (chunk : Bytes)
  | read
  | finish
  | cancel (reason : String)
  deriving DecidableEq, Repr

/-- A use of a pipe, with what it gave. -/
inductive PipeEvent where
  | appended (chunk : Bytes) (answer : Attempt (Except Failure Unit))
  | read (answer : Attempt (Except Failure (Option Bytes)))
  | finished
  | cancelled (reason : String)

namespace PipeEvent

/-- The chunk that the pipe has taken. -/
def taken? : PipeEvent → Option Bytes
  | appended chunk (.done (.ok ())) => some chunk
  | _ => none

/-- The chunk that was read. -/
def given? : PipeEvent → Option Bytes
  | read (.done (.ok (some chunk))) => some chunk
  | _ => none

def reason? : PipeEvent → Option String
  | cancelled reason => some reason
  | _ => none

def taken (events : List PipeEvent) : List Bytes := events.filterMap taken?

def given (events : List PipeEvent) : List Bytes := events.filterMap given?

/-- Why the pipe was cancelled, each time. -/
def reasons (events : List PipeEvent) : List String := events.filterMap reason?

/-- The length of the last chunk that the pipe has taken. -/
def lastTaken (events : List PipeEvent) : Nat := (((taken events).getLast?).map (·.length)).getD 0

/-- Nothing was appended or read but failed, because the pipe is cancelled. -/
def Refused (e : PipeEvent) : Prop :=
  (∀ chunk answer, e = appended chunk answer →
      ∃ reason, answer = .done (.error (Pipe.cancelledFailure reason)))
    ∧ ∀ answer, e = read answer → ∃ reason, answer = .done (.error (Pipe.cancelledFailure reason))

theorem Refused.taken?_eq_none {e : PipeEvent} (h : e.Refused) : e.taken? = none := by
  cases e with
  | appended chunk answer =>
    obtain ⟨reason, rfl⟩ := h.1 chunk answer rfl
    rfl
  | read | finished | cancelled => rfl

theorem Refused.given?_eq_none {e : PipeEvent} (h : e.Refused) : e.given? = none := by
  cases e with
  | read answer =>
    obtain ⟨reason, rfl⟩ := h.2 answer rfl
    rfl
  | appended | finished | cancelled => rfl

section Snoc

variable (events : List PipeEvent) (e : PipeEvent)

theorem taken_snoc : taken (events ++ [e]) = taken events ++ e.taken?.toList := by
  cases h : e.taken? <;> simp [taken, h]

theorem given_snoc : given (events ++ [e]) = given events ++ e.given?.toList := by
  cases h : e.given? <;> simp [given, h]

theorem reasons_snoc : reasons (events ++ [e]) = reasons events ++ e.reason?.toList := by
  cases h : e.reason? <;> simp [reasons, h]

end Snoc

end PipeEvent

namespace Pipe

open PipeEvent

def use (p : Pipe) : PipeUse → Pipe × PipeEvent
  | .append chunk => ((p.append chunk).1, .appended chunk (p.append chunk).2)
  | .read => (p.read.1, .read p.read.2)
  | .finish => (p.finish, .finished)
  | .cancel reason => (p.cancel reason, .cancelled reason)

/-! ## What a use can do -/

/-- `append` fails for a cancelled pipe, waits for a full one, fails for a finished one, or appends.
-/
theorem append_cases (p : Pipe) (chunk : Bytes) :
    (∃ reason, p.cancelled = some reason
        ∧ p.append chunk = (p, .done (.error (cancelledFailure reason))))
      ∨ (p.cancelled = none ∧ p.capacity ≤ p.buffered ∧ p.append chunk = (p, .mustWait))
      ∨ (p.cancelled = none ∧ p.finished = true
        ∧ p.append chunk = (p, .done (.error (.internal "append to finished stream load pipe"))))
      ∨ (p.cancelled = none ∧ p.finished = false ∧ p.buffered < p.capacity
        ∧ p.append chunk
          = ({ p with chunks := p.chunks ++ [chunk], buffered := p.buffered + chunk.length },
            .done (.ok ()))) := by
  unfold append
  split
  · rename_i reason hc
    exact .inl ⟨reason, hc, rfl⟩
  · rename_i hc
    split_ifs with hfull hfinished
    · exact .inr (.inl ⟨hc, hfull, rfl⟩)
    · exact .inr (.inr (.inl ⟨hc, hfinished, rfl⟩))
    · exact .inr (.inr (.inr ⟨hc, by simpa using hfinished, Nat.lt_of_not_le hfull, rfl⟩))

/-- `read` fails for a cancelled pipe, gives the first chunk, or finds none. -/
theorem read_cases (p : Pipe) :
    (∃ reason, p.cancelled = some reason
        ∧ p.read = (p, .done (.error (cancelledFailure reason))))
      ∨ (∃ chunk rest, p.cancelled = none ∧ p.chunks = chunk :: rest
        ∧ p.read = ({ p with chunks := rest, buffered := p.buffered - chunk.length },
          .done (.ok (some chunk))))
      ∨ (p.cancelled = none ∧ p.chunks = []
        ∧ p.read = (p, if p.finished then .done (.ok none) else .mustWait)) := by
  unfold read
  split
  · rename_i reason hc
    exact .inl ⟨reason, hc, rfl⟩
  · rename_i chunk rest hc hchunks
    exact .inr (.inl ⟨chunk, rest, hc, hchunks, rfl⟩)
  · rename_i hc hchunks
    exact .inr (.inr ⟨hc, hchunks, rfl⟩)

/-! ## Every use -/

/-- How a pipe stands with what has happened to it. -/
structure Kept (capacity : Nat) (p : Pipe) (events : List PipeEvent) : Prop where
  capacity_eq : p.capacity = max capacity 1
  cancelled_eq : p.cancelled = (reasons events).getLast?
  finished_iff : p.finished = true ↔ .finished ∈ events
  given_taken : given events <+: taken events
  taken_eq : p.cancelled = none → taken events = given events ++ p.chunks
  buffered_eq : p.buffered = p.chunks.flatten.length
  buffered_le : p.buffered ≤ max capacity 1 - 1 + lastTaken events
  chunks_eq : p.cancelled.isSome = true → p.chunks = []

section Kept

variable {capacity : Nat} {p : Pipe} {events : List PipeEvent}

theorem kept_new (capacity : Nat) : Kept capacity (new capacity) [] where
  capacity_eq := rfl
  cancelled_eq := rfl
  finished_iff := by simp [new]
  given_taken := List.prefix_refl _
  taken_eq _ := rfl
  buffered_eq := rfl
  buffered_le := Nat.zero_le _
  chunks_eq _ := rfl

/-- Nothing was taken or read, and the pipe is as it was. -/
theorem Kept.idle (h : Kept capacity p events) {e : PipeEvent} (htaken : e.taken? = none)
    (hgiven : e.given? = none) (hreason : e.reason? = none) (hfinished : e ≠ .finished) :
    Kept capacity p (events ++ [e]) := by
  have ht : taken (events ++ [e]) = taken events := by simp [taken_snoc, htaken]
  have hg : given (events ++ [e]) = given events := by simp [given_snoc, hgiven]
  have hr : reasons (events ++ [e]) = reasons events := by simp [reasons_snoc, hreason]
  refine ⟨h.capacity_eq, ?_, ?_, ?_, ?_, h.buffered_eq, ?_, h.chunks_eq⟩
  · rw [hr]
    exact h.cancelled_eq
  · simp [h.finished_iff, hfinished.symm]
  · rw [ht, hg]
    exact h.given_taken
  · rw [ht, hg]
    exact h.taken_eq
  · rw [lastTaken, ht]
    exact h.buffered_le

theorem Kept.append (h : Kept capacity p events) (chunk : Bytes) :
    Kept capacity (p.append chunk).1 (events ++ [.appended chunk (p.append chunk).2]) := by
  rcases p.append_cases chunk with ⟨reason, -, ha⟩ | ⟨-, -, ha⟩ | ⟨-, -, ha⟩ | ⟨ho, -, hroom, ha⟩
  · rw [ha]
    exact h.idle rfl rfl rfl (by simp)
  · rw [ha]
    exact h.idle rfl rfl rfl (by simp)
  · rw [ha]
    exact h.idle rfl rfl rfl (by simp)
  · rw [ha]
    have htaken := h.taken_eq ho
    have hcap := h.capacity_eq
    refine ⟨hcap, ?_, ?_, ?_, fun _ => ?_, ?_, ?_, fun hc => by simp [ho] at hc⟩
    · simpa [reasons_snoc, reason?] using h.cancelled_eq
    · simpa using h.finished_iff
    · simp [taken_snoc, given_snoc, taken?, given?, htaken]
    · simp [taken_snoc, given_snoc, taken?, given?, htaken]
    · simp [h.buffered_eq]
    · simp only [lastTaken, taken_snoc, taken?, Option.toList_some, List.getLast?_append,
        List.getLast?_singleton, Option.some_or, Option.map_some, Option.getD_some]
      omega

theorem Kept.read (h : Kept capacity p events) :
    Kept capacity p.read.1 (events ++ [.read p.read.2]) := by
  rcases p.read_cases with ⟨reason, -, hr⟩ | ⟨chunk, rest, ho, hchunks, hr⟩ | ⟨-, -, hr⟩
  · rw [hr]
    exact h.idle rfl rfl rfl (by simp)
  · rw [hr]
    have htaken := h.taken_eq ho
    have hbuffered := h.buffered_eq
    have hle := h.buffered_le
    rw [hchunks] at htaken hbuffered
    refine ⟨h.capacity_eq, ?_, ?_, ?_, fun _ => ?_, ?_, ?_, fun hc => by simp [ho] at hc⟩
    · simpa [reasons_snoc, reason?] using h.cancelled_eq
    · simpa using h.finished_iff
    · simp [taken_snoc, given_snoc, taken?, given?, htaken]
    · simp [taken_snoc, given_snoc, taken?, given?, htaken]
    · rw [List.flatten_cons, List.length_append] at hbuffered
      exact Nat.sub_eq_of_eq_add' hbuffered
    · simp only [lastTaken, taken_snoc, taken?, Option.toList_none, List.append_nil] at hle ⊢
      omega
  · rw [hr]
    split
    · exact h.idle rfl rfl rfl (by simp)
    · exact h.idle rfl rfl rfl (by simp)

theorem Kept.finish (h : Kept capacity p events) :
    Kept capacity p.finish (events ++ [.finished]) where
  capacity_eq := h.capacity_eq
  cancelled_eq := by simpa [reasons_snoc, reason?, Pipe.finish] using h.cancelled_eq
  finished_iff := by simp [Pipe.finish]
  given_taken := by simpa [taken_snoc, given_snoc, taken?, given?] using h.given_taken
  taken_eq := by simpa [taken_snoc, given_snoc, taken?, given?, Pipe.finish] using h.taken_eq
  buffered_eq := h.buffered_eq
  buffered_le := by simpa [lastTaken, taken_snoc, taken?, Pipe.finish] using h.buffered_le
  chunks_eq := h.chunks_eq

theorem Kept.cancel (h : Kept capacity p events) (reason : String) :
    Kept capacity (p.cancel reason) (events ++ [.cancelled reason]) where
  capacity_eq := h.capacity_eq
  cancelled_eq := by simp [reasons_snoc, reason?, Pipe.cancel]
  finished_iff := by simpa [Pipe.cancel] using h.finished_iff
  given_taken := by simpa [taken_snoc, given_snoc, taken?, given?] using h.given_taken
  taken_eq hc := by simp [Pipe.cancel] at hc
  buffered_eq := rfl
  buffered_le := Nat.zero_le _
  chunks_eq _ := rfl

theorem Kept.use (h : Kept capacity p events) (u : PipeUse) :
    Kept capacity (p.use u).1 (events ++ [(p.use u).2]) := by
  cases u with
  | append chunk => exact h.append chunk
  | read => exact h.read
  | finish => exact h.finish
  | cancel reason => exact h.cancel reason

/-- A chunk is taken exactly if there is room before it, and the pipe is neither finished nor
cancelled. -/
theorem append_ok_iff (p : Pipe) (chunk : Bytes) : (p.append chunk).2 = .done (.ok ())
    ↔ p.cancelled = none ∧ p.finished = false ∧ p.buffered < p.capacity := by
  rcases p.append_cases chunk with
    ⟨reason, hc, ha⟩ | ⟨-, hfull, ha⟩ | ⟨-, hf, ha⟩ | ⟨hc, hf, hroom, ha⟩
  · simp [ha, hc]
  · simp [ha, Nat.not_lt.2 hfull]
  · simp [ha, hf]
  · simp [ha, hc, hf, hroom]

/-- Whoever goes on reading gets all that the pipe holds. -/
theorem reads_to_end : ∀ (chunks : List Bytes) {p : Pipe}, p.cancelled = none →
    p.chunks = chunks → (callAll Pipe.use p (List.replicate chunks.length .read)).2
      = chunks.map fun chunk => .read (.done (.ok (some chunk)))
  | [], _, _, _ => rfl
  | chunk :: rest, p, ho, hchunks => by
    have hread : p.use .read = ({ p with chunks := rest, buffered := p.buffered - chunk.length },
        .read (.done (.ok (some chunk)))) := by
      simp [Pipe.use, Pipe.read, ho, hchunks]
    simp only [List.length_cons, List.replicate_succ, callAll, hread, List.map_cons]
    exact congrArg _ (reads_to_end rest ho rfl)

end Kept

/-! ## Finished and cancelled pipes -/

section Closed

variable {p : Pipe}

/-- A finished pipe stays so, and takes nothing. -/
theorem use_of_finished (hf : p.finished = true) (u : PipeUse) :
    (p.use u).1.finished = true ∧ (p.use u).2.taken? = none := by
  cases u with
  | append chunk =>
    rcases p.append_cases chunk with ⟨reason, -, ha⟩ | ⟨-, -, ha⟩ | ⟨-, -, ha⟩ | ⟨-, ho, -⟩
    · simp [use, ha, hf, taken?]
    · simp [use, ha, hf, taken?]
    · simp [use, ha, hf, taken?]
    · rw [hf] at ho
      cases ho
  | read =>
    rcases p.read_cases with ⟨reason, -, hr⟩ | ⟨chunk, rest, -, -, hr⟩ | ⟨-, -, hr⟩ <;>
      simp [use, hr, hf, taken?]
  | finish => exact ⟨rfl, rfl⟩
  | cancel reason => exact ⟨hf, rfl⟩

theorem use_of_cancelled (hc : p.cancelled.isSome = true) (u : PipeUse) :
    (p.use u).1.cancelled.isSome = true ∧ (p.use u).2.Refused := by
  obtain ⟨reason, hreason⟩ := Option.isSome_iff_exists.1 hc
  cases u <;> simp [use, append, read, finish, cancel, hreason, Refused]

theorem uses_of_finished (uses : List PipeUse) (hf : p.finished = true) :
    ∀ e ∈ (callAll use p uses).2, e.taken? = none :=
  (callAll_forall (P := fun p : Pipe => p.finished = true) (fun _ u h => use_of_finished h u)
    uses hf).2

theorem uses_of_cancelled (uses : List PipeUse) (hc : p.cancelled.isSome = true) :
    ∀ e ∈ (callAll use p uses).2, e.Refused :=
  (callAll_forall (P := fun p : Pipe => p.cancelled.isSome = true)
    (fun _ u h => use_of_cancelled h u) uses hc).2

theorem finished_of_event {u : PipeUse} (hu : (p.use u).2 = .finished) :
    (p.use u).1.finished = true := by
  cases u with
  | finish => rfl
  | _ => simp [use] at hu

theorem cancelled_of_event {u : PipeUse} {reason : String} (hu : (p.use u).2 = .cancelled reason) :
    (p.use u).1.cancelled.isSome = true := by
  cases u with
  | cancel => rfl
  | _ => simp [use] at hu

end Closed

/-! ## Every run -/

theorem kept_uses (capacity : Nat) (uses : List PipeUse) :
    Kept capacity (callAll use (new capacity) uses).1 (callAll use (new capacity) uses).2 :=
  callAll_history (R := Kept capacity) (fun _ _ u h => h.use u) uses _ [] (kept_new _)

/-- Whatever is done with a pipe, its chunks are read in the order in which they were taken, and
until it is cancelled it holds the others. It knows how many bytes it holds; these are fewer than
its capacity whenever it takes a chunk, which it does until it is finished. What it holds can be
read as long as it is not cancelled, and then it holds nothing and everything fails. -/
theorem chunks_in_order (capacity : Nat) (uses : List PipeUse) (p : Pipe)
    (events : List PipeEvent) (hrun : callAll use (new capacity) uses = (p, events)) :
    given events <+: taken events
      ∧ (p.cancelled = none → taken events = given events ++ p.chunks)
      ∧ p.buffered = p.chunks.flatten.length
      ∧ p.cancelled = (reasons events).getLast?
      ∧ (∀ chunk, (p.append chunk).2 = .done (.ok ()) ↔
          p.cancelled = none ∧ .finished ∉ events ∧ p.buffered < max capacity 1)
      ∧ p.buffered ≤ max capacity 1 - 1 + lastTaken events
      ∧ (∀ before after, events = before ++ .finished :: after → taken after = [])
      ∧ (p.cancelled = none → (callAll use p (List.replicate p.chunks.length .read)).2
          = p.chunks.map fun chunk => .read (.done (.ok (some chunk))))
      ∧ (∀ before reason after, events = before ++ .cancelled reason :: after →
          (∀ e ∈ after, e.Refused) ∧ taken after = [] ∧ given after = []
            ∧ p.chunks = [] ∧ p.buffered = 0) := by
  have hkept := kept_uses capacity uses
  rw [hrun] at hkept
  have hevents : (callAll use (new capacity) uses).2 = events := congrArg Prod.snd hrun
  refine ⟨hkept.given_taken, hkept.taken_eq, hkept.buffered_eq, hkept.cancelled_eq,
    fun chunk => ?_, hkept.buffered_le, fun before after h => ?_,
    fun ho => reads_to_end p.chunks ho rfl, fun before reason after h => ?_⟩
  · rw [append_ok_iff, hkept.capacity_eq, ← hkept.finished_iff, Bool.not_eq_true]
  · obtain ⟨uses₁, u, uses₂, -, -, hu, rfl⟩ := callAll_split before (hevents.trans h)
    exact List.filterMap_eq_nil_iff.2 (uses_of_finished uses₂ (finished_of_event hu))
  · obtain ⟨uses₁, u, uses₂, -, -, hu, rfl⟩ := callAll_split before (hevents.trans h)
    have hrefused := uses_of_cancelled uses₂ (cancelled_of_event hu)
    have hc : p.cancelled.isSome = true := by
      rw [hkept.cancelled_eq, h]
      simp [reasons, reason?]
    have hchunks := hkept.chunks_eq hc
    refine ⟨hrefused, List.filterMap_eq_nil_iff.2 fun e he => (hrefused e he).taken?_eq_none,
      List.filterMap_eq_nil_iff.2 fun e he => (hrefused e he).given?_eq_none, hchunks, ?_⟩
    rw [hkept.buffered_eq, hchunks]
    rfl

/-- A pipe for four bytes, which was full for a while, was finished with a chunk in it and then
cancelled. -/
def broken : List PipeUse :=
  [.append [1, 2, 3], .append [4, 5], .append [6], .read, .finish, .append [7], .cancel "timeout",
    .append [8], .read]

theorem chunks_in_order_broken :
    let run := callAll use (new 4) broken
    let f := cancelledFailure "timeout"
    let before := [.appended [1, 2, 3] (.done (.ok ())), .appended [4, 5] (.done (.ok ())),
      .appended [6] .mustWait, .read (.done (.ok (some [1, 2, 3])))]
    let mid := [.appended [7] (.done (.error (.internal "append to finished stream load pipe")))]
    let after := [.appended [8] (.done (.error f)), .read (.done (.error f))]
    run.2 = before ++ .finished :: mid ++ .cancelled "timeout" :: after
      ∧ given run.2 <+: taken run.2
      ∧ run.1.buffered ≤ 3 + lastTaken run.2
      ∧ taken (mid ++ .cancelled "timeout" :: after) = []
      ∧ ((∀ e ∈ after, e.Refused) ∧ taken after = [] ∧ given after = []
        ∧ run.1.chunks = [] ∧ run.1.buffered = 0) := by
  intro run f before mid after
  have hevents : run.2 = before ++ .finished :: mid ++ .cancelled "timeout" :: after := rfl
  obtain ⟨horder, -, -, -, -, hle, hfinish, -, hcancel⟩ :=
    chunks_in_order 4 broken run.1 run.2 rfl
  exact ⟨hevents, horder, hle, hfinish before _ hevents,
    hcancel (before ++ .finished :: mid) "timeout" after hevents⟩

end Pipe

end QueryHost
