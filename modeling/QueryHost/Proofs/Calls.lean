/-!
# Runs of calls

A run makes calls one after the other. Two machines that stay related at each call, and give the
same answer, give the same answers to every run (`callAll_simulates`). What holds of a state and of
the answers so far, and is kept by each call, holds after every run (`callAll_history`), and what
each answer of a kept state is, every answer is (`callAll_forall`). Where the answers are parted, so
are the calls (`callAll_split`). A run of calls that may give nothing gives nothing as soon as one
of them does (`callAll?`).
-/

namespace QueryHost

variable {σ ρ γ β : Type}

/-- The state after a run of calls, and the answers in their order. -/
def callAll (call : σ → γ → σ × β) : σ → List γ → σ × List β
  | s, [] => (s, [])
  | s, c :: cs =>
    let first := call s c
    let rest := callAll call first.1 cs
    (rest.1, first.2 :: rest.2)

theorem callAll_simulates {f : σ → γ → σ × β} {g : ρ → γ → ρ × β} {R : σ → ρ → Prop}
    (h : ∀ s r c, R s r → R (f s c).1 (g r c).1 ∧ (f s c).2 = (g r c).2) :
    ∀ (cs : List γ) (s : σ) (r : ρ), R s r →
      R (callAll f s cs).1 (callAll g r cs).1 ∧ (callAll f s cs).2 = (callAll g r cs).2
  | [], _, _, hR => ⟨hR, rfl⟩
  | c :: cs, s, r, hR => by
    obtain ⟨hstep, hanswer⟩ := h s r c hR
    obtain ⟨hrun, hanswers⟩ := callAll_simulates h cs _ _ hstep
    refine ⟨hrun, ?_⟩
    simp only [callAll]
    rw [hanswer, hanswers]

theorem callAll_history {call : σ → γ → σ × β} {R : σ → List β → Prop}
    (h : ∀ s bs c, R s bs → R (call s c).1 (bs ++ [(call s c).2])) :
    ∀ (cs : List γ) (s : σ) (bs : List β), R s bs →
      R (callAll call s cs).1 (bs ++ (callAll call s cs).2)
  | [], s, bs, hR => by simpa [callAll] using hR
  | c :: cs, s, bs, hR => by
    have hrun := callAll_history h cs _ _ (h s bs c hR)
    simpa [callAll] using hrun

theorem callAll_forall {call : σ → γ → σ × β} {P : σ → Prop} {Q : β → Prop}
    (h : ∀ s c, P s → P (call s c).1 ∧ Q (call s c).2) :
    ∀ (cs : List γ) {s : σ}, P s →
      P (callAll call s cs).1 ∧ ∀ b ∈ (callAll call s cs).2, Q b
  | [], _, hP => ⟨hP, by simp [callAll]⟩
  | c :: cs, s, hP => by
    obtain ⟨hstep, hfirst⟩ := h s c hP
    obtain ⟨hrun, hrest⟩ := callAll_forall h cs hstep
    exact ⟨hrun, List.forall_mem_cons.2 ⟨hfirst, hrest⟩⟩

/-- Where an answer stands among the answers of a run, the run divides. -/
theorem callAll_split {call : σ → γ → σ × β} {b : β} {after : List β} :
    ∀ (before : List β) {cs : List γ} {s : σ}, (callAll call s cs).2 = before ++ b :: after →
      ∃ cs₁ c cs₂, cs = cs₁ ++ c :: cs₂ ∧ (callAll call s cs₁).2 = before
        ∧ (call (callAll call s cs₁).1 c).2 = b
        ∧ (callAll call (call (callAll call s cs₁).1 c).1 cs₂).2 = after
  | [], [], s, h => by simp [callAll] at h
  | [], c :: cs, s, h => by
    obtain ⟨hb, hafter⟩ := List.cons.inj h
    exact ⟨[], c, cs, rfl, rfl, hb, hafter⟩
  | b' :: before, [], s, h => by simp [callAll] at h
  | b' :: before, c :: cs, s, h => by
    obtain ⟨hb', hrest⟩ := List.cons.inj h
    obtain ⟨cs₁, c', cs₂, rfl, hbefore, hb, hafter⟩ := callAll_split before hrest
    refine ⟨c :: cs₁, c', cs₂, rfl, ?_, hb, hafter⟩
    simp only [callAll]
    rw [hb', hbefore]

/-- A run of calls each of which may give nothing. -/
def callAll? (call? : σ → γ → Option (σ × β)) : σ → List γ → Option (σ × List β)
  | s, [] => some (s, [])
  | s, c :: cs => do
    let first ← call? s c
    let rest ← callAll? call? first.1 cs
    return (rest.1, first.2 :: rest.2)

end QueryHost
