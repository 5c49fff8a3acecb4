import QueryHost.Proofs.Shutdowns

/-!
# Releases

A release shuts down every subsystem that it is given, once and in the order given: that is what
becomes of the parts and of the accounts (`releaseAll_eq`) and what the scene records
(`lives_releaseAll`). So all of them are down in the end (`isDown_releaseAll`). To the disk it does
nothing. If what counts allocations is among these subsystems, nothing counts afterwards; if what
the thread is bound to is among them, it is bound to nothing (`countsBy_releaseAll`,
`boundBy_releaseAll`).
-/

namespace QueryHost

/-! ## Shutting down in order -/

/-- Shuts subsystems down one after the other. -/
def shutDownAll : List Subsystem → Resources × Accounts → Resources × Accounts
  | [], p => p
  | s :: rest, (r, a) => shutDownAll rest ((s.shutDown r a).1, (s.shutDown r a).2.1)

namespace Subsystem

variable {s : Subsystem}

theorem IsDown.kept_all {r : Resources} {a : Accounts} (h : s.IsDown r a) (l : List Subsystem) :
    s.IsDown (shutDownAll l (r, a)).1 (shutDownAll l (r, a)).2 := by
  induction l generalizing r a with
  | nil => exact h
  | cons x rest ih => exact ih (h.kept x)

/-- Each of them is down in the end, whatever is shut down after it. -/
theorem isDown_shutDownAll {l : List Subsystem} (h : s ∈ l) (r : Resources) (a : Accounts) :
    s.IsDown (shutDownAll l (r, a)).1 (shutDownAll l (r, a)).2 := by
  induction l generalizing r a with
  | nil => exact nomatch h
  | cons x rest ih =>
    rcases List.mem_cons.1 h with heq | hrest
    · have hdown : s.IsDown (x.shutDown r a).1 (x.shutDown r a).2.1 :=
        heq ▸ s.isDown_shutDown r a
      exact hdown.kept_all rest
    · exact ih hrest _ _

end Subsystem

/-! ## One shutdown -/

namespace Accounts

/-- What counts allocations is among the entries. -/
def CountsBy (a : Accounts) (entries : List (ScopeEntry Subsystem)) : Prop :=
  a.hooks.counting = true → ∃ e ∈ entries, ∃ h, e.subsystem = .allocationHook h ∧ a.hooks.isActive h

/-- What the thread is bound to is among the entries. -/
def BoundBy (a : Accounts) (entries : List (ScopeEntry Subsystem)) : Prop :=
  ∀ t, a.bound = some t → ∃ e ∈ entries, e.subsystem = .orphanTracker t

variable {a : Accounts} {e : ScopeEntry Subsystem} {rest : List (ScopeEntry Subsystem)}

theorem hooks_shutDown (r : Resources) {s : Subsystem}
    (hc : (s.shutDown r a).2.1.hooks.counting = true) :
    (s.shutDown r a).2.1.hooks = a.hooks ∧ ∀ h, s = .allocationHook h → ¬ a.hooks.isActive h := by
  cases s with
  | allocationHook id =>
    rcases a.hooks.uninstall_cases id a.trackers with ⟨hidle, heq⟩ | hoff
    · exact ⟨congrArg Prod.fst heq, fun h hs => Subsystem.allocationHook.inj hs ▸ hidle⟩
    · exact absurd (hc.symm.trans hoff) (by decide)
  | _ => exact ⟨rfl, fun h hs => nomatch hs⟩

/-- A shutdown binds the thread to nothing else. -/
theorem bound_of_shutDown (r : Resources) {s : Subsystem} {t : TrackerId}
    (hb : (s.shutDown r a).2.1.bound = some t) : a.bound = some t ∧ s ≠ .orphanTracker t := by
  refine ⟨?_, ?_⟩
  · by_contra hne
    exact Subsystem.bound_shutDown hne s hb
  · rintro rfl
    exact Subsystem.isDown_shutDown (.orphanTracker t) r a hb

theorem CountsBy.shutDown (h : a.CountsBy (e :: rest)) (r : Resources) :
    (e.subsystem.shutDown r a).2.1.CountsBy rest := by
  intro hc
  obtain ⟨hsame, hidle⟩ := hooks_shutDown r hc
  rw [hsame] at hc ⊢
  obtain ⟨e', he', id, hid, hactive⟩ := h hc
  rcases List.mem_cons.1 he' with rfl | hrest
  · exact absurd hactive (hidle id hid)
  · exact ⟨e', hrest, id, hid, hactive⟩

theorem BoundBy.shutDown (h : a.BoundBy (e :: rest)) (r : Resources) :
    (e.subsystem.shutDown r a).2.1.BoundBy rest := by
  intro t ht
  obtain ⟨hb, hne⟩ := bound_of_shutDown r ht
  obtain ⟨e', he', hs⟩ := h t hb
  rcases List.mem_cons.1 he' with rfl | hrest
  · exact absurd hs hne
  · exact ⟨e', hrest, hs⟩

/-- Where there are no entries, nothing counts. -/
theorem countsBy_nil : a.CountsBy [] ↔ a.hooks.counting = false := by
  simp [CountsBy]

/-- Where there are no entries, the thread is bound to nothing. -/
theorem boundBy_nil : a.BoundBy [] ↔ a.bound = none := by
  simp [BoundBy, Option.eq_none_iff_forall_ne_some]

theorem CountsBy.mono {l l' : List (ScopeEntry Subsystem)} (h : a.CountsBy l)
    (hsub : ∀ e ∈ l, e ∈ l') : a.CountsBy l' := by
  intro hc
  obtain ⟨e, he, hhook⟩ := h hc
  exact ⟨e, hsub e he, hhook⟩

theorem BoundBy.mono {l l' : List (ScopeEntry Subsystem)} (h : a.BoundBy l)
    (hsub : ∀ e ∈ l, e ∈ l') : a.BoundBy l' := by
  intro t ht
  obtain ⟨e, he, hs⟩ := h t ht
  exact ⟨e, hsub e he, hs⟩

end Accounts

/-! ## A release -/

section Release

variable (held : List TrackerId)

/-- A release leaves of the parts and of the accounts what the shutdowns leave of them. -/
theorem releaseAll_eq : ∀ (l : List (ScopeEntry Subsystem)) (r : Resources) (s : Scene),
    ((releaseAll held r s l).1, (releaseAll held r s l).2.accounts)
      = shutDownAll (l.map (·.subsystem)) (r, s.accounts)
  | [], _, _ => rfl
  | _ :: rest, _, _ => releaseAll_eq rest _ _

/-- Every subsystem that is released is shut down, once and in this order. -/
theorem lives_releaseAll : ∀ (l : List (ScopeEntry Subsystem)) (r : Resources) (s : Scene),
    (releaseAll held r s l).2.lives = s.lives ++ l.map fun e => .shutDown e.subsystem
  | [], _, s => (List.append_nil _).symm
  | e :: rest, r, s => by
    rw [releaseAll, lives_releaseAll rest, List.append_assoc, List.singleton_append, List.map_cons]

theorem disk_releaseAll : ∀ (l : List (ScopeEntry Subsystem)) (r : Resources) (s : Scene),
    (releaseAll held r s l).2.disk = s.disk
  | [], _, _ => rfl
  | _ :: rest, _, _ => disk_releaseAll rest _ _

/-- What was released is down. -/
theorem isDown_releaseAll {l : List (ScopeEntry Subsystem)} (r : Resources) (s : Scene)
    {e : ScopeEntry Subsystem} (he : e ∈ l) :
    e.subsystem.IsDown (releaseAll held r s l).1 (releaseAll held r s l).2.accounts := by
  have hmem : e.subsystem ∈ l.map (·.subsystem) := List.mem_map_of_mem he
  have hdown := Subsystem.isDown_shutDownAll hmem r s.accounts
  rwa [← releaseAll_eq held l r s] at hdown

/-- What every shutdown keeps of the accounts, with the entries that are still to come. -/
theorem accounts_releaseAll {P : Accounts → List (ScopeEntry Subsystem) → Prop}
    (hstep : ∀ {a : Accounts} {e : ScopeEntry Subsystem} {rest : List (ScopeEntry Subsystem)},
      P a (e :: rest) → ∀ r : Resources, P (e.subsystem.shutDown r a).2.1 rest) :
    ∀ (l : List (ScopeEntry Subsystem)) (r : Resources) (s : Scene), P s.accounts l →
      P (releaseAll held r s l).2.accounts []
  | [], _, _, h => h
  | _ :: rest, r, _, h => accounts_releaseAll hstep rest _ _ (hstep h r)

theorem countsBy_releaseAll {l : List (ScopeEntry Subsystem)} (r : Resources) {s : Scene}
    (h : s.accounts.CountsBy l) : (releaseAll held r s l).2.accounts.CountsBy [] :=
  accounts_releaseAll held Accounts.CountsBy.shutDown l r s h

theorem boundBy_releaseAll {l : List (ScopeEntry Subsystem)} (r : Resources) {s : Scene}
    (h : s.accounts.BoundBy l) : (releaseAll held r s l).2.accounts.BoundBy [] :=
  accounts_releaseAll held Accounts.BoundBy.shutDown l r s h

end Release

end QueryHost
