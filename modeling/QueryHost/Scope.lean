import QueryHost.Log

/-!
# Scopes of subsystems

A scope holds subsystems in the order in which it adopted them, and releases them in the reverse
order: each is shut down, and reported if somebody else still holds it. One subsystem may be adopted
under several names.
-/

namespace QueryHost

structure ScopeEntry (σ : Type) where
  name : String
  subsystem : σ
  deriving DecidableEq, Repr

structure Scope (σ : Type) where
  entries : List (ScopeEntry σ) := []
  deriving DecidableEq, Repr

namespace Scope

variable {σ : Type}

def adopt (s : Scope σ) (name : String) (subsystem : σ) : Scope σ :=
  ⟨s.entries ++ [⟨name, subsystem⟩]⟩

/-- What is said of an adoption. -/
def adoptionLog (name : String) : Log := [⟨.debug, "adopt subsystem " ++ name⟩]

/-- The names in the order of adoption. -/
def names (s : Scope σ) : List String := s.entries.map (·.name)

/-- What a release says of a subsystem that is held `others` times beside its own entry. -/
def outstanding (name : String) (others : Nat) : Log :=
  if others = 0 then []
  else [.warn ("subsystem " ++ name ++ " still has " ++ toString others
    ++ " outstanding handles at release")]

/-- The subsystems in the order of their shutdown: the last adopted first. -/
def shutdownOrder (s : Scope σ) : List (ScopeEntry σ) := s.entries.reverse

/-- What releasing the entries, given in the order of their shutdown, reports. `outside` counts the
holders that are no entries of the scope. -/
def releaseLog [DecidableEq σ] (outside : σ → Nat) : List (ScopeEntry σ) → Log
  | [] => []
  | e :: rest =>
    outstanding e.name (outside e.subsystem + rest.countP fun x => x.subsystem = e.subsystem)
      ++ [⟨.debug, "released subsystem " ++ e.name⟩] ++ releaseLog outside rest

end Scope

end QueryHost
