import QueryHost.Assoc
import QueryHost.Failure

/-!
# Sessions

A client's dealings with a part of the host: the state that it acts on, what it holds under names,
and its calls that have to wait. A waiting call is tried again when something has happened, and its
answer is kept until it is asked for.
-/

namespace QueryHost

structure Session (σ η ρ : Type) where
  state : σ
  held : Assoc String η := {}
  waiting : Assoc String (σ → σ × Attempt ρ) := {}
  answers : Assoc String ρ := {}

namespace Session

variable {σ η ρ : Type}

def alter (s : Session σ η ρ) (f : σ → σ) : Session σ η ρ := { s with state := f s.state }

def keep (s : Session σ η ρ) (name : String) (x : η) : Session σ η ρ :=
  { s with held := s.held.put name x }

/-- Changes the state by what is held under a name, if there is anything; says whether there is. -/
def use (s : Session σ η ρ) (name : String) (f : σ → η → σ) : Session σ η ρ × Bool :=
  match s.held.get? name with
  | some x => (s.alter (f · x), true)
  | none => (s, false)

/-- The same, and then nothing is held under the name any more. -/
def release (s : Session σ η ρ) (name : String) (f : σ → η → σ) : Session σ η ρ × Bool :=
  let (s, known) := s.use name f
  ({ s with held := s.held.erase name }, known)

/-- The names under which something is held, in their order. -/
def namesOf [BEq η] (s : Session σ η ρ) (x : η) : List String :=
  ((s.held.toList.filter (·.2 == x)).map (·.1)).mergeSort fun a b => a ≤ b

/-- Makes a call; if it has to wait, it waits under a name. -/
def call (s : Session σ η ρ) (name : String) (f : σ → σ × Attempt ρ) : Session σ η ρ × Option ρ :=
  match f s.state with
  | (state, .done r) => ({ s with state }, some r)
  | (_, .mustWait) => ({ s with waiting := s.waiting.put name f }, none)

/-- Tries a waiting call again. -/
def retry (s : Session σ η ρ) (name : String) (f : σ → σ × Attempt ρ) : Session σ η ρ :=
  match f s.state with
  | (state, .done r) =>
    { s with state, waiting := s.waiting.erase name, answers := s.answers.put name r }
  | (_, .mustWait) => s

/-- Tries every waiting call again, the one that has waited longest first. -/
def goOn (s : Session σ η ρ) : Session σ η ρ :=
  s.waiting.toList.foldl (fun s w => s.retry w.1 w.2) s

/-- Takes the answer of a call that has waited. -/
def takeAnswer (s : Session σ η ρ) (name : String) : Session σ η ρ × Option ρ :=
  ({ s with answers := s.answers.erase name }, s.answers.get? name)

end Session

end QueryHost
