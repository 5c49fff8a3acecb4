import QueryHost.Session
import QueryHost.Wire.Decode

/-!
# Handling requests

A request is a record. Its handler reads fields by name, acts on a session, reports, and may answer
before its end by throwing the answer. Most handlers apply one operation to what they read (`act
(·.insert) "key value charge"`): `Arg` tells how an argument is read, and `Outcome` what becomes of
the result.
-/

namespace QueryHost.Wire

/-- A session whose waiting calls succeed or fail. -/
abbrev Bench (σ η : Type) := Session σ η (Except Failure Unit)

abbrev Handler (σ η α : Type) := ReaderT Value (ExceptT Value (StateT (Bench σ η) (StateM Log))) α

namespace Handler

variable {σ η α β φ : Type}

/-! ## Answers -/

def some! (o : Option α) : Handler σ η α :=
  match o with
  | some a => pure a
  | none => throw .null

/-- Answers with the failure if there is one. -/
def ok (r : Except Failure α) : Handler σ η α :=
  match r with
  | .ok a => pure a
  | .error f => throw (encode f)

/-- What a whole request answers when it panics. -/
def panicked : Value := record "error" "panic"

/-- Panics where there is no result. -/
def sound (o : Option α) : Handler σ η α :=
  match o with
  | some a => pure a
  | none => throw panicked

def say (lines : Log) : Handler σ η Unit := (modify (· ++ lines) : StateM Log Unit)

/-! ## The session -/

def state : Handler σ η σ := return (← get).state

def alter (f : σ → σ) : Handler σ η Unit := modify (·.alter f)

def put (x : σ) : Handler σ η Unit := alter fun _ => x

def onBench (f : Bench σ η → Bench σ η × α) : Handler σ η α := modifyGet fun b => (f b).swap

/-! ## Arguments -/

def field [Decode α] (name : String) : Handler σ η α := do
  match decode ((← read).field name) with
  | some a => return a
  | none => throw (record "error message" ("BadInput", name))

/-- A field that may be absent. -/
def field? [Decode α] (name : String) (absent : α) : Handler σ η α :=
  return (← field name : Option α).getD absent

/-- What is held under the name that a field has. -/
def named (name : String) : Handler σ η η := do some! ((← get).held.get? (← field name))

def keep (name : String) (x : η) : Handler σ η Unit := do
  let n ← field name
  modify (·.keep n x)

def use (name : String) (f : σ → η → σ) : Handler σ η Bool := do
  let n ← field name
  onBench (·.use n f)

def release (name : String) (f : σ → η → σ) : Handler σ η Bool := do
  let n ← field name
  onBench (·.release n f)

def forget (name : String) : Handler σ η Bool := release name fun x _ => x

/-- How an argument is read: from a field, or from a name that begins with `@`, which leads to what
is held. -/
class Arg (σ η α : Type) where
  arg : String → Handler σ η α

export Arg (arg)

instance (priority := low) : Arg σ η η := ⟨named⟩

instance [Decode α] : Arg σ η α := ⟨field⟩

instance (priority := high) [Decode η] : Arg σ η η :=
  ⟨fun name => if name.startsWith "@" then named (name.drop 1).toString else field name⟩

/-- Applies a function to arguments one after the other. -/
class Apply (σ η φ : Type) (α : outParam Type) where
  apply : φ → List String → Handler σ η α

instance (priority := low) : Apply σ η α α := ⟨fun a _ => return a⟩

instance [Arg σ η α] [Apply σ η φ β] : Apply σ η (α → φ) β :=
  ⟨fun f names => do Apply.apply (f (← arg (names.headD ""))) names.tail⟩

/-- Applies a function to the arguments that are named between blanks. -/
def args [Apply σ η φ α] (f : φ) (names : String) : Handler σ η α :=
  Apply.apply f (names.splitOn " ")

/-! ## Results -/

/-- Goes on with a new state, and answers with what there is beside it. -/
def answer [Encode α] (p : σ × α) : Handler σ η Value := do
  put p.1
  return encode p.2

/-- What becomes of a result: of a new state, of an answer beside it, or of an answer alone. -/
class Outcome (σ η α : Type) where
  conclude : α → Handler σ η Value

instance (priority := low) [Encode α] : Outcome σ η α := ⟨fun a => return encode a⟩

instance (priority := high) : Outcome σ η σ := ⟨fun x => answer (x, ())⟩

instance [Encode α] : Outcome σ η (σ × α) := ⟨answer⟩

instance (priority := high) : Outcome σ η (σ × Log) :=
  ⟨fun (x, lines) => do
    say lines
    answer (x, ())⟩

instance (priority := high) : Outcome σ η (Option σ) := ⟨fun o => do answer (← sound o, ())⟩

instance : Outcome σ η (Except Failure σ) := ⟨fun r => do answer (← ok r, "ok")⟩

instance : Outcome σ η (Except Failure (σ × Log)) :=
  ⟨fun r => do
    let (x, lines) ← ok r
    say lines
    answer (x, "ok")⟩

instance [Encode α] : Outcome σ η (Except Failure (σ × α)) := ⟨fun r => do answer (← ok r)⟩

/-- What would have to wait is not done. -/
instance [Encode α] : Outcome σ η (σ × Attempt (Except Failure α)) :=
  ⟨fun
    | (x, .done r) => answer (x, r)
    | (_, .mustWait) => return .null⟩

/-- Applies a function to arguments, and concludes with its result. -/
def call [Apply σ η φ α] [Outcome σ η α] (f : φ) (names : String) : Handler σ η Value := do
  Outcome.conclude (← args f names)

/-- Applies an operation to the state and to arguments. -/
def act [Apply σ η φ α] [Outcome σ η α] (f : σ → φ) (names : String) : Handler σ η Value := do
  call (f (← state)) names

/-- Goes on with a new state and holds what there is beside it; gives the names under which the same
was held before. -/
def adopt [BEq η] (name : String) (p : σ × η) : Handler σ η (List String) := do
  let same := (← get).namesOf p.2
  keep name p.2
  put p.1
  return same

/-! ## Calls that wait -/

/-- Makes a call that may have to wait, under the name that a field has. -/
def start (name : String) (f : σ → σ × Attempt (Except Failure Unit)) : Handler σ η Value := do
  let n ← field? name ""
  match ← onBench (·.call n f) with
  | some r => return encode r
  | none => return .text "blocked"

/-- The answer of a call that has waited. -/
def await (name : String) : Handler σ η Value := do
  let n ← field name
  match ← onBench (·.takeAnswer n) with
  | some r => return encode r
  | none => return .text "not parked"

/-! ## Requests in a row -/

/-- Answers a request whatever its handler throws. -/
def settled (h : Handler σ η Value) : Handler σ η Value := tryCatch h pure

/-- Handles a request; after it the waiting calls are tried again. -/
def handle (h : Handler σ η Value) (request : Value) (b : Bench σ η) : Bench σ η × Value × Log :=
  let ((r, b), log) := ((h.run request).run.run b).run []
  (b.goOn, match r with
    | .ok v => v
    | .error v => v, log)

/-- Handles requests one after the other; gives each answer as `wrap` tells it. A request that
panics is the last. -/
def handleAll (h : Handler σ η Value) (wrap : Bench σ η → Value → Log → Value) (b : Bench σ η) :
    List Value → Bench σ η × List Value
  | [] => (b, [])
  | request :: rest =>
    let (b, answer, log) := handle h request b
    if answer == panicked then (b, [panicked]) else
    let (last, answers) := handleAll h wrap b rest
    (last, wrap b answer log :: answers)

end Handler

end QueryHost.Wire
