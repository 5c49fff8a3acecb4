import QueryHost.Threads.Pool

/-!
# Tokens of a thread pool

Tasks can be submitted to a pool by way of a token. A concurrent token is the pool itself. A serial
token runs its tasks one at a time and in order: they wait in the token, and while there are any,
one job in the pool, the drain, runs them one after the other.

A submission to a serial token takes up to three steps, each under a lock of its own: `offer` leaves
the task with the token and tells whether a drain has to be started, `handOver` starts it, and if
the pool refuses it, `withdraw` takes the token's last task back. Others may step in between.
-/

namespace QueryHost

inductive TokenMode where
  | serial | concurrent
  deriving DecidableEq, Repr

abbrev TokenId := Nat

structure Token (α : Type) where
  mode : TokenMode
  pending : List α := []
  /-- Whether a drain is queued or running. -/
  running : Bool := false
  closed : Bool := false
  deriving DecidableEq, Repr

/-- What the workers execute: a task of its own, or a drain, between two tasks of its token or
executing one. -/
inductive Job (α : Type) where
  | direct (task : α)
  | drain (token : TokenId) (current : Option α)
  deriving DecidableEq, Repr

/-- How a task ends. -/
inductive Ending where
  | returned | panicked
  deriving DecidableEq, Repr

/-- A pool with its tokens. -/
structure Crew (α : Type) where
  pool : ThreadPool (Job α)
  tokens : List (Token α) := []
  deriving Repr

namespace Crew

variable {α : Type}

def build (refuses : ThreadRefusals) (shape : PoolShape) : Except Failure (Crew α) :=
  (ThreadPool.build refuses shape).map fun pool => { pool := pool }

def newToken (c : Crew α) (mode : TokenMode) : Crew α × TokenId :=
  ({ c with tokens := c.tokens ++ [{ mode := mode }] }, c.tokens.length)

def onToken (c : Crew α) (t : TokenId) (f : Token α → Token α) : Crew α :=
  { c with tokens := c.tokens.modify t f }

def tokenName (c : Crew α) (t : TokenId) : String :=
  "token TokenId(" ++ toString t ++ ") of thread pool " ++ c.pool.shape.name

/-- Leaves a task with a serial token; says whether its drain has to be started. -/
def offer (c : Crew α) (t : TokenId) (token : Token α) (task : α) :
    Except Failure (Crew α × Bool) :=
  if token.closed then .error (.unavailable (c.tokenName t ++ " is shut down"))
  else if c.pool.shape.maxQueue ≤ token.pending.length then
    .error (.unavailable (c.tokenName t ++ " queue is full"))
  else
    .ok (c.onToken t fun k => { k with pending := k.pending ++ [task], running := true },
      !token.running)

/-- Submits a job to the pool. `refusal` is what the system says to another thread. -/
def enqueue (c : Crew α) (refusal : Option IoFault) (job : Job α) : Except Failure (Crew α) :=
  (c.pool.submit refusal job).map fun pool => { c with pool }

def handOver (c : Crew α) (refusal : Option IoFault) (t : TokenId) : Except Failure (Crew α) :=
  c.enqueue refusal (.drain t none)

def withdraw (c : Crew α) (t : TokenId) : Crew α :=
  c.onToken t fun k => { k with pending := k.pending.dropLast, running := false }

/-- Submits a task to the pool itself. -/
def submit (c : Crew α) (refusal : Option IoFault) (task : α) : Except Failure (Crew α) :=
  c.enqueue refusal (.direct task)

/-- Submits a task by way of a token, with nobody stepping in. -/
def submitOn (c : Crew α) (refusal : Option IoFault) (t : TokenId) (task : α) :
    Except Failure (Crew α) :=
  match c.tokens[t]? with
  | none => c.submit refusal task
  | some token =>
    match token.mode with
    | .concurrent => c.submit refusal task
    | .serial => do
      let (offered, start) ← c.offer t token task
      if start then offered.handOver refusal t else .ok offered

def pending (c : Crew α) (t : TokenId) : Nat :=
  match c.tokens[t]? with
  | some token => token.pending.length
  | none => 0

/-- A closed token forgets its tasks, but for the one that is being executed. -/
def closeToken (c : Crew α) (t : TokenId) : Crew α :=
  c.onToken t fun k => { k with closed := true, pending := [] }

def shutDown (c : Crew α) : Crew α := { c with pool := c.pool.shutDown }

/-- Whether a worker drains the token. -/
def isDrained (c : Crew α) (t : TokenId) : Bool :=
  c.pool.workers.values.any fun
    | .executing (.drain u _) => u == t
    | _ => false

/-- Shuts the pool down and waits until every worker has left. Those that drain a token empty it
before. -/
def stop (c : Crew α) : Crew α where
  pool := c.pool.stop
  tokens := c.tokens.mapIdx fun t k =>
    if c.isDrained t then { k with pending := [], running := false } else k

def set (c : Crew α) (w : WorkerId) (job : Job α) : Crew α :=
  { c with pool := c.pool.set w (.executing job) }

def finish (c : Crew α) (w : WorkerId) : Crew α := { c with pool := c.pool.finish w }

/-- A worker's drain takes the next task of its token, or ends with the last one. -/
def proceed (c : Crew α) (w : WorkerId) (t : TokenId) : Crew α :=
  match (c.tokens[t]?).map (·.pending) with
  | some (task :: rest) =>
    (c.onToken t fun k => { k with pending := rest }).set w (.drain t (some task))
  | _ => (c.onToken t fun k => { k with running := false }).finish w

end Crew

end QueryHost
