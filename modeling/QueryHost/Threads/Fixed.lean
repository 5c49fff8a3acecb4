/-!
# Pools of a fixed size

A pool with a fixed number of threads and a queue without bound, as the library `threadpool` makes
them. Of the library it is assumed that its threads take the queued jobs in the order in which they
came, that a thread whose job panics is replaced by another one, and that it gets the threads that
it asks for.
-/

namespace QueryHost

structure FixedPool (τ : Type) where
  threads : Nat
  queue : List τ := []
  /-- The jobs that are being executed, in the order of their start. -/
  active : List τ := []
  deriving Repr

namespace FixedPool

variable {τ : Type}

def enqueue (p : FixedPool τ) (job : τ) : FixedPool τ := { p with queue := p.queue ++ [job] }

/-- A free thread takes the first queued job. -/
def start (p : FixedPool τ) : FixedPool τ :=
  match p.queue with
  | job :: rest =>
    if p.active.length < p.threads then { p with queue := rest, active := p.active ++ [job] } else p
  | [] => p

/-- The job at a position among the active ones ends. -/
def finish (p : FixedPool τ) (i : Nat) : FixedPool τ := { p with active := p.active.eraseIdx i }

/-- How many jobs have not ended. -/
def load (p : FixedPool τ) : Nat := p.queue.length + p.active.length

/-- Starts jobs while threads are free. -/
def fill (p : FixedPool τ) : FixedPool τ := p.queue.length.fold (fun _ _ p => p.start) p

/-- The first active job that can end, with its position. -/
def ripe? (p : FixedPool τ) (ripe : τ → Bool) : Option (Nat × τ) :=
  (p.active.zipIdx.find? fun x => ripe x.1).map fun x => (x.2, x.1)

/-- Lets jobs start and end until every active one is held up; gives those that ended, in order. -/
def run (ripe : τ → Bool) : (fuel : Nat) → FixedPool τ → FixedPool τ × List τ
  | 0, p => (p, [])
  | fuel + 1, p =>
    let p := p.fill
    match p.ripe? ripe with
    | none => (p, [])
    | some (i, job) =>
      let (p, ended) := run ripe fuel (p.finish i)
      (p, job :: ended)

def settle (ripe : τ → Bool) (p : FixedPool τ) : FixedPool τ × List τ :=
  p.run ripe (p.load + 1)

end FixedPool

end QueryHost
