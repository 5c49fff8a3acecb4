import QueryHost.Failure
import QueryHost.Text.Digest

/-!
# Pipes

The body of a stream load goes through a pipe in chunks. A chunk is accepted while fewer bytes are
buffered than the pipe's capacity, whatever its own length; then the writer has to wait for the
reader. A finished pipe accepts nothing more, and a cancelled one has lost what it held. What is
buffered is in memory, so that its bytes are counted without a bound.
-/

namespace QueryHost

structure Pipe where
  capacity : Nat
  chunks : List Bytes := []
  /-- How many bytes the chunks have. -/
  buffered : Nat := 0
  finished : Bool := false
  /-- Why the pipe was cancelled, if it was. -/
  cancelled : Option String := none
  deriving DecidableEq, Repr

namespace Pipe

def new (capacity : Nat) : Pipe := { capacity := max capacity 1 }

def cancelledFailure (reason : String) : Failure :=
  .internal ("stream load pipe cancelled: " ++ reason)

def append (p : Pipe) (chunk : Bytes) : Pipe × Attempt (Except Failure Unit) :=
  match p.cancelled with
  | some reason => (p, .done (.error (cancelledFailure reason)))
  | none =>
    if p.capacity ≤ p.buffered then (p, .mustWait)
    else if p.finished then (p, .done (.error (.internal "append to finished stream load pipe")))
    else
      ({ p with chunks := p.chunks ++ [chunk], buffered := p.buffered + chunk.length },
        .done (.ok ()))

/-- The next chunk; none at the end of the stream. -/
def read (p : Pipe) : Pipe × Attempt (Except Failure (Option Bytes)) :=
  match p.cancelled, p.chunks with
  | some reason, _ => (p, .done (.error (cancelledFailure reason)))
  | none, chunk :: rest =>
    ({ p with chunks := rest, buffered := p.buffered - chunk.length }, .done (.ok (some chunk)))
  | none, [] => (p, if p.finished then .done (.ok none) else .mustWait)

def finish (p : Pipe) : Pipe := { p with finished := true }

def cancel (p : Pipe) (reason : String) : Pipe :=
  { p with cancelled := some reason, chunks := [], buffered := 0 }

end Pipe

end QueryHost
