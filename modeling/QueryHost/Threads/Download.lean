import QueryHost.Text.Digest
import QueryHost.Threads.Rest

/-!
# The download cache

Downloads run one at a time on a serial token of a pool, each with the token's buffer, as the one
before has left it. Closing the cache takes the buffer away, and with it the work that has not
begun.
-/

namespace QueryHost

structure DownloadCache (α : Type) where
  crew : Crew α
  token : TokenId
  bufferSize : Nat
  buffer : Option Bytes
  deriving Repr

namespace DownloadCache

variable {α : Type}

def new (crew : Crew α) (bufferSize : Nat) : DownloadCache α :=
  let (crew, token) := crew.newToken .serial
  { crew, token, bufferSize, buffer := some (List.replicate bufferSize 0) }

/-- Writes to a buffer from a position on, as far as the buffer goes. -/
def overwrite (start : Nat) (data buffer : Bytes) : Bytes :=
  buffer.mapIdx fun i x => if i < start then x else data.getD (i - start) x

def submit (d : DownloadCache α) (refusal : Option IoFault) (work : α) :
    Except Failure (DownloadCache α) :=
  (d.crew.submitOn refusal d.token work).map fun crew => { d with crew }

def pending (d : DownloadCache α) : Nat := d.crew.pending d.token

/-- Does a piece of work, which turns the buffer into another one; without a buffer it does
nothing. -/
def perform (d : DownloadCache α) (effect : Bytes → Bytes) : DownloadCache α :=
  { d with buffer := d.buffer.map effect }

def hasBuffer (d : DownloadCache α) (t : TokenId) : Bool :=
  d.buffer.isSome && t == d.token

def close (d : DownloadCache α) : DownloadCache α :=
  { d with crew := d.crew.closeToken d.token, buffer := none }

/-- Lets works go on until each is held up; `effect` is what a work does to the buffer. -/
def settle (fate : α → Option Ending) (effect : α → Bytes → Bytes) (d : DownloadCache α) :
    DownloadCache α × List (Ended α) × Log :=
  let (crew, ended, log) := d.crew.settle fate
  (ended.foldl (fun d e => d.perform (effect e.task)) { d with crew }, ended, log)

end DownloadCache

end QueryHost
