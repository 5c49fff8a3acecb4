import QueryHost.Config
import QueryHost.Threads.Rest

/-!
# Scanners

Scans of local and of remote data have a pool each, built at the same time. Nothing can be submitted
before that.
-/

namespace QueryHost

inductive ScanKind where
  | local | remote
  deriving DecidableEq, Repr

structure ScanPools (α : Type) where
  onDisk : Crew α
  remote : Crew α
  deriving Repr

structure Scanner (α : Type) where
  settings : ThreadSettings
  pools : Option (ScanPools α) := none
  deriving Repr

namespace ScanPools

variable {α : Type}

def get (p : ScanPools α) : ScanKind → Crew α
  | .local => p.onDisk
  | .remote => p.remote

def set (p : ScanPools α) (kind : ScanKind) (c : Crew α) : ScanPools α :=
  match kind with
  | .local => { p with onDisk := c }
  | .remote => { p with remote := c }

end ScanPools

namespace Scanner

variable {α : Type}

def shapeOf (t : ThreadSettings) : ScanKind → PoolShape
  | .local => ⟨"local_scan", t.scannerThreads, t.scannerThreads, t.scannerQueue⟩
  | .remote => ⟨"remote_scan", 1, t.remoteScannerThreads, t.scannerQueue⟩

/-- What is said when both pools are there. -/
def readyLine (t : ThreadSettings) : LogLine :=
  .info ("scanner scheduler initialized: local_threads=" ++ toString t.scannerThreads
    ++ " remote_threads=" ++ toString t.remoteScannerThreads
    ++ " queue=" ++ toString t.scannerQueue)

/-- Builds the pools. Once they are there, this changes nothing. -/
def init (s : Scanner α) (refuses : ThreadRefusals) : Except Failure (Scanner α) × Log :=
  match s.pools with
  | some _ => (.ok s, [])
  | none =>
    let near := shapeOf s.settings .local
    let far := shapeOf s.settings .remote
    match Crew.build refuses near with
    | .error f => (.error f, [])
    | .ok onDisk =>
      match Crew.build refuses far with
      | .error f => (.error f, ThreadPool.buildLog near)
      | .ok remote => (.ok { s with pools := some ⟨onDisk, remote⟩ },
          ThreadPool.buildLog near ++ ThreadPool.buildLog far ++ [readyLine s.settings])

def submit (s : Scanner α) (refusal : Option IoFault) (kind : ScanKind) (task : α) :
    Except Failure (Scanner α) :=
  match s.pools with
  | none => .error .notInitialized
  | some p =>
    ((p.get kind).submit refusal task).map fun c => { s with pools := some (p.set kind c) }

/-- How many scans of a kind are queued. -/
def depth (s : Scanner α) (kind : ScanKind) : Nat :=
  match s.pools with
  | none => 0
  | some p => (p.get kind).pool.queue.length

/-- Changes the pool of a kind if it is there. -/
def onPool (s : Scanner α) (kind : ScanKind) (f : Crew α → Crew α) : Scanner α :=
  { s with pools := s.pools.map fun p => p.set kind (f (p.get kind)) }

/-- Lets the scans of a kind go on until each is held up. -/
def settle (fate : α → Option Ending) (s : Scanner α) (kind : ScanKind) :
    Scanner α × List (Ended α) × Log :=
  match s.pools with
  | none => (s, [], [])
  | some p =>
    let (crew, ended, log) := (p.get kind).settle fate
    ({ s with pools := some (p.set kind crew) }, ended, log)

/-- The same for both kinds; gives what has ended with its kind. -/
def settleAll (fate : α → Option Ending) (s : Scanner α) :
    Scanner α × List (ScanKind × Ended α) × Log :=
  let (s, near, log) := s.settle fate .local
  let (s, far, more) := s.settle fate .remote
  (s, near.map (.local, ·) ++ far.map (.remote, ·), log ++ more)

/-- The scans of a kind that are being executed. -/
def executing (s : Scanner α) (kind : ScanKind) : List α :=
  match s.pools with
  | none => []
  | some p => (p.get kind).executing

def shutDown (s : Scanner α) : Scanner α :=
  (s.onPool .local Crew.shutDown).onPool .remote Crew.shutDown

/-- Shuts the pools down and waits until their workers have left. -/
def stop (s : Scanner α) : Scanner α := (s.onPool .local Crew.stop).onPool .remote Crew.stop

end Scanner

end QueryHost
