import QueryHost.Disk.Tree
import QueryHost.Failure
import QueryHost.Host.Subsystem
import QueryHost.Log
import QueryHost.Memory.Accounts

/-!
# Actions

The parts of the host share one scene: the disk, the accounts of memory, the log, and what has
become of the subsystems. An action works on the scene and gives a result or fails; what it has done
to the scene by then stays done. Which kind of disk it is stays open, as long as an action does
nothing but what every `FileSystem` can do.
-/

namespace QueryHost

structure SceneOn (δ : Type) where
  disk : δ
  accounts : Accounts := {}
  log : Log := []
  /-- The adoptions and the shutdowns of subsystems, in order. -/
  lives : List LifeEvent := []

abbrev Scene := SceneOn Disk

instance : EmptyCollection Scene := ⟨{ disk := {} }⟩

abbrev ActOn (δ α : Type) := ExceptT Failure (StateM (SceneOn δ)) α

abbrev Act (α : Type) := ActOn Disk α

namespace Act

variable {δ α : Type}

def fail (f : Failure) : ActOn δ α := throw f

/-- Gives the result of a computation that leaves the scene alone. -/
def ofExcept : Except Failure α → ActOn δ α
  | .ok a => pure a
  | .error f => fail f

def report (lines : Log) : ActOn δ Unit :=
  modify fun s => { s with log := s.log ++ lines }

def info (message : String) : ActOn δ Unit := report [.info message]
def warn (message : String) : ActOn δ Unit := report [.warn message]

def disk : ActOn δ δ := return (← get).disk

def setDisk (d : δ) : ActOn δ Unit :=
  modify fun s => { s with disk := d }

/-- Changes the disk, or fails with the fault in its context. -/
def change (context : String) (f : δ → Except IoFault δ) : ActOn δ Unit := do
  match f (← disk) with
  | .ok d => setDisk d
  | .error e => fail (.io context e)

/-- Changes the disk as far as `f` gets, and gives what hindered it. -/
def attempt (f : δ → δ × Except IoFault Unit) : ActOn δ (Except IoFault Unit) := do
  let (d, r) := f (← disk)
  setDisk d
  return r

/-- Makes a directory and all above it. -/
def makeDirectories [FileSystem δ] (context : String) (p : Path) : ActOn δ Unit := do
  match ← attempt (FileSystem.makeDirectories · p) with
  | .ok () => pure ()
  | .error e => fail (.io context e)

def accounts : ActOn δ Accounts := return (← get).accounts

def setAccounts (a : Accounts) : ActOn δ Unit :=
  modify fun s => { s with accounts := a }

/-- Changes the accounts, with a result. -/
def book (f : Accounts → Accounts × α) : ActOn δ α := do
  let (a, r) := f (← accounts)
  setAccounts a
  return r

end Act

end QueryHost
