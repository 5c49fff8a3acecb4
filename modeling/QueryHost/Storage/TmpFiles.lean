import QueryHost.Act

/-!
# Temporary files

Each store has a directory for temporary files, emptied at the start. A store where that fails is
left out, and one at least has to remain. The paths of files are numbered, and go to the directories
by turns.
-/

namespace QueryHost

structure TmpFiles where
  stores : List Path
  directories : List Path := []
  /-- How many paths were given. -/
  turn : Nat := 0
  deriving DecidableEq, Repr

namespace TmpFiles

/-- Makes a directory new and empty. -/
def reset (d : Disk) (directory : Path) : Disk × Except IoFault Unit :=
  if d.isPresent directory then
    match d.removeTree directory with
    | .ok d => d.makeDirectories directory
    | .error e => (d, .error e)
  else d.makeDirectories directory

/-- Resets the directories of stores; gives those that can be used. -/
def resetAll : List Path → Act (List Path)
  | [] => return []
  | store :: rest => do
    let directory := store / "tmp"
    match ← Act.attempt (reset · directory) with
    | .ok () => return directory :: (← resetAll rest)
    | .error e =>
      Act.warn ("skip tmp dir " ++ directory.text ++ ": " ++ e.text)
      resetAll rest

def init (t : TmpFiles) : Act TmpFiles := do
  let usable ← resetAll t.stores
  if usable.isEmpty then Act.fail (.subsystem "tmp_file_mgr" "no usable tmp directories")
  Act.info ("using " ++ toString usable.length ++ " tmp directories")
  return { t with directories := usable }

/-- A path for a file of `owner` that no other call gives. -/
def newPath (t : TmpFiles) (owner : String) : TmpFiles × Except Failure Path :=
  match t.directories[t.turn % t.directories.length]? with
  | none => (t, .error .notInitialized)
  | some directory =>
    ({ t with turn := (t.turn + 1) % word64Count },
      .ok (directory / (owner ++ "_" ++ toString t.turn)))

end TmpFiles

end QueryHost
