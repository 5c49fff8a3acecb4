import QueryHost.Act
import QueryHost.Word

/-!
# Directories of loads

Each store has a directory for what loads download, and the first store one for the rows that they
reject. Loads get directories in the stores by turns.
-/

namespace QueryHost

structure LoadPaths where
  stores : List Path
  /-- How often a directory was asked for. -/
  turn : Nat := 0
  deriving DecidableEq, Repr

namespace LoadPaths

def rootIn (store : Path) : Path := store / "mini_download"

def roots (l : LoadPaths) : List Path := l.stores.map rootIn

def errorLog? (l : LoadPaths) : Option Path := l.stores.head?.map (· / "error_log")

def create (directory : Path) : Act Unit :=
  Act.makeDirectories ("create load dir " ++ directory.text) directory

def init (l : LoadPaths) : Act Unit := do
  (l.roots ++ l.errorLog?.toList).forM create
  Act.info ("load path manager prepared " ++ toString l.stores.length ++ " store paths")

/-- The directory of a load, made in the store whose turn it is. The turn passes on even when the
directory cannot be made. -/
def allocate (l : LoadPaths) (database label : String) : LoadPaths × Act Path :=
  match l.stores[l.turn % l.stores.length]? with
  | none => (l, Act.fail (.subsystem "load_path_mgr" "no store paths configured"))
  | some store =>
    let directory := rootIn store / database / label
    ({ l with turn := (l.turn + 1) % word64Count }, do
      create directory
      return directory)

end LoadPaths

end QueryHost
