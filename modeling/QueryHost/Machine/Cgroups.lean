import QueryHost.Act
import QueryHost.Text.Digits

/-!
# Control groups

The host can put its threads into a control group of the system, given by a directory. A path that
is empty, missing or of another kind turns this off without harm.
-/

namespace QueryHost

structure Cgroups where
  path : String
  /-- The directory of the group, once it was found to be one. -/
  active : Option Path := none
  deriving DecidableEq, Repr

namespace Cgroups

def tasksIn (root : Path) : Path := root / "tasks"

def init (c : Cgroups) : Act Cgroups := do
  let root : Path := ⟨c.path⟩
  let d ← Act.disk
  if (trim c.path.toList).isEmpty then
    Act.info "cgroups disabled: no cgroup path configured"
    return c
  else if !d.isDirectory root then
    Act.warn ("cgroup path " ++ root.text ++ " does not exist, cgroups disabled")
    return c
  else if !d.isPresent (tasksIn root) then
    Act.warn (root.text ++ " is not a cgroup directory, cgroups disabled")
    return c
  else
    Act.info ("cgroups enabled at " ++ root.text)
    return { c with active := some root }

def isEnabled (c : Cgroups) : Bool := c.active.isSome

/-- Moves a thread into the group. -/
def assign (c : Cgroups) (thread : Int) : Act Unit :=
  match c.active with
  | none => pure ()
  | some root =>
    Act.change ("write " ++ (tasksIn root).text)
      (·.write (tasksIn root) (toString thread ++ "\n").toUTF8.toList)

/-- A word without a sign, but for a plus. -/
def readWord64 (cs : List Char) : Option Nat :=
  if cs.head? == some '-' then none
  else ((readInt cs).map Int.toNat).filter (· ≤ word64Max)

/-- The group's share of processor time. -/
def shares (c : Cgroups) (d : Disk) : Option Nat := do
  let root ← c.active
  let text ← (d.readText (root / "cpu.shares")).toOption
  readWord64 (trim text.toList)

end Cgroups

end QueryHost
