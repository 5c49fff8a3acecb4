import QueryHost.Disk.Tree
import QueryHost.Failure
import QueryHost.Memory.Budget

/-!
# The machine

What the host learns from the system that it runs on.
-/

namespace QueryHost

structure Machine where
  /-- The system's account of its memory. -/
  memoryReport : Except IoFault String
  /-- How many file descriptors the process may open. -/
  descriptors : Except OsError Nat
  hostname : Option String
  process : Nat
  cores : Nat
  /-- The file of the running program. -/
  executable : Path
  refuses : ThreadRefusals := .none

namespace Machine

/-- The lines of a text, without what ends them. -/
def lines (text : String) : List String := (text.splitOn "\n").map fun l =>
  if l.endsWith "\r" then (l.dropEnd 1).toString else l

def memoryKey : String := "MemTotal:"

/-- The bytes of memory that a report tells, which counts in units of 1024 bytes or in bytes. -/
def totalMemory? (report : String) : Option Int := do
  let line ← (lines report).find? (·.startsWith memoryKey)
  match words (line.toList.drop memoryKey.length) with
  | [] => none
  | value :: rest =>
    let n ← readInt64 value
    let factor ← match rest.head?.map String.ofList with
      | some "kB" | some "KB" => some 1024
      | none => some 1
      | some _ => none
    let total := n * factor
    if int64Min ≤ total ∧ total ≤ int64Max then some total else none

def reportFile : String := "/proc/meminfo"

/-- The memory of the machine, and the limit of the process by its configuration. -/
def memory (m : Machine) (spec : String) : Except Failure MemInfo :=
  match m.memoryReport with
  | .error e => .error (.io ("read " ++ reportFile) e)
  | .ok report =>
    match totalMemory? report with
    | none => .error (.internal ("MemTotal not found in " ++ reportFile))
    | some physical => processLimit spec physical

/-- The number of the process that a status line begins with. -/
def processOf (status : String) : Nat :=
  match words status.toList with
  | n :: _ => (readDigits 10 decimalValue? n).getD 0
  | [] => 0

/-- How many files a report of limits says that the process may open. -/
def openFiles? (report : String) : Option Nat := do
  let title := "Max open files"
  let line ← (lines report).find? (·.startsWith title)
  readDigits 10 decimalValue? (← (words (line.toList.drop title.length)).head?)

end Machine

/-! ## Symbols -/

/-- Addresses can be turned into names of functions if the file of the running program is an ELF
image. -/
structure Symbols where
  file : Path
  isElf : Bool
  deriving DecidableEq, Repr

namespace Symbols

def elfMagic : Bytes := [0x7f, 0x45, 0x4c, 0x46]

/-- Looks at how a file begins. A file that is too short, or cannot be read, is no image. -/
def inspect (d : Disk) (p : Path) : Except Failure Symbols :=
  match d.openFile p with
  | .error e => .error (.io ("open " ++ p.text) e)
  | .ok (.ok content) => .ok ⟨p, content.take 4 == elfMagic⟩
  | .ok (.error _) => .ok ⟨p, false⟩

end Symbols

end QueryHost
