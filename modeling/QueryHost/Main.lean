import QueryHost.Disk.Layout
import QueryHost.Host.Launch
import Std.Async.Signal
import Std.Async.System
import Std.Time

/-!
# The program

Shows the host the part of the disk that it works on, does on the disk what the host has done, and
waits for an interrupt while it serves.
-/

namespace QueryHost.Program

open Std.Async

/-- A path of the disk, for the functions that read and write files. -/
def located (p : Path) := return (← IO.currentDir) / p.text

/-- Adds what there is at a path and below it, with or without the content of the files. What cannot
be read is not there. -/
partial def load (withContent : Bool) (d : Disk) (p : Path) : IO Disk := do
  let file ← located p
  try
    if ← file.isDir then
      let d := (d.deposit p .directory).1
      (← file.readDir).foldlM (fun d e => load withContent d (p / e.fileName)) d
    else if ← file.pathExists then
      let content ← if withContent then IO.FS.readBinFile file else pure .empty
      return (d.deposit p (.file content.toList)).1
    else return d
  catch _ => return d

/-- Adds also what there is on the way to a path. -/
def survey (withContent : Bool) (d : Disk) (p : Path) : IO Disk := do
  let mut d := d
  if p.text.isEmpty then return d
  for above in p.ancestors.tail do
    let file ← located above
    if ← file.isDir then d := (d.deposit above .directory).1
    else if ← file.pathExists then d := (d.deposit above (.file [])).1
  load withContent d p

def realize (c : Change) : IO Unit := do
  let path (place : Place) := located ⟨"/" ++ "/".intercalate place⟩
  match c with
  | .remove place .directory => IO.FS.removeDir (← path place)
  | .remove place (.file _) => IO.FS.removeFile (← path place)
  | .put place .directory => IO.FS.createDirAll (← path place)
  | .put place (.file content) => IO.FS.writeBinFile (← path place) ⟨content.toArray⟩

/-- Writes log lines to the file that was opened for them, or to the standard error. -/
def write (l : Launch) (lines : Log) : IO Unit := do
  let stamp := (← Std.Time.PlainDateTime.now).format "uuuuMMdd HH:mm:ss.SSSSSS"
  let text := String.join (lines.map fun line =>
    String.ofList [line.level.letter] ++ stamp ++ " 1 " ++ logTarget ++ "] " ++ line.message
      ++ "\n")
  match l.logFile with
  | some p => (← IO.FS.Handle.mk (← located p) .append).putStr text
  | none => (← IO.getStderr).putStr text

/-- Does what a step of the host has done. -/
def carryOut (before after : Launch) : IO Unit := do
  (before.scene.disk.changes after.scene.disk).forM realize
  (← IO.getStderr).putStr (String.ofList (after.said.toList.drop before.said.length))
  write after (after.shown.drop before.shown.length)

/-- What a file of the system says. -/
def report (name : String) : IO (Except IoFault String) := do
  try return .ok (← IO.FS.readFile name)
  catch e => return .error (.other (toString e))

def machine : IO Machine := do
  let limits := (← report "/proc/self/limits").toOption
  return {
    memoryReport := ← report Machine.reportFile
    descriptors := match limits.bind Machine.openFiles? with
      | some n => .ok n
      | none => .error .notFound
    hostname := ← IO.getEnv "HOSTNAME"
    process := Machine.processOf ((← report "/proc/self/stat").toOption.getD "")
    cores := max 1 (← System.getCPUInfo).size
    executable := ⟨(← IO.appPath).toString⟩ }

def readVariables : IO Variables := do
  let names := ["NOVAROCKS_LOG_FILE", "NOVAROCKS_LOG_DIR", "LOG_DIR", configVariable]
  let values ← names.mapM fun n => return (n, ← IO.getEnv n)
  return fun n => (values.lookup n).join

/-- The disk with the directory of the process and the beginning of the running program. -/
def start (m : Machine) : IO Disk := do
  let here : Path := ⟨(← IO.currentDir).toString⟩
  let d := (Disk.deposit { workplace := here.names } here .directory).1
  let magic ← (← IO.FS.Handle.mk (← located m.executable) .read).read 4
  return (d.deposit m.executable (.file magic.toList)).1

def run (arguments : List String) : IO UInt32 := do
  let (m, vars) := (← machine, ← readVariables)
  let mut d ← (Launch.configFiles vars arguments).foldlM (survey true) (← start m)
  if let some config := Launch.config? vars arguments d then
    d ← (Launch.workplaces vars config).foldlM (survey false) d
    d ← (Launch.sources config).foldlM (survey true) d
  let up := Launch.start m vars arguments d
  carryOut { scene := { disk := d }, progress := .ended 0 } up
  match up.progress with
  | .ended code => return code.toUInt32
  | .serving _ =>
    let _ ← (← (← Signal.Waiter.mk .sigint false).wait).block
    carryOut up up.interrupt
    return 0

end QueryHost.Program

def main (arguments : List String) : IO UInt32 := QueryHost.Program.run arguments
