import QueryHost.Host.CommandLine
import QueryHost.Host.ConfigFile
import QueryHost.Host.Environment
import QueryHost.LogFilter

/-!
# Running the host

From the arguments to a host that serves until it is interrupted, or to the code that the process
ends with. Log lines go to a file if that can be opened, and to the standard error otherwise.
-/

namespace QueryHost

/-- The variables of the process. -/
abbrev Variables := String → Option String

/-- The host's name as a target of log lines. -/
def logTarget : String := "novarocks_env"

def pidFile : Path := ⟨"novarocks_env.pid"⟩

/-- A variable without the blanks around it, if anything remains. -/
def filled (vars : Variables) (name : String) : Option String :=
  ((vars name).map trimText).filter fun v => !v.isEmpty

def logFile (vars : Variables) : Path :=
  match filled vars "NOVAROCKS_LOG_FILE" with
  | some p => ⟨p⟩
  | none =>
    match filled vars "NOVAROCKS_LOG_DIR" <|> filled vars "LOG_DIR" with
    | some directory => Path.mk directory / "novarocks_env.log"
    | none => Path.mk "log" / "novarocks_env.log"

/-- Opens the file of the log; without it, says why. -/
def openLogFile (d : Disk) (p : Path) : Disk × Except String Unit :=
  let fallback := ", fallback to stderr\n"
  let (d, made) : Disk × Except String Unit := match p.parent? with
    | some parent =>
      let (d, r) := d.makeDirectories parent
      (d, r.mapError fun (e : IoFault) =>
        "failed to create log directory " ++ parent.text ++ ": " ++ e.text ++ fallback)
    | none => (d, .ok ())
  match made with
  | .error text => (d, .error text)
  | .ok () =>
    match d.openLog p with
    | .ok d => (d, .ok ())
    | .error e => (d, .error ("failed to open log file " ++ p.text ++ ": " ++ e.text ++ fallback))

inductive Progress where
  | ended (code : Nat)
  | serving (environment : Environment)

structure Launch where
  /-- What was said on the standard error so far, log lines apart. -/
  said : String := ""
  /-- The file that takes the log lines. -/
  logFile : Option Path := none
  filter : LogFilter := []
  scene : Scene
  progress : Progress

namespace Launch

/-- The log lines that pass the filter. -/
def shown (l : Launch) : Log :=
  l.scene.log.filter fun line => l.filter.passes logTarget line.level

def report (l : Launch) (line : LogLine) : Launch :=
  { l with scene := { l.scene with log := l.scene.log ++ [line] } }

/-- Fatal failures have a code of their own. -/
def codeOf (f : Failure) : Nat := if f.isFatal then 255 else 1

def fail (l : Launch) (what : String) (f : Failure) : Launch :=
  { l.report (.error (what ++ ": " ++ f.message)) with progress := .ended (codeOf f) }

/-- The configuration to run with, and what is said when there is no file of it. -/
def chooseConfig (asked : Option String) (vars : Variables) (d : Disk) :
    Except ConfigFault (Config × String) :=
  match configPath? asked (vars configVariable) d with
  | some p => (Config.ofFile d p).map (·, "")
  | none => .ok ({}, "no config file found, using built-in defaults\n")

/-- Opens the log of a configuration. -/
def withLog (config : Config) (vars : Variables) (l : Launch) : Launch :=
  let file := QueryHost.logFile vars
  let (disk, opened) := openLogFile l.scene.disk file
  let l := { l with scene := { l.scene with disk }, filter := .read config.tracingFilter }
  match opened with
  | .ok () => { l with logFile := some file }
  | .error text => { l with said := l.said ++ text }

/-- Builds the host and serves. -/
def serve (m : Machine) (config : Config) (mem : MemInfo) (l : Launch) : Launch :=
  match (Environment.new config mem).init m config.storagePaths l.scene with
  | (_, scene, .error f) => { l with scene }.fail "exec env init failed" f
  | (environment, scene, .ok ()) =>
    let l := { l with scene, progress := .serving environment }
    let l := match scene.disk.write pidFile (toString m.process).toUTF8.toList with
      | .ok disk => { l with scene := { scene with disk } }
      | .error e => l.report (.error ("write pid file failed: " ++ e.text))
    l.report (.info ("novarocks-env started with " ++ toString environment.names.length
      ++ " subsystems, press Ctrl-C to stop"))

def run (m : Machine) (vars : Variables) (asked : Option String) (scene : Scene) : Launch :=
  match chooseConfig asked vars scene.disk with
  | .error f => { scene, said := "load config failed: " ++ f.text ++ "\n", progress := .ended 1 }
  | .ok (config, said) =>
    let l := withLog config vars { scene, said, progress := .ended 0 }
    match m.memory config.memory.memLimit with
    | .error f => l.fail "detect memory failed" f
    | .ok mem =>
      (l.report (.info ("memory: limit=" ++ toString mem.limit ++ " physical="
        ++ toString mem.physical))).serve m config mem

/-- The files that the configuration may be in. -/
def configFiles (vars : Variables) (arguments : List String) : List Path :=
  match Command.ofArguments arguments with
  | .say _ _ => []
  | .run asked => usualConfigFile :: (asked.toList ++ (vars configVariable).toList).map Path.mk

/-- The configuration that the host will run with, if it can be read. -/
def config? (vars : Variables) (arguments : List String) (d : Disk) : Option Config :=
  match Command.ofArguments arguments with
  | .say _ _ => none
  | .run asked => (chooseConfig asked vars d).toOption.map (·.1)

/-- Where a host with a configuration works without reading any file. -/
def workplaces (vars : Variables) (config : Config) : List Path :=
  [pidFile, QueryHost.logFile vars] ++ config.storagePaths.flatMap fun store =>
    ["tmp", "spill", "spill_gc", "error_log", "mini_download"].map (Path.mk store / ·)

/-- Where it reads files. -/
def sources (config : Config) : List Path :=
  [⟨config.load.smallFileDir⟩, ⟨config.load.cgroupsPath⟩]

def start (m : Machine) (vars : Variables) (arguments : List String) (d : Disk) : Launch :=
  match Command.ofArguments arguments with
  | .say code said => { scene := { disk := d }, said, progress := .ended code }
  | .run asked => run m vars asked { disk := d }

/-- What an interrupt does: a host that serves ends. -/
def interrupt (l : Launch) : Launch :=
  match l.progress with
  | .ended _ => l
  | .serving environment =>
    let l := l.report (.info "received interrupt signal, shutting down")
    let (_, scene) := environment.destroy [] l.scene
    let disk := match scene.disk.removeFile pidFile with
      | .ok d => d
      | .error _ => scene.disk
    { l with scene := { scene with disk }, progress := .ended 0 }

end Launch

end QueryHost
