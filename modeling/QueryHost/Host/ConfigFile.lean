import QueryHost.Config
import QueryHost.Disk.Tree
import QueryHost.Text.Digits

/-!
# The file of the configuration

Where the configuration is read from, and what can be wrong with it.
-/

namespace QueryHost

/-- The variable that may name the file, and the file that is looked for without it. -/
def configVariable : String := "NOVAROCKS_ENV_CONFIG"
def usualConfigFile : Path := ⟨"novarocks_env.toml"⟩

/-- The file that was asked for, the one of the variable unless it is blank, or the usual one if it
is there. -/
def configPath? (asked named : Option String) (d : Disk) : Option Path :=
  match asked with
  | some p => some ⟨p⟩
  | none =>
    match named.filter fun v => !(trim v.toList).isEmpty with
    | some p => some ⟨p⟩
    | none => if d.isPresent usualConfigFile then some usualConfigFile else none

def noConfigText : String :=
  "missing config file: pass --config, set $NOVAROCKS_ENV_CONFIG or create ./novarocks_env.toml"

/-- A file cannot be read, or is no configuration. -/
inductive ConfigFault where
  | unreadable (path : Path) (fault : IoFault)
  | malformed (path : Path)
  deriving DecidableEq, Repr

namespace ConfigFault

def context : ConfigFault → String
  | unreadable p _ => "read config file: " ++ p.text
  | malformed p => "parse toml: " ++ p.text

def cause? : ConfigFault → Option IoFault
  | unreadable _ fault => some fault
  | malformed _ => none

def text (f : ConfigFault) : String :=
  f.context ++ ": " ++ match f.cause? with
    | some fault => fault.text
    | none => "TOML parse error"

end ConfigFault

namespace Config

def ofFile (d : Disk) (p : Path) : Except ConfigFault Config :=
  match d.readText p with
  | .error fault => .error (.unreadable p fault)
  | .ok text =>
    match ofToml? text with
    | some c => .ok c
    | none => .error (.malformed p)

end Config

end QueryHost
