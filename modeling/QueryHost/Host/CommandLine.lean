/-!
# The command line

The arguments are an optional mode, which is a first word without a dash, and options. Help, a
missing value and an unknown word end the reading where they are met; whether the mode is a known
one is seen only after all options were accepted.
-/

namespace QueryHost

inductive Command where
  /-- Run, with the configuration file that was given last. -/
  | run (config : Option String)
  /-- Say something and end with a code. -/
  | say (code : Nat) (text : String)
  deriving DecidableEq, Repr

namespace Command

def usage : String := "Usage: novarocks-env [run] [--config <path>]\n"

def help : String :=
  usage ++ "  run      - Initialize the exec env and run in foreground (default)\n"

/-- Reads the options; `config` is the value of the last pair so far. -/
def options (mode : String) (config : Option String) : List String → Command
  | [] => if mode = "run" then .run config else .say 1 usage
  | word :: rest =>
    if word = "--config" ∨ word = "-c" then
      match rest with
      | [] => .say 1 "missing value for --config/-c\n"
      | value :: rest => options mode (some value) rest
    else if word = "--help" ∨ word = "-h" then .say 0 help
    else .say 1 ("unknown arg: " ++ word ++ " (try --help)\n")

def ofArguments : List String → Command
  | [] => options "run" none []
  | word :: rest =>
    if word.toList.head? = some '-' then options "run" none (word :: rest)
    else options word none rest

end Command

end QueryHost
