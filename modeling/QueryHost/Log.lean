/-!
# Log lines

What the host reports while it works, in order. A line is shown from level `info` on.
-/

namespace QueryHost

inductive LogLevel where
  | error | warn | info | debug | trace
  deriving DecidableEq, Repr

namespace LogLevel

def letter : LogLevel → Char
  | error => 'E'
  | warn => 'W'
  | info => 'I'
  | debug => 'D'
  | trace => 'T'

/-- The lower, the more urgent. -/
def rank : LogLevel → Nat
  | error => 0
  | warn => 1
  | info => 2
  | debug => 3
  | trace => 4

/-- Whether a filter set to `threshold` lets the level through. -/
def passes (level threshold : LogLevel) : Bool :=
  level.rank ≤ threshold.rank

end LogLevel

structure LogLine where
  level : LogLevel
  message : String
  deriving DecidableEq, Repr

abbrev Log := List LogLine

namespace LogLine

def error (message : String) : LogLine := ⟨.error, message⟩
def warn (message : String) : LogLine := ⟨.warn, message⟩
def info (message : String) : LogLine := ⟨.info, message⟩

def text (l : LogLine) : String :=
  String.ofList [l.level.letter, ' '] ++ l.message

end LogLine

/-- The lines of a log that a filter set to `threshold` lets through. -/
def Log.shown (log : Log) (threshold : LogLevel) : Log :=
  log.filter (·.level.passes threshold)

end QueryHost
