import QueryHost.Assoc
import QueryHost.Decimal.Shortest
import QueryHost.Failure
import QueryHost.Log
import QueryHost.Text.Printable

/-!
# Metrics

Counters and gauges by name. A gauge has a source that is read when the metrics are gathered; a
counter counts in a cell of its own, which it keeps when it is deregistered.

The metrics are registered with a library. What it says of names and help texts is a parameter
(`MetricLibrary`); besides, it is assumed that it never forgets the help text that a name had first
and takes no other one for the name (`Metrics.helps`), and that it gathers the metrics in the order
of their names.
-/

namespace QueryHost

abbrev CounterId := Nat

inductive MetricSource (σ : Type) where
  | gauge (source : σ)
  | counter (id : CounterId)
  deriving DecidableEq, Repr

structure Metric (σ : Type) where
  help : String
  source : MetricSource σ
  deriving DecidableEq, Repr

/-- What a library says of metrics that it does not take. -/
structure MetricLibrary where
  /-- What is wrong with a name and its help text by themselves. -/
  describe? : String → String → Option String
  /-- What is said of a name that had another help text before. -/
  conflict : String → String → String

namespace MetricLibrary

def isNameStart (c : Char) : Bool := c.isAlpha || c == '_' || c == ':'

def isMetricName (name : String) : Bool :=
  match name.toList with
  | [] => false
  | c :: cs => isNameStart c && cs.all fun c => isNameStart c || c.isDigit

/-- The library `prometheus`. Hashes of its descriptions are shown as the letter N. -/
def prometheus : MetricLibrary where
  describe? name help :=
    if help.isEmpty then some "Error: empty help string"
    else if !isMetricName name then some ("Error: '" ++ name ++ "' is not a valid metric name")
    else none
  conflict name help :=
    "Error: a previously registered descriptor with the same fully-qualified name as Desc \x7b"
      ++ " fq_name: " ++ quoted name ++ ", help: " ++ quoted help
      ++ ", const_label_pairs: [], variable_labels: [], id: N, dim_hash: N \x7d"
      ++ " has different label names or a different help string"

end MetricLibrary

structure Metrics (σ : Type) where
  library : MetricLibrary := .prometheus
  counters : List Nat := []
  registered : Assoc String (Metric σ) := {}
  /-- The help text of every name that was ever registered. -/
  helps : Assoc String String := {}

namespace Metrics

variable {σ : Type}

def register (m : Metrics σ) (name help : String) (source : MetricSource σ) :
    Except Failure (Metrics σ) :=
  match m.library.describe? name help with
  | some fault => .error (.internal ("create metric " ++ name ++ ": " ++ fault))
  | none =>
    if m.registered.contains name then
      .error (.internal ("metric " ++ name ++ " already registered"))
    else if (m.helps.get? name).any (· != help) then
      .error (.internal ("register metric " ++ name ++ ": " ++ m.library.conflict name help))
    else
      .ok { m with
        registered := m.registered.put name ⟨help, source⟩
        helps := m.helps.put name help }

def registerGauge (m : Metrics σ) (name help : String) (source : σ) : Except Failure (Metrics σ) :=
  m.register name help (.gauge source)

def registerCounter (m : Metrics σ) (name help : String) :
    Except Failure (Metrics σ × CounterId) := do
  let id := m.counters.length
  let m ← m.register name help (.counter id)
  return ({ m with counters := m.counters ++ [0] }, id)

/-- Counts on; a counter is an unsigned word. -/
def increase (m : Metrics σ) (id : CounterId) (by' : Nat) : Metrics σ :=
  { m with counters := m.counters.modify id fun n => (n + by') % word64Count }

def counterValue (m : Metrics σ) (id : CounterId) : Nat := m.counters.getD id 0

def deregister (m : Metrics σ) (name : String) : Metrics σ × Bool :=
  ({ m with registered := m.registered.erase name }, m.registered.contains name)

def deregisterAll (m : Metrics σ) : Metrics σ := { m with registered := {} }

/-- What is said when all metrics are deregistered. -/
def deregistrationLog (m : Metrics σ) : Log :=
  if m.registered.isEmpty then []
  else [⟨.debug, "deregistered " ++ toString m.registered.size ++ " metrics"⟩]

/-- The names in order. -/
def names (m : Metrics σ) : List String :=
  m.registered.keys.mergeSort fun a b => a ≤ b

/-- A help text on one line. -/
def helpText (help : String) : String :=
  String.ofList (help.toList.flatMap fun c =>
    if c = '\\' then ['\\', '\\'] else if c = '\n' then ['\\', 'n'] else [c])

def metricText (m : Metrics σ) (read : σ → Int) (name : String) (metric : Metric σ) : String :=
  let (type, value) : String × Int := match metric.source with
    | .gauge s => ("gauge", read s)
    | .counter id => ("counter", m.counterValue id)
  "# HELP " ++ name ++ " " ++ helpText metric.help ++ "\n# TYPE " ++ name ++ " " ++ type ++ "\n"
    ++ name ++ " " ++ binary64Text value ++ "\n"

/-- Every registered metric in the text form of scraping, in the order of names. -/
def gather (m : Metrics σ) (read : σ → Int) : String :=
  String.join (m.names.filterMap fun name =>
    (m.registered.get? name).map (m.metricText read name))

end Metrics

end QueryHost
