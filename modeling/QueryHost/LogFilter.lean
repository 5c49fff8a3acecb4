import QueryHost.Log
import QueryHost.Text.Digits

/-!
# Filters of log lines

A filter is a list of directives between commas: a level for everything, a level for the lines of
one target, or a target alone, of which everything passes. Of the directives that apply to a target
the one that names the longest part of it counts; a target to which none applies is silent. An empty
filter lets errors through.
-/

namespace QueryHost

/-- The most that passes; none lets nothing through. -/
abbrev Threshold := Option LogLevel

structure FilterDirective where
  /-- What the names of the targets begin with. -/
  target : String
  threshold : Threshold
  deriving DecidableEq, Repr

abbrev LogFilter := List FilterDirective

namespace LogFilter

def thresholds : List (String × Threshold) :=
  [("off", none), ("error", some .error), ("warn", some .warn), ("info", some .info),
    ("debug", some .debug), ("trace", some .trace),
    ("0", none), ("1", some .error), ("2", some .warn), ("3", some .info), ("4", some .debug),
    ("5", some .trace)]

def threshold? (cs : List Char) : Option Threshold :=
  thresholds.lookup (String.ofList (cs.map Char.toLower))

/-- The directive of a text; a level that is none is no directive, and one that is missing lets
everything through. -/
def directive? (cs : List Char) : Option FilterDirective :=
  let target := cs.takeWhile (· != '=')
  match cs.dropWhile (· != '=') with
  | [] =>
    match threshold? target with
    | some t => some ⟨"", t⟩
    | none => some ⟨String.ofList target, some .trace⟩
  | _ :: [] => some ⟨String.ofList target, some .trace⟩
  | _ :: level => (threshold? level).map (⟨String.ofList target, ·⟩)

def read (text : String) : LogFilter :=
  let parts := (text.splitOn ",").map (fun p => trim p.toList) |>.filter fun p => !p.isEmpty
  match parts.filterMap directive? with
  | [] => [⟨"", some .error⟩]
  | ds => ds

/-- Whether a line of a level passes that belongs to a target. -/
def passes (f : LogFilter) (target : String) (level : LogLevel) : Bool :=
  let best := (f.filter fun d => d.target.toList.isPrefixOf target.toList).foldl
    (fun (b : Option FilterDirective) d => match b with
      | some x => if x.target.length ≤ d.target.length then some d else b
      | none => some d) none
  match best.bind (·.threshold) with
  | some threshold => level.passes threshold
  | none => false

end LogFilter

end QueryHost
