import QueryHost.Cache.Page
import QueryHost.Cluster.Brokers
import QueryHost.Load.Streams
import QueryHost.Memory.Tracker
import QueryHost.Threads.Gates
import QueryHost.Threads.Scanner
import QueryHost.Wire.Encode

/-!
# Reading values

What a value of a message means for the host. A value of another shape means nothing.
-/

namespace QueryHost.Wire

class Decode (α : Type) where
  decode : Value → Option α

export Decode (decode)

instance : Decode Value := ⟨some⟩

instance : Decode Bool :=
  ⟨fun
    | .flag b => some b
    | _ => none⟩

instance : Decode Int :=
  ⟨fun
    | .number n => some n
    | _ => none⟩

instance : Decode Nat :=
  ⟨fun
    | .number (.ofNat n) => some n
    | _ => none⟩

instance : Decode String :=
  ⟨fun
    | .text s => some s
    | _ => none⟩

instance {α : Type} [Decode α] : Decode (Option α) :=
  ⟨fun
    | .null => some none
    | v => (decode v).map some⟩

instance {α : Type} [Decode α] : Decode (List α) :=
  ⟨fun
    | .list l => l.mapM decode
    | _ => none⟩

instance {α β : Type} [Decode α] [Decode β] : Decode (α × β) :=
  ⟨fun
    | .list [a, b] => do return (← decode a, ← decode b)
    | _ => none⟩

instance : Decode UniqueId := ⟨fun v => (decode v).map fun (hi, lo) => ⟨hi, lo⟩⟩
instance : Decode Path := ⟨fun v => (decode v).map Path.mk⟩
instance : Decode Address := ⟨fun v => (decode v).map fun (host, port) => ⟨host, port⟩⟩

/-! ## Failures -/

/-- A failure from the names of its fields and the failure inside. A number of the system tells what
went wrong, or else a text. -/
def failureOf (fs : Fields) (inner : Option Failure) : Option Failure :=
  let text (name : String) : String := ((fs.lookup name).bind decode).getD ""
  let (kind, name, message) := (text "kind", text "name", text "message")
  let number : Nat := ((fs.lookup "errno").bind decode).getD 0
  let plain := [.internal message, .unavailable message, .invalidConfig name message,
    .subsystem name message, .io name (.system ⟨number⟩), .notInitialized, .alreadyDestroyed]
  if kind = "IoOther" then some (.io name (.other message))
  else plain.find? (kindName · == kind) <|> inner.map .fatal

mutual

def failure? : Value → Option Failure
  | .record fs => failureOf fs (innerFailure? fs)
  | _ => none

/-- The failure of the field `inner`. -/
def innerFailure? : Fields → Option Failure
  | [] => none
  | (name, v) :: rest => if name == "inner" then failure? v else innerFailure? rest

end

instance : Decode Failure := ⟨failure?⟩

/-! ## Kinds -/

/-- A kind is told by a word. -/
@[reducible] def Decode.ofWords {α : Type} (kinds : List (String × α)) : Decode α :=
  ⟨fun
    | .text s => kinds.lookup s
    | _ => none⟩

instance : Decode PageType := .ofWords [("data", .data), ("index", .index)]
instance : Decode ScanKind := .ofWords [("local", .local), ("remote", .remote)]
instance : Decode LogLevel := .ofWords
  [("error", .error), ("warn", .warn), ("info", .info), ("debug", .debug), ("trace", .trace)]
instance : Decode TrackerKind := .ofWords
  ([.global, .query, .load, .compaction, .other].map fun k => (k.text, k))
instance : Decode LoadStatus := .ofWords
  ([.pending, .running, .committed, .aborted].map fun s => (s.text, s))
instance : Decode Conduct := .ofWords
  [("instant", .ordinary), ("gated", .gated), ("panic", .panicking)]

end QueryHost.Wire
