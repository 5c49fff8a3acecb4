import QueryHost.Cache.Lru
import QueryHost.Cluster.Brokers
import QueryHost.Disk.Path
import QueryHost.Log
import QueryHost.Memory.Budget
import QueryHost.Query.ResultBuffers
import QueryHost.Toml.Value

/-!
# Messages

What a host is asked and what it answers is made of values. A record has its fields by name; a field
that it does not have counts as null. How what the host deals with is put into messages. A tuple is
a list of its elements, or, under names, a record.
-/

namespace QueryHost.Wire

inductive Value where
  | null
  | flag (b : Bool)
  | number (n : Int)
  | text (s : String)
  | list (items : List Value)
  | record (fields : List (String × Value))
  deriving Inhabited, BEq, Repr

abbrev Fields := List (String × Value)

namespace Value

def fields : Value → Fields
  | record fs => fs
  | _ => []

def field (v : Value) (name : String) : Value := (v.fields.lookup name).getD null

/-- The fields of two records; where both have one of a name, the second counts. -/
def merge (v w : Value) : Value :=
  record ((v.fields.filter fun f => !w.fields.any fun g => g.1 == f.1) ++ w.fields)

end Value

/-! ## Values of the host's types -/

class Encode (α : Type) where
  encode : α → Value

export Encode (encode)

instance : Encode Value := ⟨id⟩
instance : Encode Unit := ⟨fun _ => .null⟩
instance : Encode Bool := ⟨.flag⟩
instance : Encode Int := ⟨.number⟩
instance : Encode Nat := ⟨fun n => .number n⟩
instance : Encode String := ⟨.text⟩

instance {α : Type} [Encode α] : Encode (Option α) :=
  ⟨fun
    | some a => encode a
    | none => .null⟩

instance {α : Type} [Encode α] : Encode (List α) := ⟨fun l => .list (l.map encode)⟩

/-! ## Tuples -/

class Row (α : Type) where
  row : α → List Value

instance (priority := low) {α : Type} [Encode α] : Row α := ⟨fun a => [encode a]⟩

instance {α β : Type} [Encode α] [Row β] : Row (α × β) :=
  ⟨fun (a, b) => encode a :: Row.row b⟩

/-- The elements of a tuple as a list. -/
def row {α : Type} [Row α] (a : α) : Value := .list (Row.row a)

/-- The elements of a tuple, each with one of the names, which stand between blanks. -/
def fields {α : Type} [Row α] (names : String) (a : α) : Fields :=
  (names.splitOn " ").zip (Row.row a)

def record {α : Type} [Row α] (names : String) (a : α) : Value := .record (fields names a)

/-! ## Failures -/

/-- The kind of a failure, as messages name it. -/
def kindName : Failure → String
  | .internal _ => "InternalError"
  | .invalidConfig _ _ => "InvalidConfig"
  | .subsystem _ _ => "SubsystemInit"
  | .io _ _ => "Io"
  | .notInitialized => "NotInitialized"
  | .alreadyDestroyed => "AlreadyDestroyed"
  | .unavailable _ => "ServiceUnavailable"
  | .fatal _ => "Fatal"

instance : Encode Failure := ⟨fun f => record "error message" (kindName f, f.message)⟩

/-- What has succeeded with nothing to tell is answered all the same. -/
instance : Encode (Except Failure Unit) :=
  ⟨fun
    | .ok () => .text "ok"
    | .error f => encode f⟩

instance (priority := low) {α : Type} [Encode α] : Encode (Except Failure α) :=
  ⟨fun
    | .ok a => encode a
    | .error f => encode f⟩

/-! ## Types of the host -/

instance : Encode UniqueId := ⟨fun id => row (id.hi, id.lo)⟩
instance : Encode CacheStats := ⟨fun s => row (s.entries, s.usage, s.capacity)⟩
instance : Encode Budget := ⟨fun b => record "bytes is_percent" (b.bytes, b.isPercent)⟩
instance : Encode Address := ⟨fun a => row (a.host, a.port)⟩
instance : Encode Path := ⟨fun p => encode p.text⟩

/-- The lines of level info and above. -/
instance (priority := high) : Encode Log := ⟨fun l => encode ((l.shown .info).map (·.text))⟩

/-- Up to 64 bytes are shown, and more of them are told by their length and their digest. -/
instance (priority := high) : Encode Bytes := ⟨fun b =>
  if b.length ≤ 64 then encode (hexBytes b) else record "len md5" (b.length, md5Hex b)⟩

instance : Encode Packet := ⟨fun p => row (p.number, p.batch)⟩

/-! ## Documents -/

mutual

/-- The value of a document's value. Messages have no dates and no broken numbers. -/
def ofDocument : Toml.Value → Value
  | .text s => .text s
  | .integer n => .number n
  | .boolean b => .flag b
  | .array items => .list (ofItems items)
  | .table _ entries => .record (ofEntries entries)
  | .tables items => .list (ofTables items)
  | .float | .moment => .null

def ofItems : List Toml.Value → List Value
  | [] => []
  | v :: rest => ofDocument v :: ofItems rest

def ofEntries : List (String × Toml.Value) → Fields
  | [] => []
  | (key, v) :: rest => (key, ofDocument v) :: ofEntries rest

def ofTables : List (List (String × Toml.Value)) → List Value
  | [] => []
  | entries :: rest => .record (ofEntries entries) :: ofTables rest

end

end QueryHost.Wire
