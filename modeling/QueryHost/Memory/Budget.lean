import QueryHost.Decimal.Numeral
import QueryHost.Decimal.Shortest
import QueryHost.Failure
import QueryHost.Log
import QueryHost.OsError
import QueryHost.Text.Digits

/-!
# Memory budgets

A budget is written as a number with a unit: bytes (`b` or nothing), binary multiples of bytes
(`k`, `m`, `g`, `t`), or a percentage of physical memory (`%`). Bytes are a whole number, and `-1`
stands for no budget; the other units take a decimal numeral. `resolveBudget` reads such a text,
`pageCacheBudget` and `chunkReserve` are the two budgets with a rule of their own.
-/

namespace QueryHost

/-- The memory of the process and of the machine, in bytes. -/
structure MemInfo where
  limit : Int
  physical : Int
  deriving DecidableEq, Repr

structure Budget where
  bytes : Int
  isPercent : Bool
  deriving DecidableEq, Repr

inductive BudgetUnit where
  | byte
  /-- Multiples of `2 ^ shift` bytes. -/
  | scaled (shift : Nat)
  | percent
  deriving DecidableEq, Repr

/-- The unit of a text by its last character, and the number before it. A character that is neither
an ASCII letter nor `%` is part of the number. -/
def splitUnit (cs : List Char) : Option (List Char × BudgetUnit) :=
  match cs.getLast? with
  | none => some (cs, .byte)
  | some c =>
    if c = '%' then some (cs.dropLast, .percent)
    else if !c.isAlpha then some (cs, .byte)
    else match c.toLower with
      | 'b' => some (cs.dropLast, .byte)
      | 'k' => some (cs.dropLast, .scaled 10)
      | 'm' => some (cs.dropLast, .scaled 20)
      | 'g' => some (cs.dropLast, .scaled 30)
      | 't' => some (cs.dropLast, .scaled 40)
      | _ => none

/-- A whole number of bytes, `-1` standing for none. -/
def wholeBytes (cs : List Char) : Option Int :=
  (readInt64 cs).bind fun v => if v = -1 then some 0 else if v < 0 then none else some v

/-- A magnitude in whole bytes, below `2 ^ 63`. -/
def Binary64.bytes? (m : Binary64) : Option Int :=
  if m.floor < 9223372036854775808 then some m.floor else none

/-- `value` hundredths of physical memory: the quotient by a hundred and the product are rounded to
binary64 one after the other, and the bytes are truncated. -/
def percentOf (value : Binary64) (physical : Int) : Option Int :=
  let product := do
    let share ← value.divNat 100
    let whole ← Binary64.ofNat physical.natAbs
    share.mul whole
  if 0 ≤ physical then product.bind Binary64.bytes?
  else match product with
    | some m => some (max (-(m.floor : Int)) int64Min)
    | none => some int64Min

def scaledBytes (value : Binary64) (shift : Nat) : Option Int := do
  let product ← value.mul ⟨Nat.pow 2 shift * Binary64.unit⟩
  product.bytes?

/-- The bytes of a number in a unit. -/
def unitBytes (cs : List Char) (physical : Int) : BudgetUnit → Option Int
  | .byte => wholeBytes (trim cs)
  | .scaled shift => do scaledBytes (← (← Numeral.read? (trim cs)).magnitude?) shift
  | .percent => do percentOf (← (← Numeral.read? (trim cs)).magnitude?) physical

/-- The budget that a trimmed text stands for. The empty text is no budget. -/
def budgetOf? (cs : List Char) (physical : Int) : Option Budget :=
  if cs.isEmpty then some ⟨0, false⟩
  else do
    let (number, u) ← splitUnit cs
    let bytes ← unitBytes number physical u
    some ⟨bytes, u == .percent⟩

def resolveBudget (name spec : String) (mem : MemInfo) : Except Failure Budget :=
  let cs := trim spec.toList
  match budgetOf? cs mem.physical with
  | some b => .ok b
  | none => .error (.invalidConfig name ("invalid memory spec '" ++ String.ofList cs ++ "'"))

/-- Halves a number of bytes until it is at most `bound`. The test of `0 < bytes` is for a bound
below zero, which no halving gets to: `halveTo` ends there, at a number that is not positive. For
any other bound the test changes nothing. -/
def halveTo (bound : Int) (bytes : Int) : Int :=
  if bound < bytes ∧ 0 < bytes then halveTo bound (bytes / 2) else bytes
termination_by bytes.toNat
decreasing_by omega

/-- The page cache may take a percentage as it is, and an absolute amount only up to half of the
process limit. -/
def pageCacheBudget (spec : String) (mem : MemInfo) : Except Failure Budget := do
  let b ← resolveBudget "storage_page_cache_limit" spec mem
  return if b.isPercent then b else { b with bytes := halveTo (mem.limit.tdiv 2) b.bytes }

/-- Whether the value is a power of two that a signed word of 64 bits holds: less one, it has none
of its bits left. -/
def isPowerOfTwo (value : Int) : Bool :=
  0 < value && (BitVec.ofInt 64 value &&& BitVec.ofInt 64 (value - 1)) == 0#64

def checkPowerOfTwo (name : String) (value : Int) : Except Failure Unit :=
  if isPowerOfTwo value then .ok ()
  else .error (.internal ("Config " ++ name ++ " must be a power-of-two: " ++ toString value))

/-- The largest multiple of `factor`, a power of two, that is at most `value`: the word of 64 bits
without the bits below the factor. -/
def roundDown (value factor : Int) : Int :=
  (BitVec.ofInt 64 value &&& ~~~BitVec.ofInt 64 (factor - 1)).toInt

/-- How many bytes the chunk allocator may keep for reuse: a whole number of smallest chunks. -/
def chunkReserve (spec : String) (minChunk : Int) (mem : MemInfo) : Except Failure Int := do
  checkPowerOfTwo "min_chunk_reserved_bytes" minChunk
  let b ← resolveBudget "chunk_reserved_bytes_limit" spec mem
  return roundDown b.bytes minChunk

/-- A configured limit of the process; none, or one past physical memory, is physical memory. -/
def processLimit (spec : String) (physical : Int) : Except Failure MemInfo := do
  let b ← resolveBudget "mem_limit" spec ⟨physical, physical⟩
  let limit := if b.bytes ≤ 0 ∨ physical < b.bytes then physical else b.bytes
  return ⟨limit, physical⟩

/-- What the log says of a budget that was resolved. -/
def budgetLine (what : String) (bytes : Int) (spec : String) : LogLine :=
  .info (what ++ " memory limit: " ++ toString bytes ++ " bytes (" ++ gigabytesText bytes
    ++ " GB), origin config value: " ++ spec)

/-- Both sizes that the allocators take as powers of two. -/
def checkAllocationSizes (minBuffer minChunk : Int) : Except Failure Unit := do
  checkPowerOfTwo "min_buffer_size" minBuffer
  checkPowerOfTwo "min_chunk_reserved_bytes" minChunk

/-! ## File descriptors -/

/-- The cache of open segments takes two thirds of the file descriptors that the process may open.
-/
def segmentCapacity (descriptors : Nat) : Nat :=
  descriptors * 2 / 3

/-- The number of descriptors asked of the system, or the configured one if it does not say. -/
def descriptorLimit (queried : Except OsError Nat) (fallback : Nat) : Nat × Log :=
  match queried with
  | .ok n => (n, [])
  | .error e =>
    (fallback, [.warn ("call getrlimit() failed, use min_file_descriptor_number instead error="
      ++ e.text ++ " fallback=" ++ toString fallback)])

end QueryHost
