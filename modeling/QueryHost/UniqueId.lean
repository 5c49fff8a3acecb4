import QueryHost.Text.Digits

/-!
# Unique ids

An id is two signed words of 64 bits. Its text is five groups of hexadecimal digits, 8-4-4-4-12, of
the two words read as unsigned.
-/

namespace QueryHost

structure UniqueId where
  hi : Int
  lo : Int
  deriving DecidableEq, Repr, Inhabited

namespace UniqueId

/-- A signed word read as unsigned: its residue modulo `2 ^ 64`. -/
def word (n : Int) : Nat :=
  (n % word64Count).toNat

def chars (id : UniqueId) : List Char :=
  let hi := word id.hi
  let lo := word id.lo
  hexField 8 (hi / 4294967296) ++ '-' :: hexField 4 (hi / 65536) ++ '-' :: hexField 4 hi
    ++ '-' :: hexField 4 (lo / 281474976710656) ++ '-' :: hexField 12 lo

def text (id : UniqueId) : String :=
  String.ofList id.chars

/-- By `hi`, then by `lo`, both signed. -/
def le (a b : UniqueId) : Bool :=
  a.hi < b.hi || (a.hi == b.hi && a.lo ≤ b.lo)

def sort (ids : List UniqueId) : List UniqueId :=
  ids.mergeSort le

end UniqueId

end QueryHost
