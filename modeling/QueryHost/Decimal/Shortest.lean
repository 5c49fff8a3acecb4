import QueryHost.Decimal.Binary64
import QueryHost.Word

/-!
# Shortest decimal text

A whole number is shown as the binary64 number nearest to it, with the fewest significant digits
that read back to that number, and of those with the digits nearest to it; zeros fill up to the
unit. Below `2 ^ 53` this is the number itself.
-/

namespace QueryHost

/-- The whole number that a whole number is rounded to in binary64, while it is in range. -/
def roundToBinary64 (n : Nat) : Nat :=
  let gap := Binary64.spacing n
  roundHalfEven n gap * gap

/-- Twice the distance over which numbers below and above `n` still round to `n`. -/
def roundingRadius (n : Nat) : Nat × Nat :=
  let gap := Binary64.spacing n
  (if n = Nat.pow 2 n.log2 then gap / 2 else gap, gap)

/-- Whether the number `m` rounds to `n`. An end of the interval does if the significand of `n` is
even. -/
def readsBackTo (n m : Nat) : Bool :=
  let (below, above) := roundingRadius n
  let even := n / Binary64.spacing n % 2 == 0
  if m ≤ n then 2 * (n - m) < below || (even && 2 * (n - m) == below)
  else 2 * (m - n) < above || (even && 2 * (m - n) == above)

/-- The neighbour of `n` among the multiples of `power` that reads back to `n`; of two the nearer.
-/
def neighbour? (n power : Nat) : Option Nat :=
  let low := n / power * power
  let high := low + power
  match readsBackTo n low, readsBackTo n high with
  | true, true => some (if n - low ≤ high - n then low else high)
  | true, false => some low
  | false, true => some high
  | false, false => none

/-- Tries the multiples of `10 ^ k` for the given `k` and all smaller ones. -/
def shortestFrom (n : Nat) : Nat → Nat
  | 0 => n
  | k + 1 =>
    match neighbour? n (Nat.pow 10 (k + 1)) with
    | some m => m
    | none => shortestFrom n k

/-- The whole number whose digits are shown for `n`. -/
def shortestWhole (n : Nat) : Nat :=
  let r := roundToBinary64 n
  if r < 9007199254740992 then r else shortestFrom r 20

def binary64Text (n : Int) : String :=
  if n < 0 then "-" ++ toString (shortestWhole n.natAbs) else toString (shortestWhole n.natAbs)

/-! ## Numbers with two decimals -/

/-- A ratio rounded to hundredths, a half going to the even neighbour. -/
def hundredthsText (num den : Nat) : String :=
  let n := roundHalfEven (100 * num) den
  toString (n / 100) ++ "." ++ toString (n / 10 % 10) ++ toString (n % 10)

/-- Bytes in multiples of `2 ^ 30`, after rounding to binary64. -/
def gigabytesText (bytes : Int) : String :=
  (if bytes < 0 then "-" else "") ++ hundredthsText (roundToBinary64 bytes.natAbs) 1073741824

end QueryHost
