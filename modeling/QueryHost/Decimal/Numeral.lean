import QueryHost.Decimal.Binary64
import QueryHost.Text.Digits

/-!
# Decimal numerals

A numeral is an optional sign, digits with at most one point among or around them, and an optional
exponent; or, in any case of letters, the word for infinity or for no number. `Numeral.read?` reads
exactly these, and `Numeral.magnitude?` rounds the finite ones.
-/

namespace QueryHost

inductive Numeral where
  /-- `digits * 10 ^ exponent`, the digits written with `length` characters. -/
  | finite (negative : Bool) (digits length : Nat) (exponent : Int)
  | infinite (negative : Bool)
  | notANumber
  deriving DecidableEq, Repr

namespace Numeral

def isDigit (c : Char) : Bool :=
  (decimalValue? c).isSome

/-- The exponent that follows the digits: nothing, or a letter, an optional sign and digits. -/
def exponent? : List Char → Option Int
  | [] => some 0
  | e :: ds => if e = 'e' ∨ e = 'E' then readInt ds else none

/-- The numeral after its sign. -/
def unsigned? (negative : Bool) (cs : List Char) : Option Numeral :=
  let word := cs.map Char.toLower
  if word = "inf".toList ∨ word = "infinity".toList then some (infinite negative)
  else if word = "nan".toList then some notANumber
  else
    let whole := cs.takeWhile isDigit
    let rest := cs.dropWhile isDigit
    let (part, tail) := match rest with
      | '.' :: ds => (ds.takeWhile isDigit, ds.dropWhile isDigit)
      | ds => ([], ds)
    if whole.isEmpty && part.isEmpty then none
    else do
      let digits ← readDigits 10 decimalValue? (whole ++ part)
      let e ← exponent? tail
      some (finite negative digits (whole.length + part.length) (e - part.length))

def read? : List Char → Option Numeral
  | '-' :: cs => unsigned? true cs
  | '+' :: cs => unsigned? false cs
  | cs => unsigned? false cs

/-- The magnitude of a numeral that is finite and not below zero. Negative zero is not below
zero, and neither is a negative numeral that rounds to it. -/
def magnitude? : Numeral → Option Binary64
  | finite negative digits length exponent =>
    (Binary64.ofDecimal digits length exponent).filter fun m => !negative || m.steps == 0
  | _ => none

end Numeral

end QueryHost
