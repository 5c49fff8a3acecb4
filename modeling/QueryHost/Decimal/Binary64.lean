/-!
# Binary64 magnitudes

The magnitude of a finite binary64 number is a whole number of steps of `2 ^ -1074`, and here it is
that whole number. `ofRatio` rounds a ratio to the nearest representable magnitude, a half going to
the even neighbour; products and quotients are the rounded exact ones. A result past the largest
magnitude is none.
-/

namespace QueryHost

/-- The whole number nearest to `num / den`, of two equally near ones the even one. -/
def roundHalfEven (num den : Nat) : Nat :=
  let q := num / den
  let r := num % den
  if 2 * r < den then q else if den < 2 * r then q + 1 else q + q % 2

/-- A magnitude of binary64, in steps of `2 ^ -1074`. -/
structure Binary64 where
  steps : Nat
  deriving DecidableEq, Repr

namespace Binary64

/-- The number of steps in one. -/
def unit : Nat := Nat.pow 2 1074

/-- The first number of steps that is too many. -/
def overflow : Nat := Nat.pow 2 (1074 + 1024)

/-- The distance of representable magnitudes around `n` steps: 53 significant bits. -/
def spacing (n : Nat) : Nat := Nat.pow 2 (n.log2 - 52)

/-- The representable magnitude nearest to `num / den` steps. -/
def ofSteps (num den : Nat) : Option Binary64 :=
  let gap := spacing (num / den)
  let n := roundHalfEven num (den * gap) * gap
  if n < overflow then some ⟨n⟩ else none

/-- The representable magnitude nearest to `num / den`. -/
def ofRatio (num den : Nat) : Option Binary64 :=
  ofSteps (num * unit) den

def ofNat (n : Nat) : Option Binary64 :=
  ofRatio n 1

def mul (a b : Binary64) : Option Binary64 :=
  ofSteps (a.steps * b.steps) unit

def divNat (a : Binary64) (n : Nat) : Option Binary64 :=
  ofSteps a.steps n

/-- The largest whole number that is not above the magnitude. -/
def floor (a : Binary64) : Nat :=
  a.steps / unit

/-- The magnitude of `digits * 10 ^ exponent`. An exponent that decides the outcome alone is not
multiplied out: `digits` has `length` decimal digits at most. -/
def ofDecimal (digits length : Nat) (exponent : Int) : Option Binary64 :=
  if digits = 0 then some ⟨0⟩
  else if 400 < exponent then none
  else if exponent + length < -400 then some ⟨0⟩
  else if 0 ≤ exponent then ofRatio (digits * Nat.pow 10 exponent.toNat) 1
  else ofRatio digits (Nat.pow 10 (-exponent).toNat)

end Binary64

end QueryHost
