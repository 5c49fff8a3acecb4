import QueryHost.Word

/-!
# Digits and blanks

Texts of numbers in base 16 and base 10, bytes in lowercase hexadecimal, and white space.
-/

namespace QueryHost

/-- The lowercase hexadecimal digit of `n % 16`. -/
def hexDigit (n : Nat) : Char :=
  let d := n % 16
  if d < 10 then Char.ofNat (48 + d) else Char.ofNat (87 + d)

/-- The last `width` hexadecimal digits of `n`. -/
def hexField : (width n : Nat) → List Char
  | 0, _ => []
  | width + 1, n => hexField width (n / 16) ++ [hexDigit n]

/-- The value of a hexadecimal digit of either case. -/
def hexValue? (c : Char) : Option Nat :=
  if '0' ≤ c ∧ c ≤ '9' then some (c.toNat - 48)
  else if 'a' ≤ c ∧ c ≤ 'f' then some (c.toNat - 87)
  else if 'A' ≤ c ∧ c ≤ 'F' then some (c.toNat - 55)
  else none

def decimalValue? (c : Char) : Option Nat :=
  if '0' ≤ c ∧ c ≤ '9' then some (c.toNat - 48) else none

/-- The number whose digits, most significant first, are read by `digit?` in base `base`;
none if a character is no digit. The empty text is zero. -/
def readDigits (base : Nat) (digit? : Char → Option Nat) (cs : List Char) : Option Nat :=
  cs.foldlM (fun n c => (digit? c).map (base * n + ·)) 0

/-- The bytes in lowercase hexadecimal, two digits each. -/
def hexBytes (bytes : List UInt8) : String :=
  String.ofList (bytes.flatMap fun b => hexField 2 b.toNat)

/-- The bytes that pairs of hexadecimal digits stand for, as far as those go. -/
def readHex : List Char → List UInt8
  | high :: low :: rest =>
    match hexValue? high, hexValue? low with
    | some h, some l => UInt8.ofNat (16 * h + l) :: readHex rest
    | _, _ => []
  | _ => []

/-- An optional sign and one or more decimal digits. -/
def readInt (cs : List Char) : Option Int :=
  let magnitude (ds : List Char) : Option Nat :=
    if ds.isEmpty then none else readDigits 10 decimalValue? ds
  match cs with
  | '-' :: ds => (magnitude ds).map fun n => -(n : Int)
  | '+' :: ds => (magnitude ds).map fun n => (n : Int)
  | ds => (magnitude ds).map fun n => (n : Int)

/-- A signed word of 64 bits: `readInt` within the range. -/
def readInt64 (cs : List Char) : Option Int :=
  (readInt cs).filter fun n => int64Min ≤ n && n ≤ int64Max

/-! ## White space -/

/-- The code points with the property White_Space, as closed ranges. -/
def blankRanges : List (Nat × Nat) :=
  [(0x09, 0x0d), (0x20, 0x20), (0x85, 0x85), (0xa0, 0xa0), (0x1680, 0x1680), (0x2000, 0x200a),
    (0x2028, 0x2029), (0x202f, 0x202f), (0x205f, 0x205f), (0x3000, 0x3000)]

def isBlank (c : Char) : Bool :=
  blankRanges.any fun r => r.1 ≤ c.toNat && c.toNat ≤ r.2

/-- The text without the white space around it: what remains is empty or begins and ends with
another character. -/
def trim (cs : List Char) : List Char :=
  ((cs.dropWhile isBlank).reverse.dropWhile isBlank).reverse

def trimText (s : String) : String :=
  String.ofList (trim s.toList)

/-- The words of a text: its longest stretches without white space. -/
def words (cs : List Char) : List (List Char) :=
  (cs.splitBy fun a b => isBlank a == isBlank b).filter fun w => w.any fun c => !isBlank c

end QueryHost
