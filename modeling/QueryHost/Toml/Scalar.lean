import QueryHost.Decimal.Numeral
import QueryHost.Toml.Value

/-!
# TOML scalars

Readers of one token each. A reader takes the characters at hand and gives the token with the
characters after it, or none where no such token begins.
-/

namespace QueryHost.Toml

abbrev Reader (α : Type) := List Char → Option (α × List Char)

/-- Takes exactly the given characters. -/
def literal : List Char → Reader Unit
  | [], cs => some ((), cs)
  | x :: xs, c :: cs => if x = c then literal xs cs else none
  | _ :: _, [] => none

def isSpace (c : Char) : Bool := c == ' ' || c == '\t'

def skipSpace (cs : List Char) : List Char := cs.dropWhile isSpace

/-- A line feed, with or without a carriage return before it. -/
def newline : Reader Unit
  | '\n' :: cs => some ((), cs)
  | '\r' :: '\n' :: cs => some ((), cs)
  | _ => none

/-- A character that stands for itself: no control character but the tab. -/
def isPlain (c : Char) : Bool :=
  c == '\t' || (0x20 ≤ c.toNat && c.toNat != 0x7f)

/-- A comment up to the end of its line. -/
def comment : Reader Unit
  | '#' :: cs => some ((), cs.dropWhile isPlain)
  | _ => none

/-! ## Numbers -/

/-- Digits with single underscores between them; the underscores are dropped. -/
def digitRun (isDigit : Char → Bool) : Reader (List Char)
  | [] => none
  | c :: cs =>
    if !isDigit c then none
    else match cs with
      | '_' :: rest => (digitRun isDigit rest).map fun (ds, rest) => (c :: ds, rest)
      | d :: rest =>
        if isDigit d then (digitRun isDigit (d :: rest)).map fun (ds, rest) => (c :: ds, rest)
        else some ([c], d :: rest)
      | [] => some ([c], [])

/-- An optional sign. -/
def sign : List Char → List Char × List Char
  | '+' :: cs => (['+'], cs)
  | '-' :: cs => (['-'], cs)
  | cs => ([], cs)

/-- An optional sign and digits without a leading zero. -/
def decimal : Reader (List Char) := fun cs =>
  let (s, cs) := sign cs
  match cs with
  | '0' :: cs => some (s ++ ['0'], cs)
  | cs => (digitRun Numeral.isDigit cs).map fun (ds, rest) => (s ++ ds, rest)

def isHexDigit (c : Char) : Bool := (hexValue? c).isSome

/-- A number in base 16, 8 or 2, below `2 ^ 63`. -/
def basedInteger (base : Nat) (isDigit : Char → Bool) : Reader Value := fun cs => do
  let (ds, rest) ← digitRun isDigit cs
  let n ← readDigits base hexValue? ds
  if (n : Int) ≤ int64Max then some (.integer n, rest) else none

def integer : Reader Value
  | '0' :: 'x' :: cs => basedInteger 16 isHexDigit cs
  | '0' :: 'o' :: cs => basedInteger 8 (fun c => '0' ≤ c && c ≤ '7') cs
  | '0' :: 'b' :: cs => basedInteger 2 (fun c => c == '0' || c == '1') cs
  | cs => do
    let (ds, rest) ← decimal cs
    let n ← readInt64 ds
    some (.integer n, rest)

/-- The part of a float from its exponent letter on. -/
def exponentPart : Reader (List Char)
  | e :: cs =>
    if e = 'e' ∨ e = 'E' then
      let (s, cs) := sign cs
      (digitRun Numeral.isDigit cs).map fun (ds, rest) => (e :: s ++ ds, rest)
    else none
  | [] => none

/-- The part of a float after its whole digits. -/
def fractionPart : Reader (List Char)
  | '.' :: cs => do
    let (ds, rest) ← digitRun Numeral.isDigit cs
    match rest with
    | e :: _ =>
      if e = 'e' ∨ e = 'E' then
        let (es, rest) ← exponentPart rest
        some ('.' :: ds ++ es, rest)
      else some ('.' :: ds, rest)
    | [] => some ('.' :: ds, rest)
  | cs => exponentPart cs

/-- Whether a numeral does not round to positive infinity. -/
def isBounded : Option Numeral → Bool
  | some (.finite negative digits length exponent) =>
    negative || (Binary64.ofDecimal digits length exponent).isSome
  | _ => false

def specialFloat : Reader Value := fun cs =>
  let (_, cs) := sign cs
  match literal ['i', 'n', 'f'] cs with
  | some (_, rest) => some (.float, rest)
  | none => (literal ['n', 'a', 'n'] cs).map fun (_, rest) => (.float, rest)

def float : Reader Value := fun cs =>
  let plain := do
    let (whole, rest) ← decimal cs
    let (part, rest) ← fractionPart rest
    some (whole ++ part, rest)
  match plain with
  | some (text, rest) => if isBounded (Numeral.read? text) then some (.float, rest) else none
  | none => specialFloat cs

/-! ## Dates and times -/

/-- Exactly `count` digits, as a number. -/
def digitField (count : Nat) : Reader Nat := fun cs =>
  let ds := cs.take count
  if ds.length = count then (readDigits 10 decimalValue? ds).map fun n => (n, cs.drop count)
  else none

/-- Exactly `count` digits within a range. -/
def boundedField (count low high : Nat) : Reader Nat := fun cs => do
  let (n, rest) ← digitField count cs
  if low ≤ n ∧ n ≤ high then some (n, rest) else none

def isLeapYear (year : Nat) : Bool :=
  year % 4 == 0 && (year % 100 != 0 || year % 400 == 0)

def daysIn (year month : Nat) : Nat :=
  if month = 2 then (if isLeapYear year then 29 else 28)
  else if month ∈ [4, 6, 9, 11] then 30 else 31

def date : Reader Unit := fun cs => do
  let (year, cs) ← digitField 4 cs
  let (_, cs) ← literal ['-'] cs
  let (month, cs) ← boundedField 2 1 12 cs
  let (_, cs) ← literal ['-'] cs
  let (day, cs) ← boundedField 2 1 31 cs
  if day ≤ daysIn year month then some ((), cs) else none

/-- The digits of a second's fraction, if there are any. -/
def secondFraction : List Char → Option (List Char)
  | '.' :: cs =>
    let rest := cs.dropWhile Numeral.isDigit
    if rest.length = cs.length then none else some rest
  | cs => some cs

def time : Reader Unit := fun cs => do
  let (_, cs) ← boundedField 2 0 23 cs
  let (_, cs) ← literal [':'] cs
  let (_, cs) ← boundedField 2 0 59 cs
  let (_, cs) ← literal [':'] cs
  let (_, cs) ← boundedField 2 0 60 cs
  let cs ← secondFraction cs
  some ((), cs)

/-- The distance from universal time that may follow a time. -/
def offset : List Char → Option (List Char)
  | 'Z' :: cs => some cs
  | 'z' :: cs => some cs
  | c :: cs =>
    if c = '+' ∨ c = '-' then do
      let (_, cs) ← boundedField 2 0 23 cs
      let (_, cs) ← literal [':'] cs
      let (_, cs) ← boundedField 2 0 59 cs
      some cs
    else some (c :: cs)
  | [] => some []

/-- The time after a date. A blank that no time follows is not part of the date. -/
def timeOfDate (cs : List Char) : Option (List Char) :=
  match cs with
  | c :: rest =>
    if c = 'T' ∨ c = 't' ∨ c = ' ' then
      match time rest with
      | some (_, rest) => offset rest
      | none => if c = ' ' then some cs else none
    else some cs
  | [] => some []

def moment : Reader Value := fun cs =>
  match date cs with
  | some (_, rest) => (timeOfDate rest).map fun rest => (.moment, rest)
  | none => (time cs).map fun (_, rest) => (.moment, rest)

/-- A date or time, a float, or an integer: the first of these that can be read. -/
def number : Reader Value := fun cs =>
  moment cs <|> float cs <|> integer cs

/-! ## Text -/

/-- A character by its code point in `width` hexadecimal digits. -/
def codePoint (width : Nat) : Reader Char := fun cs => do
  let ds := cs.take width
  if ds.length = width then
    let n ← readDigits 16 hexValue? ds
    if n < 0xd800 ∨ (0xdfff < n ∧ n < 0x110000) then some (Char.ofNat n, cs.drop width) else none
  else none

/-- What a backslash and the characters after it stand for. -/
def escape : Reader Char
  | 'b' :: cs => some ('\x08', cs)
  | 't' :: cs => some ('\t', cs)
  | 'n' :: cs => some ('\n', cs)
  | 'f' :: cs => some ('\x0c', cs)
  | 'r' :: cs => some ('\r', cs)
  | '"' :: cs => some ('"', cs)
  | '\\' :: cs => some ('\\', cs)
  | 'u' :: cs => codePoint 4 cs
  | 'U' :: cs => codePoint 8 cs
  | _ => none

/-- A quoted text of one line after its opening quote. Only a text in double quotes has escapes. -/
def lineText (quote : Char) (escapes : Bool) : (fuel : Nat) → Reader (List Char)
  | 0, _ => none
  | _ + 1, [] => none
  | fuel + 1, c :: cs =>
    if c = quote then some ([], cs)
    else if escapes && c == '\\' then do
      let (x, cs) ← escape cs
      let (xs, cs) ← lineText quote escapes fuel cs
      some (x :: xs, cs)
    else if isPlain c then do
      let (xs, cs) ← lineText quote escapes fuel cs
      some (c :: xs, cs)
    else none

/-- A backslash at the end of a line takes the white space up to the next line with other text. -/
def foldedLine (cs : List Char) : Option (List Char) := do
  let (_, rest) ← newline (skipSpace cs)
  some (skipBreaks rest.length rest)
where
  skipBreaks : Nat → List Char → List Char
    | 0, cs => cs
    | fuel + 1, cs =>
      match newline (skipSpace cs) with
      | some (_, rest) => skipBreaks fuel rest
      | none => skipSpace cs

/-- A quoted text of many lines after its opening quotes. Line ends are line feeds, and up to two
quotes may stand before the closing three. -/
def blockText (quote : Char) (escapes : Bool) : (fuel : Nat) → Reader (List Char)
  | 0, _ => none
  | _ + 1, [] => none
  | fuel + 1, c :: cs =>
    if c = quote then
      let run := cs.takeWhile (· == quote)
      let rest := cs.dropWhile (· == quote)
      let count := run.length + 1
      if count < 3 then do
        let (xs, cs) ← blockText quote escapes fuel rest
        some (quote :: run ++ xs, cs)
      else if count < 6 then some (List.replicate (count - 3) quote, rest)
      else none
    else if escapes && c == '\\' then
      match foldedLine cs with
      | some cs => blockText quote escapes fuel cs
      | none => do
        let (x, cs) ← escape cs
        let (xs, cs) ← blockText quote escapes fuel cs
        some (x :: xs, cs)
    else match newline (c :: cs) with
      | some (_, cs) => do
        let (xs, cs) ← blockText quote escapes fuel cs
        some ('\n' :: xs, cs)
      | none =>
        if isPlain c then do
          let (xs, cs) ← blockText quote escapes fuel cs
          some (c :: xs, cs)
        else none

/-- The line end right after the opening quotes is not part of the text. -/
def dropNewline (cs : List Char) : List Char :=
  match newline cs with
  | some (_, rest) => rest
  | none => cs

def lineString : Reader String
  | '"' :: cs =>
    (lineText '"' true (cs.length + 1) cs).map fun (xs, rest) => (String.ofList xs, rest)
  | '\'' :: cs =>
    (lineText '\'' false (cs.length + 1) cs).map fun (xs, rest) => (String.ofList xs, rest)
  | _ => none

def string : Reader String
  | '"' :: '"' :: '"' :: cs =>
    (blockText '"' true (cs.length + 1) (dropNewline cs)).map
      fun (xs, rest) => (String.ofList xs, rest)
  | '\'' :: '\'' :: '\'' :: cs =>
    (blockText '\'' false (cs.length + 1) (dropNewline cs)).map
      fun (xs, rest) => (String.ofList xs, rest)
  | cs => lineString cs

/-! ## Keys -/

def isBare (c : Char) : Bool :=
  c.isAlphanum || c == '-' || c == '_'

def simpleKey : Reader String := fun cs =>
  match lineString cs with
  | some r => some r
  | none =>
    let bare := cs.takeWhile isBare
    if bare.isEmpty then none else some (String.ofList bare, cs.dropWhile isBare)

/-- Keys with points between them, and white space around each. -/
def keyPath : (fuel : Nat) → Reader (List String)
  | 0, _ => none
  | fuel + 1, cs => do
    let (key, cs) ← simpleKey (skipSpace cs)
    match skipSpace cs with
    | '.' :: rest =>
      let (keys, rest) ← keyPath fuel rest
      some (key :: keys, rest)
    | rest => some ([key], rest)

/-- Nesting, of keys and of values, that a document may have. -/
def depthLimit : Nat := 79

def dottedKey : Reader (List String) := fun cs =>
  (keyPath (cs.length + 1) cs).filter fun r => r.1.length ≤ depthLimit

end QueryHost.Toml
