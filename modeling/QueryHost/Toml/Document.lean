import QueryHost.Toml.Scalar

/-!
# TOML documents

A document is lines: pairs of a key and a value, headers of tables, and headers of repeated tables.
`Document.read?` gives the table of a whole text, or none if the text is no document.
-/

namespace QueryHost.Toml

/-- White space, comments and line ends between the items of an array. -/
def skipGaps : (fuel : Nat) → List Char → List Char
  | 0, cs => cs
  | fuel + 1, cs =>
    let cs := skipSpace cs
    match comment cs with
    | some (_, rest) =>
      match newline rest with
      | some (_, rest) => skipGaps fuel rest
      | none => cs
    | none =>
      match newline cs with
      | some (_, rest) => skipGaps fuel rest
      | none => cs

def gaps (cs : List Char) : List Char := skipGaps (cs.length + 1) cs

/-- The items of an array after its bracket, and the closing bracket. A comma may end them. -/
def arrayItems (item : Reader Value) : (fuel : Nat) → Reader (List Value)
  | 0, _ => none
  | fuel + 1, cs =>
    match gaps cs with
    | ']' :: rest => some ([], rest)
    | start => do
      let (v, rest) ← item start
      match gaps rest with
      | ',' :: rest =>
        let (vs, rest) ← arrayItems item fuel rest
        some (v :: vs, rest)
      | ']' :: rest => some ([v], rest)
      | _ => none

/-- A key, an equals sign and a value, with white space around each. -/
def pair (item : Reader Value) : Reader (List String × Value) := fun cs => do
  let (path, cs) ← dottedKey cs
  let (_, cs) ← literal ['='] cs
  let (v, cs) ← item (skipSpace cs)
  some ((path, v), skipSpace cs)

/-- The pairs of an inline table up to the closing brace, added to those before. -/
def inlinePairs (item : Reader Value) : (fuel : Nat) → Entries → Reader Entries
  | 0, _, _ => none
  | fuel + 1, entries, cs => do
    let ((path, v), cs) ← pair item cs
    let entries ← entries.addPair path v .inline
    match cs with
    | ',' :: rest => inlinePairs item fuel entries rest
    | '}' :: rest => some (entries, rest)
    | _ => none

def inlineTable (item : Reader Value) : Reader Value := fun cs =>
  match skipSpace cs with
  | '}' :: rest => some (.table .inline [], rest)
  | cs => (inlinePairs item (cs.length + 1) [] cs).map fun (es, rest) => (.table .inline es, rest)

/-- A value with at most `depth` arrays and inline tables around one another. -/
def value : (depth : Nat) → Reader Value
  | 0, cs => scalar cs
  | depth + 1, cs =>
    match cs with
    | '[' :: rest =>
      (arrayItems (fun cs => value depth cs) (rest.length + 1) rest).map fun (vs, rest) =>
        (.array vs, rest)
    | '\x7b' :: rest => inlineTable (fun cs => value depth cs) rest
    | _ => scalar cs
where
  scalar : Reader Value := fun cs =>
    match cs with
    | '"' :: _ => (string cs).map fun (s, rest) => (.text s, rest)
    | '\'' :: _ => (string cs).map fun (s, rest) => (.text s, rest)
    | 't' :: _ => (literal ['t', 'r', 'u', 'e'] cs).map fun (_, rest) => (.boolean true, rest)
    | 'f' :: _ => (literal ['f', 'a', 'l', 's', 'e'] cs).map fun (_, rest) => (.boolean false, rest)
    | _ => number cs

/-- A line of a document. -/
inductive Statement where
  | pair (path : List String) (v : Value)
  | header (path : List String)
  | item (path : List String)
  deriving Repr, Inhabited

/-- White space and a comment up to the end of a line or of the text. -/
def lineEnd (cs : List Char) : Option (List Char) :=
  let cs := skipSpace cs
  let cs := match comment cs with
    | some (_, rest) => rest
    | none => cs
  match cs with
  | [] => some []
  | cs => (newline cs).map (·.2)

def statement : Reader Statement
  | '[' :: '[' :: cs => do
    let (path, cs) ← dottedKey cs
    let (_, cs) ← literal [']', ']'] cs
    some (.item path, ← lineEnd cs)
  | '[' :: cs => do
    let (path, cs) ← dottedKey cs
    let (_, cs) ← literal [']'] cs
    some (.header path, ← lineEnd cs)
  | cs => do
    let ((path, v), cs) ← pair (value depthLimit) cs
    some (.pair path v, ← lineEnd cs)

/-- The statements of a text. Blank lines and comments between them are dropped. -/
def statements : (fuel : Nat) → List Char → Option (List Statement)
  | 0, _ => none
  | fuel + 1, cs =>
    match skipSpace cs with
    | [] => some []
    | c :: rest =>
      if c = '#' ∨ c = '\n' ∨ c = '\r' then do
        let rest ← lineEnd (c :: rest)
        statements fuel rest
      else do
        let (s, rest) ← statement (c :: rest)
        let ss ← statements fuel rest
        some (s :: ss)

/-- The table under construction, and the header that is open. -/
structure Document where
  root : Entries := []
  header : List String := []
  deriving Repr

namespace Document

def add (d : Document) : Statement → Option Document
  | .pair path v => do
    let root ← Entries.update false
      (fun kind inner => Entries.addPair path v kind inner) d.header .header d.root
    some { d with root }
  | .header path => (Entries.openTable path d.root).map fun root => ⟨root, path⟩
  | .item path => (Entries.openItem path d.root).map fun root => ⟨root, path⟩

def ofStatements (ss : List Statement) : Option Document :=
  ss.foldlM add {}

/-- A byte order mark may stand before the text. -/
def read? (text : String) : Option Entries :=
  let cs := match text.toList with
    | '\ufeff' :: cs => cs
    | cs => cs
  do
    let ss ← statements (cs.length + 1) cs
    let d ← ofStatements ss
    some d.root

end Document

end QueryHost.Toml
