/-!
# TOML values

A document is a table. Tables carry how they came about, because that decides what may still be
added to them: `Entries.update` follows a path of keys into a table, makes the tables that are
missing on the way, and refuses to reopen a table that is complete.
-/

namespace QueryHost.Toml

/-- How a table was written. -/
inductive TableKind where
  /-- Between braces, as a value. -/
  | inline
  /-- By a header of its own. -/
  | header
  /-- As a part of a longer header. -/
  | implied
  /-- As a part of a dotted key. -/
  | dotted
  deriving DecidableEq, Repr

inductive Value where
  | text (s : String)
  | integer (n : Int)
  | float
  | boolean (b : Bool)
  /-- A date, a time, or both. -/
  | moment
  | array (items : List Value)
  | table (kind : TableKind) (entries : List (String × Value))
  /-- The tables under one repeated header. -/
  | tables (items : List (List (String × Value)))
  deriving Repr, Inhabited

abbrev Entries := List (String × Value)

def Entries.get? (entries : Entries) (key : String) : Option Value :=
  entries.lookup key

/-- Gives `key` the value, in the place of its old one or at the end. -/
def Entries.set (entries : Entries) (key : String) (v : Value) : Entries :=
  if entries.any (·.1 == key) then entries.map fun e => if e.1 == key then (key, v) else e
  else entries ++ [(key, v)]

/-- Follows `path` into a table and changes what it leads to. The tables that are missing become
dotted or implied ones. A dotted key does not enter a table that has a header. -/
def Entries.update (dotted : Bool) (change : TableKind → Entries → Option Entries) :
    List String → TableKind → Entries → Option Entries
  | [], kind, entries => change kind entries
  | key :: path, _, entries =>
    match entries.get? key with
    | none => do
      let kind : TableKind := if dotted then .dotted else .implied
      let inner ← Entries.update dotted change path kind []
      some (entries.set key (.table kind inner))
    | some (.table kind inner) =>
      if kind == .inline || (dotted && kind == .header) then none
      else do
        let inner ← Entries.update dotted change path kind inner
        some (entries.set key (.table kind inner))
    | some (.tables items) =>
      match items.getLast? with
      | none => none
      | some inner => do
        let inner ← Entries.update dotted change path .header inner
        some (entries.set key (.tables (items.dropLast ++ [inner])))
    | some _ => none

/-- Adds the value under a dotted key; a key in use, or a table that dotted keys did not make, is
refused. -/
def Entries.addPair (path : List String) (v : Value) (kind : TableKind) (entries : Entries) :
    Option Entries :=
  match path.getLast? with
  | none => none
  | some key =>
    let parents := path.dropLast
    Entries.update true (fun kind inner =>
      if (kind == .dotted) == parents.isEmpty || (inner.get? key).isSome then none
      else some (inner.set key v)) parents kind entries

/-- Opens the table of a header: a new one, or one that is only implied so far. -/
def Entries.openTable (path : List String) (root : Entries) : Option Entries :=
  match path.getLast? with
  | none => none
  | some key =>
    Entries.update false (fun _ inner =>
      match inner.get? key with
      | none => some (inner.set key (.table .header []))
      | some (.table .implied content) => some (inner.set key (.table .header content))
      | some _ => none) path.dropLast .header root

/-- Opens one more table of a repeated header. -/
def Entries.openItem (path : List String) (root : Entries) : Option Entries :=
  match path.getLast? with
  | none => none
  | some key =>
    Entries.update false (fun _ inner =>
      match inner.get? key with
      | none => some (inner.set key (.tables [[]]))
      | some (.tables items) => some (inner.set key (.tables (items ++ [[]])))
      | some _ => none) path.dropLast .header root

end QueryHost.Toml
