/-!
# Paths

A path is a text. Its names stand between slashes; a path that begins with a slash starts at the
root, another one where the process is. Joining is by text alone: an absolute right side takes the
place of the left one, and a separator is put in between only where there is none.
-/

namespace QueryHost

structure Path where
  text : String
  deriving DecidableEq, Repr, Inhabited

namespace Path

/-- The pieces between slashes, the empty ones too. -/
def pieces : List Char → List (List Char)
  | [] => [[]]
  | c :: cs =>
    match pieces cs with
    | [] => [[c]]
    | p :: ps => if c = '/' then [] :: p :: ps else (c :: p) :: ps

def isAbsolute (p : Path) : Bool := p.text.toList.head? == some '/'

def endsInSlash (p : Path) : Bool := p.text.toList.getLast? == some '/'

def join (base : Path) (part : String) : Path :=
  if (Path.mk part).isAbsolute then ⟨part⟩
  else if base.text.isEmpty || base.endsInSlash then ⟨base.text ++ part⟩
  else ⟨base.text ++ "/" ++ part⟩

instance : HDiv Path String Path := ⟨join⟩

/-- The names on the way, from the left. -/
def names (p : Path) : List String :=
  ((pieces p.text.toList).filter fun cs => !cs.isEmpty).map String.ofList

/-- The names that count when ancestors are taken: a `.` only counts where a relative path begins.
-/
def components (p : Path) : List String :=
  match p.names with
  | [] => []
  | n :: rest => (if n = "." && p.isAbsolute then [] else [n]) ++ rest.filter (· != ".")

/-- The path with the given components, absolute if `p` is. -/
def ofComponents (p : Path) (components : List String) : Path :=
  ⟨(if p.isAbsolute then "/" else "") ++ String.intercalate "/" components⟩

/-- What lies above a path with `n` components, the nearest first, without the root and without the
empty path. -/
def above (p : Path) : Nat → List Path
  | 0 => []
  | 1 => []
  | n + 2 => p.ofComponents (p.components.take (n + 1)) :: p.above (n + 1)

/-- The path itself and what lies above it, the nearest first; nothing for a root. -/
def ancestors (p : Path) : List Path :=
  if p.components.isEmpty then [] else p :: p.above p.components.length

/-- The directory that a path lies in; a root lies in none. -/
def parent? (p : Path) : Option Path :=
  if p.components.isEmpty then none else some (p.ofComponents p.components.dropLast)

end Path

end QueryHost
