import QueryHost.Disk.Tree

/-!
# Layouts and changes

A tree as a list of paths: what lies below a directory, how to put one entry after the other in its
place, whatever has to be made above it, and how two trees differ.
-/

namespace QueryHost

inductive Change where
  | remove (place : Place) (entry : Entry)
  | put (place : Place) (entry : Entry)
  deriving DecidableEq, Repr

namespace Disk

/-- Puts a file or a directory where a path says, with all directories above it; says whether that
could be done. -/
def deposit (d : Disk) (p : Path) : Entry → Disk × Bool
  | .directory =>
    let (d, r) := d.makeDirectories p
    (d, r.toBool)
  | .file content =>
    let d := match p.parent? with
      | some parent => (d.makeDirectories parent).1
      | none => d
    match d.write p content with
    | .ok d => (d, true)
    | .error _ => (d, false)

/-- Takes away a file or a tree; says whether there was one. -/
def discard (d : Disk) (p : Path) : Disk × Bool :=
  match d.removeFile p, d.removeTree p with
  | .ok d, _ => (d, true)
  | _, .ok d => (d, true)
  | _, _ => (d, false)

/-- What lies below a place, by its place from there. -/
def below (d : Disk) (place : Place) : List (Place × Entry) :=
  (d.entries.toList.filter fun e => place.isPrefixOf e.1 && e.1 != place).map fun e =>
    (e.1.drop place.length, e.2)

/-- Entries by their depth, those nearest to the root first. -/
def byDepth (entries : List (Place × Entry)) : List (Place × Entry) :=
  entries.mergeSort fun a b => a.1.length ≤ b.1.length

/-- Whether an entry makes way: its place is empty afterwards, or holds one of another kind. -/
def isGone (after : Disk) (e : Place × Entry) : Bool :=
  match e.2, after.entries.get? e.1 with
  | .file _, some (.file _) => false
  | .directory, some .directory => false
  | _, _ => true

/-- What has to be done to make one disk into another one: what is not there any more is taken away,
the deepest places first, and what is new or different is put in place, the deepest places last. -/
def changes (before after : Disk) : List Change :=
  ((byDepth (before.entries.toList.filter after.isGone)).reverse.map fun e => .remove e.1 e.2)
    ++ (byDepth (after.entries.toList.filter fun e => before.entries.get? e.1 != some e.2)).map
      fun e => .put e.1 e.2

end Disk

end QueryHost
