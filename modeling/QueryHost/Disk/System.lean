import QueryHost.Disk.Path
import QueryHost.OsError
import QueryHost.Text.Decode

/-!
# File systems

What the managers of files ask of a disk, whichever kind it is (`FileSystem`). A file system names
its entries by bytes. Mostly they are the encoding of a text, and the entry's path is a text like
any other; where they are not, the path can still be asked for and removed, and is shown with
replacement characters (`decodeLossily`).
-/

namespace QueryHost

/-- The name of an entry: a text, or bytes that are no encoding of one. -/
inductive EntryName where
  | text (name : String)
  | raw (bytes : Bytes) (undecodable : decode? bytes = none)
  deriving DecidableEq, Repr

namespace EntryName

/-- The length of the name in bytes. -/
def size : EntryName → Nat
  | text name => name.utf8ByteSize
  | raw bytes _ => bytes.length

end EntryName

/-- A path: a text, or that of an entry of a directory whose name is no text. -/
inductive OsPath where
  | text (path : Path)
  | raw (directory : Path) (bytes : Bytes) (undecodable : decode? bytes = none)
  deriving DecidableEq, Repr

/-- The path of an entry of a directory. -/
def Path.entry (directory : Path) : EntryName → OsPath
  | .text name => .text (directory / name)
  | .raw bytes h => .raw directory bytes h

namespace OsPath

def names : OsPath → List EntryName
  | text p => p.names.map .text
  | raw directory bytes h => directory.names.map .text ++ [.raw bytes h]

def isAbsolute : OsPath → Bool
  | text p => p.isAbsolute
  | raw directory _ _ => directory.isAbsolute

def endsInSlash : OsPath → Bool
  | text p => p.endsInSlash
  | raw _ _ _ => false

def hasNul : OsPath → Bool
  | text p => p.text.toList.contains '\x00'
  | raw directory bytes _ => directory.text.toList.contains '\x00' || bytes.contains 0

/-- The length of the path in bytes. -/
def size : OsPath → Nat
  | text p => p.text.utf8ByteSize
  | raw directory bytes _ => (directory / "").text.utf8ByteSize + bytes.length

/-- The path as a message shows it. -/
def shown : OsPath → String
  | text p => p.text
  | raw directory bytes _ => (directory / decodeLossily bytes).text

end OsPath

/-- What can be done on a disk of any kind. -/
class FileSystem (δ : Type) where
  /-- Whether the path leads to a regular file. -/
  isFile : δ → OsPath → Bool
  read : δ → Path → Except IoFault Bytes
  /-- Gives a file its content, making it if there is none. -/
  write : δ → Path → Bytes → Except IoFault δ
  removeFile : δ → OsPath → Except IoFault δ
  /-- Makes a directory and all that are missing above it, as far as that goes. -/
  makeDirectories : δ → Path → δ × Except IoFault Unit
  /-- The names in a directory, in the order in which the disk keeps them. -/
  list : δ → Path → Except IoFault (List EntryName)

/-! ## Making directories -/

section Directories

variable {δ : Type} (ensure : δ → Path → Except IoFault δ)

/-- Makes the nearest of the given directories that can be made, all of them lying in one another
and the nearest to the root coming last; gives those that are still to be made, the nearest to the
root first. -/
def foothold (d : δ) (missing : List Path) : List Path → Except IoFault (δ × List Path)
  | [] => .ok (d, missing)
  | p :: above =>
    match ensure d p with
    | .ok d => .ok (d, missing)
    | .error (.system .notFound) => foothold d (p :: missing) above
    | .error e => .error e

/-- Makes one directory after the other, as far as that goes. -/
def descend (d : δ) : List Path → δ × Except IoFault Unit
  | [] => (d, .ok ())
  | p :: below =>
    match ensure d p with
    | .ok d => descend d below
    | .error e => (d, .error e)

/-- Makes a directory and all that are missing above it, each of them being made by `ensure` unless
it is there. What was made stays when a later one cannot be. -/
def makeAll (d : δ) (p : Path) : δ × Except IoFault Unit :=
  match foothold ensure d [] p.ancestors with
  | .ok (d, missing) => descend ensure d missing
  | .error e => (d, .error e)

end Directories

end QueryHost
