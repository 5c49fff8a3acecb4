import QueryHost.Act
import QueryHost.Text.Digits

/-!
# Small files

Small files that the cluster hands out are kept in one directory. A file's name is its number and
the digest of its content, and the index of the directory is made from the names whose digest is
that of the content; all other files are removed. The digest is a parameter: nothing here depends on
which one it is. So is the kind of disk, as what is a file there is left to it: one whose paths
follow symbolic links makes the manager index what they lead to.
-/

namespace QueryHost

structure SmallFile where
  path : Path
  digest : String
  deriving DecidableEq, Repr

structure SmallFiles where
  directory : Path
  files : Assoc Int SmallFile := {}
  deriving Repr

namespace SmallFiles

/-- Whether texts are equal up to the case of ASCII letters. -/
def sameLetters (a b : String) : Bool :=
  a.toList.map Char.toLower == b.toList.map Char.toLower

/-- The text before the first point and the one after it. -/
def splitAtPoint : List Char → Option (List Char × List Char)
  | [] => none
  | c :: cs =>
    if c = '.' then some ([], cs) else (splitAtPoint cs).map fun (a, b) => (c :: a, b)

/-- The number and the digest that a file's name gives, if its content has that digest. -/
def identify (hash : Bytes → String) (name : String) (content : Bytes) : Option (Int × String) := do
  let (number, digest) ← splitAtPoint name.toList
  let id ← readInt64 number
  if sameLetters (hash content) (String.ofList digest) then
    some (id, String.ofList (digest.map Char.toLower))
  else none

variable {δ : Type} [FileSystem δ]

/-- The file of that name, with its number, if its name is a text and says what its content is. -/
def loadSingle (hash : Bytes → String) (directory : Path) (d : δ) :
    EntryName → Option (Int × SmallFile)
  | .text name =>
    ((FileSystem.read d (directory / name)).toOption.bind (identify hash name)).map
      fun (id, digest) => (id, ⟨directory / name, digest⟩)
  | .raw _ _ => none

/-- Indexes the files among the given names of the directory, the last one of a number counting,
and removes those that are not what their name says. -/
def load (hash : Bytes → String) (s : SmallFiles) : List EntryName → ActOn δ SmallFiles
  | [] => return s
  | name :: rest => do
    let path := s.directory.entry name
    let d ← Act.disk
    if !FileSystem.isFile d path then load hash s rest
    else match loadSingle hash s.directory d name with
      | some (id, file) => load hash { s with files := s.files.put id file } rest
      | none =>
        Act.warn ("remove invalid small file " ++ path.shown)
        if let .ok d := FileSystem.removeFile d path then Act.setDisk d
        load hash s rest

def init (hash : Bytes → String) (s : SmallFiles) : ActOn δ SmallFiles := do
  Act.makeDirectories ("create small file dir " ++ s.directory.text) s.directory
  match FileSystem.list (← Act.disk) s.directory with
  | .error e => Act.fail (.io ("read small file dir " ++ s.directory.text) e)
  | .ok names =>
    let s ← load hash s names
    Act.info ("small file manager loaded " ++ toString s.files.size ++ " files from "
      ++ s.directory.text)
    return s

def get? (s : SmallFiles) (id : Int) (digest : String) : Option SmallFile :=
  (s.files.get? id).filter fun f => sameLetters f.digest digest

/-- Keeps a content under a number; the file that had the number before is removed. -/
def put (hash : Bytes → String) (s : SmallFiles) (id : Int) (content : Bytes) :
    ActOn δ (SmallFiles × SmallFile) := do
  let digest := hash content
  let path := s.directory / (toString id ++ "." ++ digest)
  Act.change ("write small file " ++ path.text) (FileSystem.write · path content)
  match s.files.get? id with
  | some old =>
    if old.path != path then
      if let .ok d := FileSystem.removeFile (← Act.disk) (.text old.path) then Act.setDisk d
  | none => pure ()
  return ({ s with files := s.files.put id ⟨path, digest⟩ }, ⟨path, digest⟩)

end SmallFiles

end QueryHost
