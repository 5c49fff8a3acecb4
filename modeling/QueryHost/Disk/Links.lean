import QueryHost.Disk.Tree

/-!
# A disk with links

The disk of `Disk.Tree` is what the host runs on, and has neither links nor names that are no texts.
Here is one that has both (`LinkedDisk`). An entry of it is a file, a directory or a symbolic link.
A file is known by its number, under which its content is kept, so that one file may have several
names. A path is looked up name by name (`LinkedDisk.stretch`), and where a symbolic link has to be
followed, the names that it stands for take its place (`LinkedDisk.resolve`). Sockets, pipes and
devices are left out, and so is what `Disk` leaves out: permissions, space and faults.
-/

namespace QueryHost

def OsError.tooManyLinks : OsError := ⟨40⟩

/-- Where a symbolic link leads: along names from the root, or from the directory that it lies in.
A slash at the end of its text counts as a `.`. -/
structure LinkTarget where
  isAbsolute : Bool
  names : List EntryName
  deriving DecidableEq, Repr

inductive LinkedEntry where
  | file (node : Nat)
  | directory
  | link (target : LinkTarget)
  deriving DecidableEq, Repr

/-- The names that lead from the root to an entry without any link. -/
abbrev EntryPlace := List EntryName

structure LinkedDisk where
  entries : Assoc EntryPlace LinkedEntry := {}
  /-- The contents of the files, by their numbers. -/
  contents : List Bytes := []
  /-- Where relative paths start. -/
  workplace : EntryPlace := []
  deriving Repr

/-- How far names lead: to a place, or to a symbolic link in a directory, with the names that come
after it. -/
inductive Stretch where
  | arrived (place : EntryPlace)
  | link (directory : EntryPlace) (target : LinkTarget) (rest : List EntryName)

namespace LinkedDisk

/-- How many symbolic links are followed for one path. -/
def maxLinks : Nat := 40

def entry? (d : LinkedDisk) (place : EntryPlace) : Option LinkedEntry :=
  if place = [] then some .directory else d.entries.get? place

/-- Goes from name to name, until a symbolic link has to be followed. The last name has to be only
if `follow` says so. -/
def stretch (d : LinkedDisk) (follow : Bool) :
    EntryPlace → List EntryName → Except OsError Stretch
  | place, [] => .ok (.arrived place)
  | place, name :: rest =>
    match d.entry? place with
    | none => .error .notFound
    | some (.file _) | some (.link _) => .error .notDirectory
    | some .directory =>
      if name = .text "." then d.stretch follow place rest
      else if name = .text ".." then d.stretch follow place.dropLast rest
      else if Disk.maxName < name.size then .error .nameTooLong
      else match d.entry? (place ++ [name]) with
        | some (.link target) =>
          if follow || !rest.isEmpty then .ok (.link place target rest)
          else .ok (.arrived (place ++ [name]))
        | _ => d.stretch follow (place ++ [name]) rest

/-- The place that names lead to from another one, over that many symbolic links at most. -/
def resolve (d : LinkedDisk) (follow : Bool) :
    Nat → EntryPlace → List EntryName → Except OsError EntryPlace
  | links, place, names =>
    match d.stretch follow place names with
    | .error e => .error e
    | .ok (.arrived place) => .ok place
    | .ok (.link directory target rest) =>
      match links with
      | 0 => .error .tooManyLinks
      | links + 1 =>
        d.resolve follow links (if target.isAbsolute then [] else directory) (target.names ++ rest)

def startOf (d : LinkedDisk) (isAbsolute : Bool) : EntryPlace :=
  if isAbsolute then [] else d.workplace

/-- The place of a path, whether or not there is an entry. -/
def locate (d : LinkedDisk) (follow : Bool) (p : OsPath) : Except IoFault EntryPlace :=
  if p.hasNul then .error (.other "file name contained an unexpected NUL byte")
  else if p.size = 0 then .error (.system .notFound)
  else if Disk.pathEnd ≤ p.size then .error (.system .nameTooLong)
  else match d.resolve follow maxLinks (d.startOf p.isAbsolute) p.names with
    | .ok place => .ok place
    | .error e => .error (.system e)

/-- The place and the entry that a path leads to, all symbolic links being followed. What is named
with a slash at its end is a directory. -/
def find (d : LinkedDisk) (p : OsPath) : Except IoFault (EntryPlace × LinkedEntry) := do
  let place ← d.locate true p
  match d.entry? place with
  | none => .error (.system .notFound)
  | some .directory => .ok (place, .directory)
  | some e => if p.endsInSlash then .error (.system .notDirectory) else .ok (place, e)

def isFile (d : LinkedDisk) (p : OsPath) : Bool :=
  match d.find p with
  | .ok (_, .file _) => true
  | _ => false

def isDirectory (d : LinkedDisk) (p : Path) : Bool :=
  match d.find (.text p) with
  | .ok (_, .directory) => true
  | _ => false

/-- The content of a file. -/
def content (d : LinkedDisk) (node : Nat) : Bytes := d.contents[node]?.getD []

def read (d : LinkedDisk) (p : Path) : Except IoFault Bytes := do
  match ← d.find (.text p) with
  | (_, .file node) => .ok (d.content node)
  | (_, .directory) => .error (.system .isDirectory)
  | (_, .link _) => .error (.system .tooManyLinks)

/-- The names in a directory. -/
def list (d : LinkedDisk) (p : Path) : Except IoFault (List EntryName) := do
  match ← d.find (.text p) with
  | (place, .directory) =>
    return d.entries.keys.filterMap fun k =>
      match k.getLast? with
      | some name => if k.dropLast = place then some name else none
      | none => none
  | _ => .error (.system .notDirectory)

/-- Gives a file its content, under all its names; where there is none, a new file. -/
def write (d : LinkedDisk) (p : Path) (content : Bytes) : Except IoFault LinkedDisk := do
  let place ← d.locate true (.text p)
  if !Disk.namesFile p then .error (.system .isDirectory)
  else match d.entry? place with
    | some (.file node) => .ok { d with contents := d.contents.set node content }
    | none => .ok { d with
        entries := d.entries.put place (.file d.contents.length)
        contents := d.contents ++ [content] }
    | some .directory => .error (.system .isDirectory)
    | some (.link _) => .error (.system .tooManyLinks)

/-- Takes one name from a file, or takes a symbolic link away. -/
def removeFile (d : LinkedDisk) (p : OsPath) : Except IoFault LinkedDisk := do
  let place ← d.locate p.endsInSlash p
  match d.entry? place with
  | none => .error (.system .notFound)
  | some .directory => .error (.system .isDirectory)
  | some _ =>
    if p.endsInSlash then .error (.system .notDirectory)
    else .ok { d with entries := d.entries.erase place }

/-- Makes a directory. A symbolic link is in its way, wherever it leads. -/
def makeDirectory (d : LinkedDisk) (p : Path) : Except IoFault LinkedDisk := do
  let place ← d.locate false (.text p)
  if (d.entry? place).isSome then .error (.system .alreadyExists)
  else .ok { d with entries := d.entries.put place .directory }

/-- Makes a directory unless there is one. -/
def ensureDirectory (d : LinkedDisk) (p : Path) : Except IoFault LinkedDisk :=
  match d.makeDirectory p with
  | .error (.system .alreadyExists) =>
    if d.isDirectory p then .ok d else .error (.system .alreadyExists)
  | r => r

instance : FileSystem LinkedDisk where
  isFile := isFile
  read := read
  write := write
  removeFile := removeFile
  makeDirectories := makeAll ensureDirectory
  list := list

end LinkedDisk

end QueryHost
