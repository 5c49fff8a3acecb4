import QueryHost.Assoc
import QueryHost.Disk.System

/-!
# The disk

A disk is a tree of directories and files without links: each entry is kept under its place, the
names that lead to it from the root, which is always a directory. A directory lists its entries in
the order in which the disk keeps them, so that a statement about every disk is one about every
order of listing.

The operations answer as the system does, with its errors. `locate` finds the place of a path:
everything before the last name has to be a directory that exists, and `..` leads back up. What does
not follow from the tree is left out: permissions, the space that is left, faults of the device, and
other programs. Links, and names that are no texts, are those of `LinkedDisk`.
-/

namespace QueryHost

inductive Entry where
  | file (content : Bytes)
  | directory
  deriving DecidableEq, Repr

/-- The names that lead from the root to an entry. -/
abbrev Place := List String

structure Disk where
  entries : Assoc Place Entry := {}
  /-- Where relative paths start. -/
  workplace : Place := []
  deriving Repr

namespace Disk

/-- The longest name that a directory takes, and the length that is too long for a path, in bytes.
-/
def maxName : Nat := 255
def pathEnd : Nat := 4096

def entry? (d : Disk) (place : Place) : Option Entry :=
  if place = [] then some .directory else d.entries.get? place

def put (d : Disk) (place : Place) (e : Entry) : Disk :=
  { d with entries := d.entries.put place e }

/-- One step from a place that has to be a directory. -/
def enter (d : Disk) (place : Place) (name : String) : Except OsError Place :=
  match d.entry? place with
  | none => .error .notFound
  | some (.file _) => .error .notDirectory
  | some .directory =>
    if name = "." then .ok place
    else if name = ".." then .ok place.dropLast
    else if maxName < name.utf8ByteSize then .error .nameTooLong
    else .ok (place ++ [name])

def walk (d : Disk) : Place → List String → Except OsError Place
  | place, [] => .ok place
  | place, name :: rest =>
    match d.enter place name with
    | .ok next => d.walk next rest
    | .error e => .error e

/-- The place of a path, whether or not there is an entry. -/
def locate (d : Disk) (p : Path) : Except IoFault Place :=
  if p.text.toList.contains '\x00' then .error (.other "file name contained an unexpected NUL byte")
  else if p.text.isEmpty then .error (.system .notFound)
  else if pathEnd ≤ p.text.utf8ByteSize then .error (.system .nameTooLong)
  else match d.walk (if p.isAbsolute then [] else d.workplace) p.names with
    | .ok place => .ok place
    | .error e => .error (.system e)

/-- The place and the entry of a path. What is named with a slash at its end is a directory. -/
def find (d : Disk) (p : Path) : Except IoFault (Place × Entry) := do
  let place ← d.locate p
  match d.entry? place with
  | none => .error (.system .notFound)
  | some (.file content) =>
    if p.endsInSlash then .error (.system .notDirectory) else .ok (place, .file content)
  | some .directory => .ok (place, .directory)

def isPresent (d : Disk) (p : Path) : Bool := (d.find p).toBool

def isDirectory (d : Disk) (p : Path) : Bool :=
  match d.find p with
  | .ok (_, .directory) => true
  | _ => false

def isFile (d : Disk) (p : Path) : Bool :=
  match d.find p with
  | .ok (_, .file _) => true
  | _ => false

/-- What opening a file and reading it gives. A directory opens, and has nothing to read. -/
def openFile (d : Disk) (p : Path) : Except IoFault (Except OsError Bytes) :=
  (d.find p).map fun
    | (_, .file content) => .ok content
    | (_, .directory) => .error .isDirectory

def read (d : Disk) (p : Path) : Except IoFault Bytes := do
  match ← d.openFile p with
  | .ok content => .ok content
  | .error e => .error (.system e)

def readText (d : Disk) (p : Path) : Except IoFault String := do
  let content ← d.read p
  match decode? content with
  | some text => .ok text
  | none => .error (.other "stream did not contain valid UTF-8")

/-- Whether the path's last name can be that of a file. -/
def namesFile (p : Path) : Bool :=
  !p.endsInSlash && p.names.getLast? != some "." && p.names.getLast? != some ".."

/-- The place that a file of that path has or will have. -/
def filePlace (d : Disk) (p : Path) : Except IoFault Place := do
  let place ← d.locate p
  if !namesFile p || d.entry? place == some .directory then .error (.system .isDirectory)
  else .ok place

/-- Gives a file its content, making it if there is none. -/
def write (d : Disk) (p : Path) (content : Bytes) : Except IoFault Disk := do
  let place ← d.filePlace p
  return d.put place (.file content)

/-- Opens a file to write at its end, making it if there is none. -/
def openLog (d : Disk) (p : Path) : Except IoFault Disk := do
  let place ← d.filePlace p
  return if (d.entry? place).isSome then d else d.put place (.file [])

/-- The names in a directory. -/
def list (d : Disk) (p : Path) : Except IoFault (List String) := do
  match ← d.find p with
  | (_, .file _) => .error (.system .notDirectory)
  | (place, .directory) =>
    return d.entries.keys.filterMap fun k =>
      match k.getLast? with
      | some name => if k.dropLast = place then some name else none
      | none => none

def makeDirectory (d : Disk) (p : Path) : Except IoFault Disk := do
  let place ← d.locate p
  if (d.entry? place).isSome then .error (.system .alreadyExists)
  else .ok (d.put place .directory)

/-- Makes a directory unless there is one. -/
def ensureDirectory (d : Disk) (p : Path) : Except IoFault Disk :=
  match d.makeDirectory p with
  | .error (.system .alreadyExists) =>
    if d.isDirectory p then .ok d else .error (.system .alreadyExists)
  | r => r

/-- Makes a directory and all that are missing above it. What was made stays when a later one
cannot be. -/
def makeDirectories (d : Disk) (p : Path) : Disk × Except IoFault Unit :=
  makeAll ensureDirectory d p

/-- Takes away an entry and all that lies below it. -/
def erase (d : Disk) (place : Place) : Disk :=
  { d with entries := d.entries.filter fun k _ => !place.isPrefixOf k }

def removeFile (d : Disk) (p : Path) : Except IoFault Disk := do
  match ← d.find p with
  | (place, .file _) => .ok (d.erase place)
  | (_, .directory) => .error (.system .isDirectory)

def removeTree (d : Disk) (p : Path) : Except IoFault Disk := do
  match ← d.find p with
  | (place, .directory) => .ok (d.erase place)
  | (_, .file _) => .error (.system .notDirectory)

/-- Whether something lies below a place. -/
def isOccupied (d : Disk) (place : Place) : Bool :=
  d.entries.keys.any fun k => place.isPrefixOf k && k != place

/-- Puts all that lies at and below one place to another one. -/
def relocate (d : Disk) (source target : Place) : Disk :=
  let moving := d.entries.toList.filter fun e => source.isPrefixOf e.1
  moving.foldl (fun d e => d.put (target ++ e.1.drop source.length) e.2)
    ((d.erase source).erase target)

/-- Gives an entry another path. What has that path already makes way if it is of the same kind and
nothing lies below it. -/
def move (d : Disk) (source target : Path) : Except IoFault Disk := do
  let (place, entry) ← d.find source
  let goal ← d.locate target
  if goal = place then return d
  if place.isPrefixOf goal then .error (.system .invalidArgument)
  match entry, d.entry? goal with
  | _, none => return d.relocate place goal
  | .file _, some (.file _) => return d.relocate place goal
  | .file _, some .directory => .error (.system .isDirectory)
  | .directory, some (.file _) => .error (.system .notDirectory)
  | .directory, some .directory =>
    if d.isOccupied goal then .error (.system .directoryNotEmpty) else return d.relocate place goal

/-- On a disk without links all names are texts. -/
instance : FileSystem Disk where
  isFile
    | d, .text p => d.isFile p
    | _, .raw _ _ _ => false
  read := read
  write := write
  removeFile
    | d, .text p => d.removeFile p
    | _, .raw _ _ _ => .error (.system .notFound)
  makeDirectories := makeDirectories
  list d p := (d.list p).map (·.map .text)

end Disk

end QueryHost
