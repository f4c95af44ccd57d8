import BlockFlow.Host

/-!
# Folders and files

A tree of folders held as a list of paths from the root, and the `Host` on it: a program run in
one of its folders leaves behind the disk and what it printed.
-/

set_option autoImplicit false

namespace BlockFlow

/-- What stands at a path. -/
inductive DiskEntry where
  | folder
  | file (content : ByteArray)

/-- The folders and files below the root. -/
structure Disk where
  entries : List (List String × DiskEntry) := []

namespace Disk

/-- What stands at a path. The empty path is the root. -/
def entry? (d : Disk) (path : List String) : Option DiskEntry :=
  if path = [] then some .folder else (d.entries.find? fun e => e.1 = path).map Prod.snd

/-- Puts something at a path, in place of what stood there. -/
def put (d : Disk) (path : List String) (entry : DiskEntry) : Disk :=
  { entries := (path, entry) :: d.entries.filter fun e => e.1 ≠ path }

/-- Where a name leads from a folder. -/
def enter (folder : List String) (name : String) : List String :=
  if name = "." then folder
  else if name = ".." then folder.dropLast
  else folder ++ [name]

/-- Where names lead from a path. Every name but the last has to lead to a folder. -/
def locateFrom (d : Disk) (path : List String) : List String → Except IoError (List String)
  | [] => .ok path
  | name :: names =>
    match d.entry? path with
    | some .folder => d.locateFrom (enter path name) names
    | some (.file _) => .error .notFolder
    | none => .error .missing

/-- Where the names of a path start: at the root, or in the folder a program runs in. -/
def base (folder : List String) (path : String) : List String :=
  if Path.isAbsolute path then [] else folder

/-- Where a path leads a program that runs in `folder`. -/
def locate (d : Disk) (folder : List String) (path : String) : Except IoError (List String) :=
  if path = "" then .error .missing else d.locateFrom (base folder path) (Path.names path)

/-- The content of a file. -/
def read? (d : Disk) (folder : List String) (path : String) : Option ByteArray :=
  match d.locate folder path with
  | .error _ => none
  | .ok place =>
    match d.entry? place with
    | some (.file content) => some content
    | _ => none

/-- Makes the folder to which names lead from a folder, and those between. -/
def createFoldersFrom (folder : List String) : List String → Disk → Except IoError Disk
  | [], d => .ok d
  | name :: names, d =>
    let next := enter folder name
    match d.entry? next with
    | some (.file _) => .error (if names = [] then .occupied else .notFolder)
    | some .folder => createFoldersFrom next names d
    | none => createFoldersFrom next names (d.put next .folder)

/-- Makes a folder and those above it, as far as they do not exist. -/
def createFolders (d : Disk) (folder : List String) (path : String) : Except IoError Disk :=
  createFoldersFrom (base folder path) (Path.names path) d

/-- Puts a text into a file. The folder of the file has to exist. -/
def write (d : Disk) (folder : List String) (path text : String) : Except IoError Disk :=
  if Path.namesFolder path then .error .isFolder
  else
    match d.locate folder path with
    | .error e => .error e
    | .ok place =>
      match d.entry? place with
      | some .folder => .error .isFolder
      | _ => .ok (d.put place (.file text.toUTF8))

end Disk

/-- A disk, the folder a program runs in, and the texts printed so far. -/
structure Session where
  disk : Disk
  folder : List String
  printed : List String

namespace Session

/-- A session in an empty folder, on a disk with no other folders than those above it. -/
def start (folder : List String) : Session :=
  { disk := { entries :=
      (List.range folder.length).map fun n => (folder.take (n + 1), .folder) }
    folder
    printed := [] }

/-- Changes the disk from the folder the program runs in, unless that fails. -/
def change (f : List String → Disk → Except IoError Disk) :
    StateM Session (Except IoError Unit) :=
  fun s =>
    match f s.folder s.disk with
    | .error e => (.error e, s)
    | .ok disk => (.ok (), { s with disk })

instance : Host (StateM Session) where
  readFile? path := fun s => (s.disk.read? s.folder path, s)
  createFolders path := change fun folder d => d.createFolders folder path
  writeFile path text := change fun folder d => d.write folder path text
  printLine text := fun s => ((), { s with printed := s.printed ++ [text] })
  milliseconds := pure 0

end Session

end BlockFlow
