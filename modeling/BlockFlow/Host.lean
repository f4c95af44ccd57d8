import BlockFlow.Error

/-!
# Files and a terminal

What a program needs of its surroundings, as operations in a monad, so that the same program runs
on real files and on a `Disk`.
-/

set_option autoImplicit false

namespace BlockFlow

/-- The surroundings of a program. -/
class Host (m : Type → Type) where
  /-- The content of a file, or nothing if it cannot be read. -/
  readFile? (path : String) : m (Option ByteArray)
  /-- Makes a folder and those above it, as far as they do not exist. -/
  createFolders (path : String) : m (Except IoError Unit)
  /-- Puts a text into a file, in place of what it held. -/
  writeFile (path text : String) : m (Except IoError Unit)
  /-- Prints a text and ends the line. -/
  printLine (text : String) : m Unit
  /-- A time in milliseconds, of which only differences mean anything. -/
  milliseconds : m Float

namespace IoError

/-- A path that leads to nothing. -/
def missing : IoError := ⟨.notFound, some "No such file or directory (os error 2)"⟩

/-- A file or folder that may not be used so. -/
def denied : IoError := ⟨.permissionDenied, some "Permission denied (os error 13)"⟩

/-- A file where a folder is to be made. -/
def occupied : IoError := ⟨.alreadyExists, some "File exists (os error 17)"⟩

/-- A file where a folder is needed. -/
def notFolder : IoError := ⟨.notADirectory, some "Not a directory (os error 20)"⟩

/-- A folder where a file is needed. -/
def isFolder : IoError := ⟨.isADirectory, some "Is a directory (os error 21)"⟩

end IoError

namespace Path

/-- A path from the root. -/
def isAbsolute (path : String) : Bool := path.toList.head? == some '/'

/-- Whether a path is written as that of a folder. -/
def namesFolder (path : String) : Bool := path.toList.getLast? == some '/'

/-- What stands between the slashes of a path. -/
def pieces (path : String) : List String := (path.toList.splitOn '/').map String.ofList

/-- The names that lead to what a path names. An empty name stands for the folder it is looked
up in. -/
def names (path : String) : List String :=
  (pieces path).map fun name => if name = "" then "." else name

/-- The names of a path without those that lead nowhere else. Of a path that begins with a
period, that one is kept. -/
def components (path : String) : List String :=
  match pieces path with
  | [] => []
  | first :: rest =>
    [first].filter (· != "") ++ rest.filter fun name => name != "" && name != "."

/-- The path of the folder that holds what a path names; empty for a plain name. The empty path
and the root are in no folder. -/
def parent? (path : String) : Option String :=
  match components path with
  | [] => none
  | names => some ((if isAbsolute path then "/" else "") ++ "/".intercalate names.dropLast)

end Path

variable {m : Type → Type} [Monad m] [Host m]

/-- Puts a text into a file and makes the folders above it first. -/
def storeText (path text : String) : m (Except IoError Unit) := do
  let made ← match Path.parent? path with
    | some folder => Host.createFolders folder
    | none => pure (.ok ())
  match made with
  | .error e => return .error e
  | .ok () => Host.writeFile path text

end BlockFlow
