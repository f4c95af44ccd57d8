import BlockFlow.Side
import BlockFlow.Text.Quoted

/-!
# Errors

One type for every failure of the library. `FifoError.message` is the text a caller reads,
`FifoError.fullMessage` the text with all underlying causes, and `FifoError.duplicate` the copy
that is delivered when one armed error has to be raised more than once.
-/

set_option autoImplicit false

namespace BlockFlow

universe u v

/-- What the environment reports about a failed file or device operation. -/
inductive IoKind where
  | notFound
  | permissionDenied
  | connectionRefused
  | connectionReset
  | hostUnreachable
  | networkUnreachable
  | connectionAborted
  | notConnected
  | addrInUse
  | addrNotAvailable
  | networkDown
  | brokenPipe
  | alreadyExists
  | wouldBlock
  | notADirectory
  | isADirectory
  | directoryNotEmpty
  | readOnlyFilesystem
  | filesystemLoop
  | staleNetworkFileHandle
  | invalidInput
  | invalidData
  | timedOut
  | writeZero
  | storageFull
  | notSeekable
  | quotaExceeded
  | fileTooLarge
  | resourceBusy
  | executableFileBusy
  | deadlock
  | crossesDevices
  | tooManyLinks
  | invalidFilename
  | argumentListTooLong
  | interrupted
  | unsupported
  | unexpectedEof
  | outOfMemory
  | inProgress
  | other
  | uncategorized
  deriving DecidableEq, Repr

namespace IoKind

/-- Every kind. -/
def all : List IoKind :=
  [notFound, permissionDenied, connectionRefused, connectionReset, hostUnreachable,
    networkUnreachable, connectionAborted, notConnected, addrInUse, addrNotAvailable,
    networkDown, brokenPipe, alreadyExists, wouldBlock, notADirectory, isADirectory,
    directoryNotEmpty, readOnlyFilesystem, filesystemLoop, staleNetworkFileHandle, invalidInput,
    invalidData, timedOut, writeZero, storageFull, notSeekable, quotaExceeded, fileTooLarge,
    resourceBusy, executableFileBusy, deadlock, crossesDevices, tooManyLinks, invalidFilename,
    argumentListTooLong, interrupted, unsupported, unexpectedEof, outOfMemory, inProgress, other,
    uncategorized]

/-- The name of the kind. -/
def name : IoKind → String
  | notFound => "NotFound"
  | permissionDenied => "PermissionDenied"
  | connectionRefused => "ConnectionRefused"
  | connectionReset => "ConnectionReset"
  | hostUnreachable => "HostUnreachable"
  | networkUnreachable => "NetworkUnreachable"
  | connectionAborted => "ConnectionAborted"
  | notConnected => "NotConnected"
  | addrInUse => "AddrInUse"
  | addrNotAvailable => "AddrNotAvailable"
  | networkDown => "NetworkDown"
  | brokenPipe => "BrokenPipe"
  | alreadyExists => "AlreadyExists"
  | wouldBlock => "WouldBlock"
  | notADirectory => "NotADirectory"
  | isADirectory => "IsADirectory"
  | directoryNotEmpty => "DirectoryNotEmpty"
  | readOnlyFilesystem => "ReadOnlyFilesystem"
  | filesystemLoop => "FilesystemLoop"
  | staleNetworkFileHandle => "StaleNetworkFileHandle"
  | invalidInput => "InvalidInput"
  | invalidData => "InvalidData"
  | timedOut => "TimedOut"
  | writeZero => "WriteZero"
  | storageFull => "StorageFull"
  | notSeekable => "NotSeekable"
  | quotaExceeded => "QuotaExceeded"
  | fileTooLarge => "FileTooLarge"
  | resourceBusy => "ResourceBusy"
  | executableFileBusy => "ExecutableFileBusy"
  | deadlock => "Deadlock"
  | crossesDevices => "CrossesDevices"
  | tooManyLinks => "TooManyLinks"
  | invalidFilename => "InvalidFilename"
  | argumentListTooLong => "ArgumentListTooLong"
  | interrupted => "Interrupted"
  | unsupported => "Unsupported"
  | unexpectedEof => "UnexpectedEof"
  | outOfMemory => "OutOfMemory"
  | inProgress => "InProgress"
  | other => "Other"
  | uncategorized => "Uncategorized"

/-- The text of an error of this kind that carries no text of its own. -/
def text : IoKind → String
  | notFound => "entity not found"
  | permissionDenied => "permission denied"
  | connectionRefused => "connection refused"
  | connectionReset => "connection reset"
  | hostUnreachable => "host unreachable"
  | networkUnreachable => "network unreachable"
  | connectionAborted => "connection aborted"
  | notConnected => "not connected"
  | addrInUse => "address in use"
  | addrNotAvailable => "address not available"
  | networkDown => "network down"
  | brokenPipe => "broken pipe"
  | alreadyExists => "entity already exists"
  | wouldBlock => "operation would block"
  | notADirectory => "not a directory"
  | isADirectory => "is a directory"
  | directoryNotEmpty => "directory not empty"
  | readOnlyFilesystem => "read-only filesystem or storage medium"
  | filesystemLoop => "filesystem loop or indirection limit (e.g. symlink loop)"
  | staleNetworkFileHandle => "stale network file handle"
  | invalidInput => "invalid input parameter"
  | invalidData => "invalid data"
  | timedOut => "timed out"
  | writeZero => "write zero"
  | storageFull => "no storage space"
  | notSeekable => "seek on unseekable file"
  | quotaExceeded => "quota exceeded"
  | fileTooLarge => "file too large"
  | resourceBusy => "resource busy"
  | executableFileBusy => "executable file busy"
  | deadlock => "deadlock"
  | crossesDevices => "cross-device link or rename"
  | tooManyLinks => "too many links"
  | invalidFilename => "invalid filename"
  | argumentListTooLong => "argument list too long"
  | interrupted => "operation interrupted"
  | unsupported => "unsupported"
  | unexpectedEof => "unexpected end of file"
  | outOfMemory => "out of memory"
  | inProgress => "in progress"
  | other => "other error"
  | uncategorized => "uncategorized error"

/-- The kind with a given name. -/
def ofName? (s : String) : Option IoKind :=
  all.find? fun k => k.name = s

end IoKind

/-- A failed file or device operation, with or without a text of its own. -/
structure IoError where
  kind : IoKind
  detail : Option String
  deriving DecidableEq, Repr

/-- The text of the error: its own, or the one of its kind. -/
def IoError.text (e : IoError) : String :=
  e.detail.getD e.kind.text

/-- The error as a written record: its kind alone, or its kind and its own text. -/
def IoError.describe (e : IoError) : String :=
  match e.detail with
  | none => Text.wrapped "Kind" e.kind.name
  | some text => Text.record "Custom" [("kind", e.kind.name), ("error", Text.quote text)]

/-- A failure described by texts alone: the outermost text and the causes below it, each the
cause of the one before. -/
structure CauseChain where
  top : String
  causes : List String
  deriving DecidableEq, Repr

namespace CauseChain

/-- The chain whose root is `root`, wrapped in each of `contexts` in turn, so that the last of
them is outermost. -/
def wrap (root : String) (contexts : List String) : CauseChain :=
  contexts.foldl (fun c text => ⟨text, c.top :: c.causes⟩) ⟨root, []⟩

/-- All texts, from the outermost to the root. -/
def texts (c : CauseChain) : List String :=
  c.top :: c.causes

/-- All texts in one line. -/
def joined (c : CauseChain) : String :=
  ": ".intercalate c.texts

/-- A text whose first line stands behind `label` and the others as far to the right. -/
def indented (label text : String) : String :=
  label ++ ("\n" ++ String.ofList (List.replicate label.length ' ')).intercalate (text.splitOn "\n")

/-- The mark before a cause that is one of several. -/
def mark (i : Nat) : String :=
  let digits := toString i
  String.ofList (List.replicate (5 - digits.length) ' ') ++ digits ++ ": "

/-- The causes, one below the other; several of them are numbered. -/
def listedCauses : List String → List String
  | [] => []
  | [cause] => [indented "    " cause]
  | causes => causes.mapIdx fun i cause => indented (mark i) cause

/-- The outermost text and a list of its causes. -/
def describe (c : CauseChain) : String :=
  match c.causes with
  | [] => c.top
  | causes => c.top ++ "\n\nCaused by:\n" ++ "\n".intercalate (listedCauses causes)

end CauseChain

/-- Every failure of the library. -/
inductive FifoError where
  /-- A write does not fit. -/
  | capacityExceeded (requested available : Nat)
  /-- A read asks for more than is stored. -/
  | insufficientData (requested available : Nat)
  /-- A FIFO cannot be built. -/
  | construction (message : String)
  /-- A setting or an argument cannot be used. -/
  | config (message : String)
  /-- A party was told to give up. -/
  | cancelled (side : Side) (reason : String)
  /-- A file or device operation failed. -/
  | io (error : IoError)
  /-- Any other failure, known by its texts. -/
  | other (chain : CauseChain)
  deriving DecidableEq, Repr

namespace FifoError

/-- The name of the kind of failure. -/
def kindName : FifoError → String
  | capacityExceeded .. => "CapacityExceeded"
  | insufficientData .. => "InsufficientData"
  | construction _ => "Construction"
  | config _ => "Config"
  | cancelled .. => "Cancelled"
  | io _ => "Io"
  | other _ => "Other"

/-- The text a caller reads. -/
def message : FifoError → String
  | capacityExceeded requested available =>
    s!"cannot write {requested} elements: only {available} slots free"
  | insufficientData requested available =>
    s!"cannot read {requested} elements: only {available} available"
  | construction text => "cannot construct FIFO: " ++ text
  | config text => "configuration error: " ++ text
  | cancelled side reason => side.name ++ " cancelled: " ++ reason
  | io e => "IO error: " ++ e.text
  | other c => c.top

/-- The text with all causes in one line. It differs from `message` only for a failure that is
known by a chain of texts. -/
def fullMessage : FifoError → String
  | other c => c.joined
  | e => e.message

/-- The text of the failure directly below, if there is one. -/
def source? : FifoError → Option String
  | io e => some e.text
  | other c => c.causes.head?
  | _ => none

/-- Whether the failure was injected on purpose to release a party. -/
def isCancellation : FifoError → Bool
  | cancelled .. => true
  | _ => false

/-- The kind of the failed file or device operation. -/
def ioKind? : FifoError → Option IoKind
  | io e => some e.kind
  | _ => none

/-- A copy for one more delivery. A file error keeps kind and text; a chain of texts is reduced
to its one-line form. -/
def duplicate : FifoError → FifoError
  | io e => io ⟨e.kind, some e.text⟩
  | other c => other ⟨c.joined, []⟩
  | e => e

/-- The error as a written record. -/
def describe : FifoError → String
  | capacityExceeded requested available =>
    Text.record "CapacityExceeded"
      [("requested", toString requested), ("available", toString available)]
  | insufficientData requested available =>
    Text.record "InsufficientData"
      [("requested", toString requested), ("available", toString available)]
  | construction text => Text.wrapped "Construction" (Text.quote text)
  | config text => Text.wrapped "Config" (Text.quote text)
  | cancelled side reason =>
    Text.record "Cancelled" [("side", side.label), ("reason", Text.quote reason)]
  | io e => Text.wrapped "Io" e.describe
  | other c => Text.wrapped "Other" c.describe

/-- The failure of a construction whose cursors could not be told apart. -/
def cursorOverflow (capacity : Nat) : FifoError :=
  construction s!"capacity {capacity} overflows the cursor range"

/-- The failure of a construction for which there is not enough memory. -/
def outOfMemory (capacity : Nat) : FifoError :=
  construction s!"not enough memory for a FIFO of {capacity} elements"

end FifoError

/-- How a call ended. -/
abbrev Outcome := Except FifoError Unit

/-- Two steps that may fail have a result if both have one. -/
theorem bind_eq_ok {ε : Type u} {α β : Type v} {x : Except ε α} {f : α → Except ε β} {b : β} :
    (x >>= f) = .ok b ↔ ∃ a, x = .ok a ∧ f a = .ok b := by
  cases x <;> simp [bind, Except.bind]

end BlockFlow
