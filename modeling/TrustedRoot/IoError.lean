/-!
Errors of the system's file calls: a kind, by which a program decides, and a text for the reader.
-/

namespace TrustedRoot

/-- What went wrong in a call to the system. -/
inductive IoKind
  | notFound
  | permissionDenied
  | connectionRefused
  | connectionReset
  | hostUnreachable
  | networkUnreachable
  | connectionAborted
  | notConnected
  | addrInUse
  | addrNotAvailable
  | networkDown
  | brokenPipe
  | alreadyExists
  | wouldBlock
  | notADirectory
  | isADirectory
  | directoryNotEmpty
  | readOnlyFilesystem
  | filesystemLoop
  | staleNetworkFileHandle
  | invalidInput
  | invalidData
  | timedOut
  | writeZero
  | storageFull
  | notSeekable
  | quotaExceeded
  | fileTooLarge
  | resourceBusy
  | executableFileBusy
  | deadlock
  | crossesDevices
  | tooManyLinks
  | invalidFilename
  | argumentListTooLong
  | interrupted
  | unsupported
  | unexpectedEof
  | outOfMemory
  | other
  | uncategorized
deriving DecidableEq, Repr

namespace IoKind

/-- Every kind, the spelling of its name, and the text of an error of which only the kind is known.
-/
def table : List (IoKind × String × String) := [
  (.notFound, "NotFound", "entity not found"),
  (.permissionDenied, "PermissionDenied", "permission denied"),
  (.connectionRefused, "ConnectionRefused", "connection refused"),
  (.connectionReset, "ConnectionReset", "connection reset"),
  (.hostUnreachable, "HostUnreachable", "host unreachable"),
  (.networkUnreachable, "NetworkUnreachable", "network unreachable"),
  (.connectionAborted, "ConnectionAborted", "connection aborted"),
  (.notConnected, "NotConnected", "not connected"),
  (.addrInUse, "AddrInUse", "address in use"),
  (.addrNotAvailable, "AddrNotAvailable", "address not available"),
  (.networkDown, "NetworkDown", "network down"),
  (.brokenPipe, "BrokenPipe", "broken pipe"),
  (.alreadyExists, "AlreadyExists", "entity already exists"),
  (.wouldBlock, "WouldBlock", "operation would block"),
  (.notADirectory, "NotADirectory", "not a directory"),
  (.isADirectory, "IsADirectory", "is a directory"),
  (.directoryNotEmpty, "DirectoryNotEmpty", "directory not empty"),
  (.readOnlyFilesystem, "ReadOnlyFilesystem", "read-only filesystem or storage medium"),
  (.filesystemLoop, "FilesystemLoop", "filesystem loop or indirection limit (e.g. symlink loop)"),
  (.staleNetworkFileHandle, "StaleNetworkFileHandle", "stale network file handle"),
  (.invalidInput, "InvalidInput", "invalid input parameter"),
  (.invalidData, "InvalidData", "invalid data"),
  (.timedOut, "TimedOut", "timed out"),
  (.writeZero, "WriteZero", "write zero"),
  (.storageFull, "StorageFull", "no storage space"),
  (.notSeekable, "NotSeekable", "seek on unseekable file"),
  (.quotaExceeded, "QuotaExceeded", "quota exceeded"),
  (.fileTooLarge, "FileTooLarge", "file too large"),
  (.resourceBusy, "ResourceBusy", "resource busy"),
  (.executableFileBusy, "ExecutableFileBusy", "executable file busy"),
  (.deadlock, "Deadlock", "deadlock"),
  (.crossesDevices, "CrossesDevices", "cross-device link or rename"),
  (.tooManyLinks, "TooManyLinks", "too many links"),
  (.invalidFilename, "InvalidFilename", "invalid filename"),
  (.argumentListTooLong, "ArgumentListTooLong", "argument list too long"),
  (.interrupted, "Interrupted", "operation interrupted"),
  (.unsupported, "Unsupported", "unsupported"),
  (.unexpectedEof, "UnexpectedEof", "unexpected end of file"),
  (.outOfMemory, "OutOfMemory", "out of memory"),
  (.other, "Other", "other error"),
  (.uncategorized, "Uncategorized", "uncategorized error")]

/-- The name of a kind. -/
def name (kind : IoKind) : String :=
  ((table.find? fun row => row.1 = kind).map fun row => row.2.1).getD ""

/-- The text of an error of which only the kind is known. -/
def text (kind : IoKind) : String :=
  ((table.find? fun row => row.1 = kind).map fun row => row.2.2).getD ""

/-- The kind with the given name. -/
def ofName? (name : String) : Option IoKind :=
  (table.find? fun row => row.2.1 = name).map fun row => row.1

/-- Kinds that say only that there is no such entry: it is missing, or what should be its directory
is none. -/
def meansAbsent : IoKind → Bool
  | .notFound | .notADirectory => true
  | _ => false

end IoKind

/-- A failed call to the system. -/
structure IoError where
  kind : IoKind
  text : String
deriving DecidableEq, Repr

namespace IoError

/-- An error of which only the kind is known. -/
def ofKind (kind : IoKind) : IoError := ⟨kind, kind.text⟩

/-- Whether the error says only that there is no such entry. -/
def meansAbsent (e : IoError) : Bool := e.kind.meansAbsent

end IoError
end TrustedRoot
