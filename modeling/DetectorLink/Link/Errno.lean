/-!
# System error numbers

The numbers that device files, pipes and sockets fail with, each with the category that reports
show and two wordings: the short description of the number and the text that the system prints.
-/

namespace DetectorLink

/-- Broad category of a system failure. -/
inductive IoCategory where
  | notFound
  | permissionDenied
  | interrupted
  | inputOutputError
  | wouldBlock
  | outOfMemory
  | resourceBusy
  | alreadyExists
  | crossesDevices
  | notADirectory
  | isADirectory
  | invalidInput
  | executableFileBusy
  | fileTooLarge
  | storageFull
  | notSeekable
  | readOnlyFilesystem
  | tooManyLinks
  | brokenPipe
  | deadlock
  | invalidFilename
  | unsupported
  | writeZero
  | directoryNotEmpty
  | filesystemLoop
  | argumentListTooLong
  | addrInUse
  | addrNotAvailable
  | networkDown
  | networkUnreachable
  | connectionAborted
  | connectionReset
  | notConnected
  | timedOut
  | connectionRefused
  | hostUnreachable
  | inProgress
  | staleNetworkFileHandle
  | quotaExceeded
  | uncategorized
  | other
  deriving DecidableEq, Repr

/-- Name of a category in reports. -/
def IoCategory.name : IoCategory → String
  | notFound => "NotFound"
  | permissionDenied => "PermissionDenied"
  | interrupted => "Interrupted"
  | inputOutputError => "InputOutputError"
  | wouldBlock => "WouldBlock"
  | outOfMemory => "OutOfMemory"
  | resourceBusy => "ResourceBusy"
  | alreadyExists => "AlreadyExists"
  | crossesDevices => "CrossesDevices"
  | notADirectory => "NotADirectory"
  | isADirectory => "IsADirectory"
  | invalidInput => "InvalidInput"
  | executableFileBusy => "ExecutableFileBusy"
  | fileTooLarge => "FileTooLarge"
  | storageFull => "StorageFull"
  | notSeekable => "NotSeekable"
  | readOnlyFilesystem => "ReadOnlyFilesystem"
  | tooManyLinks => "TooManyLinks"
  | brokenPipe => "BrokenPipe"
  | deadlock => "Deadlock"
  | invalidFilename => "InvalidFilename"
  | unsupported => "Unsupported"
  | writeZero => "WriteZero"
  | directoryNotEmpty => "DirectoryNotEmpty"
  | filesystemLoop => "FilesystemLoop"
  | argumentListTooLong => "ArgumentListTooLong"
  | addrInUse => "AddrInUse"
  | addrNotAvailable => "AddrNotAvailable"
  | networkDown => "NetworkDown"
  | networkUnreachable => "NetworkUnreachable"
  | connectionAborted => "ConnectionAborted"
  | connectionReset => "ConnectionReset"
  | notConnected => "NotConnected"
  | timedOut => "TimedOut"
  | connectionRefused => "ConnectionRefused"
  | hostUnreachable => "HostUnreachable"
  | inProgress => "InProgress"
  | staleNetworkFileHandle => "StaleNetworkFileHandle"
  | quotaExceeded => "QuotaExceeded"
  | uncategorized => "Uncategorized"
  | other => "Other"

/-- A system error number. -/
structure Errno where
  /-- The number itself. -/
  code : Nat
  deriving DecidableEq, Repr

namespace Errno

/-- One line of the table of known numbers. -/
structure Entry where
  /-- The number. -/
  code : Nat
  /-- Category of the failure. -/
  category : IoCategory
  /-- Short description. -/
  description : String
  /-- Text printed by the system. -/
  systemText : String

/-- An entry whose two wordings agree. -/
def Entry.same (code : Nat) (category : IoCategory) (text : String) : Entry :=
  ⟨code, category, text, text⟩

/-- The known numbers in ascending order. -/
def table : List Entry := [
  .same 1 .permissionDenied "Operation not permitted",
  .same 2 .notFound "No such file or directory",
  .same 3 .uncategorized "No such process",
  .same 4 .interrupted "Interrupted system call",
  ⟨5, .inputOutputError, "I/O error", "Input/output error"⟩,
  .same 6 .uncategorized "No such device or address",
  .same 7 .argumentListTooLong "Argument list too long",
  .same 8 .uncategorized "Exec format error",
  ⟨9, .uncategorized, "Bad file number", "Bad file descriptor"⟩,
  .same 10 .uncategorized "No child processes",
  ⟨11, .wouldBlock, "Try again", "Resource temporarily unavailable"⟩,
  ⟨12, .outOfMemory, "Out of memory", "Cannot allocate memory"⟩,
  .same 13 .permissionDenied "Permission denied",
  .same 14 .uncategorized "Bad address",
  .same 15 .uncategorized "Block device required",
  .same 16 .resourceBusy "Device or resource busy",
  .same 17 .alreadyExists "File exists",
  ⟨18, .crossesDevices, "Cross-device link", "Invalid cross-device link"⟩,
  .same 19 .uncategorized "No such device",
  .same 20 .notADirectory "Not a directory",
  .same 21 .isADirectory "Is a directory",
  .same 22 .invalidInput "Invalid argument",
  ⟨23, .uncategorized, "File table overflow", "Too many open files in system"⟩,
  .same 24 .uncategorized "Too many open files",
  ⟨25, .uncategorized, "Not a typewriter", "Inappropriate ioctl for device"⟩,
  .same 26 .executableFileBusy "Text file busy",
  .same 27 .fileTooLarge "File too large",
  .same 28 .storageFull "No space left on device",
  .same 29 .notSeekable "Illegal seek",
  .same 30 .readOnlyFilesystem "Read-only file system",
  .same 31 .tooManyLinks "Too many links",
  .same 32 .brokenPipe "Broken pipe",
  ⟨33, .uncategorized, "Math argument out of domain of func", "Numerical argument out of domain"⟩,
  ⟨34, .uncategorized, "Math result not representable", "Numerical result out of range"⟩,
  ⟨35, .deadlock, "Resource deadlock would occur", "Resource deadlock avoided"⟩,
  .same 36 .invalidFilename "File name too long",
  ⟨37, .uncategorized, "No record locks available", "No locks available"⟩,
  .same 38 .unsupported "Function not implemented",
  .same 39 .directoryNotEmpty "Directory not empty",
  ⟨40, .filesystemLoop, "Too many symbolic links encountered",
    "Too many levels of symbolic links"⟩,
  .same 61 .uncategorized "No data available",
  .same 62 .uncategorized "Timer expired",
  .same 71 .uncategorized "Protocol error",
  .same 75 .uncategorized "Value too large for defined data type",
  ⟨95, .unsupported, "Operation not supported on transport endpoint", "Operation not supported"⟩,
  .same 98 .addrInUse "Address already in use",
  .same 99 .addrNotAvailable "Cannot assign requested address",
  .same 100 .networkDown "Network is down",
  .same 101 .networkUnreachable "Network is unreachable",
  ⟨103, .connectionAborted, "Software caused connection abort",
    "Software caused connection abort"⟩,
  .same 104 .connectionReset "Connection reset by peer",
  .same 105 .uncategorized "No buffer space available",
  ⟨107, .notConnected, "Transport endpoint is not connected",
    "Transport endpoint is not connected"⟩,
  ⟨108, .uncategorized, "Cannot send after transport endpoint shutdown",
    "Cannot send after transport endpoint shutdown"⟩,
  .same 110 .timedOut "Connection timed out",
  .same 111 .connectionRefused "Connection refused",
  .same 113 .hostUnreachable "No route to host",
  .same 115 .inProgress "Operation now in progress",
  .same 116 .staleNetworkFileHandle "Stale file handle",
  .same 122 .quotaExceeded "Quota exceeded"]

/-- The entry of a number; one without an entry is uncategorized. -/
def entry (e : Errno) : Entry :=
  match table.find? (·.code = e.code) with
  | some found => found
  | none => ⟨e.code, .uncategorized, "Unknown errno", s!"Unknown error {e.code}"⟩

/-- Category of the failure. -/
def category (e : Errno) : IoCategory := e.entry.category

/-- Short description of the number. -/
def description (e : Errno) : String := e.entry.description

/-- Text that the system prints for a failed call. -/
def systemText (e : Errno) : String := s!"{e.entry.systemText} (os error {e.code})"

end Errno

end DetectorLink
