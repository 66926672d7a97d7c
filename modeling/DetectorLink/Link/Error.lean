import DetectorLink.Link.Errno

/-!
# Link errors

Everything that can go wrong on the data path. Each cause that is remedied differently has its own
constructor, and `LinkError.ofErrno` sorts the system's error numbers into them.
-/

namespace DetectorLink

/-- Why an operation on the link failed. -/
inductive LinkError where
  /-- The device does not exist. -/
  | notFound (path : String)
  /-- Driver and library speak different versions. -/
  | versionMismatch (expected found : String)
  /-- The status handshake returned less than it must. -/
  | noData
  /-- An allocation or mapping failed. -/
  | outOfMemory (what : String)
  /-- Any other failure of the system. -/
  | io (category : IoCategory) (message : String)
  /-- Nothing arrived in time. -/
  | timeout
  /-- The link was reset underneath the reader. -/
  | connectionReset
  /-- A hardware queue or a ring overflowed. -/
  | overflow
  /-- The receive region is full and reception stalled. -/
  | stall
  /-- There is no peer, or reception is off. -/
  | notConnected
  /-- The operation or region does not exist here. -/
  | unsupported (what : String)
  /-- An argument was refused before touching the device. -/
  | invalidArgument (reason : String)
  /-- The operation is not permitted on a debug handle. -/
  | restricted (operation : String)
  /-- The producer is gone. -/
  | shutdown
  deriving DecidableEq, Repr

namespace LinkError

/-- Name of a link error. -/
def name : LinkError → String
  | notFound .. => "NotFound"
  | versionMismatch .. => "VersionMismatch"
  | noData => "NoData"
  | outOfMemory .. => "OutOfMemory"
  | io .. => "Io"
  | timeout => "Timeout"
  | connectionReset => "ConnectionReset"
  | overflow => "Overflow"
  | stall => "Stall"
  | notConnected => "NotConnected"
  | unsupported .. => "Unsupported"
  | invalidArgument .. => "InvalidArgument"
  | restricted .. => "Restricted"
  | shutdown => "Shutdown"

/-- Wording of a link error. -/
def message : LinkError → String
  | notFound path => s!"Device not found: {path}"
  | versionMismatch expected found => s!"Version mismatch: expected {expected}, found {found}"
  | noData => "Status handshake returned no data"
  | outOfMemory what => s!"Out of memory: {what}"
  | io category text => s!"IO error ({category.name}): {text}"
  | timeout => "Timed out waiting for data"
  | connectionReset => "Connection reset"
  | overflow => "Buffer overflow"
  | stall => "DMA stalled, receive buffer full"
  | notConnected => "No peer connected or receive disabled"
  | unsupported what => s!"Unsupported: {what}"
  | invalidArgument reason => s!"Invalid argument: {reason}"
  | restricted operation => s!"Operation not permitted on a debug handle: {operation}"
  | shutdown => "Producer shut down"

/-- The error that a system error number means, with `context` in its wording. -/
def ofErrno (e : Errno) (context : String) : LinkError :=
  match e.code with
  | 2 | 19 => notFound context
  | 71 => versionMismatch "driver protocol" context
  | 61 => noData
  | 12 => outOfMemory context
  | 62 | 110 => timeout
  | 104 => connectionReset
  | 75 | 34 => overflow
  | 28 => stall
  | 107 => notConnected
  | 38 | 95 => unsupported context
  | 22 => invalidArgument context
  | 108 => shutdown
  | _ => io e.category s!"{context}: {e.description}"

/-- The error of a failed call, told in the system's words. -/
def ofSystem (e : Errno) : LinkError := ofErrno e e.systemText

/-- The error of a bare error number. -/
def ofNumber (e : Errno) : LinkError := ofErrno e e.description

/-- The refusal of a name with a zero character in it, which the system is not asked for. -/
def zeroInName : LinkError := io .invalidInput "file name contained an unexpected NUL byte"

/-- True for the conditions that a device reset clears. -/
def needsReset : LinkError → Bool
  | overflow | stall | connectionReset => true
  | _ => false

end LinkError

end DetectorLink
