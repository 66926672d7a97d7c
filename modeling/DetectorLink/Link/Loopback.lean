import DetectorLink.HardwareId
import DetectorLink.Link.Fault
import DetectorLink.Link.Files
import DetectorLink.Text.Numeral

/-!
# A simulated network

A machine that is connected to nothing: addresses of its own can be listened on, and no name but
its own is known.
-/

namespace DetectorLink.Loopback

/-- True for a host given as four numbers with dots between them. -/
def isNumeric (host : String) : Bool := (HardwareId.readQuad? host.toList).isSome

/-- True for an address of the machine itself. -/
def isLocal (host : String) : Bool :=
  host == "localhost" || host == "[::1]" || host == "[::]" || host == "0.0.0.0" ||
    (isNumeric host && host.startsWith "127.")

/-- Listen on a host and port. -/
def listen (address : String) : Except CallError Unit :=
  let cs := address.toList.reverse
  let port := (cs.takeWhile (· != ':')).reverse
  match cs.dropWhile (· != ':') with
  | [] => .error (.told .invalidInput "invalid socket address")
  | _ :: host =>
    match Numeral.read 10 65536 port with
    | .error _ => .error (.told .invalidInput "invalid port value")
    | .ok _ =>
      let host := String.ofList host.reverse
      if Files.isUnaskable host then
        .error (.told .invalidInput "file name contained an unexpected NUL byte")
      else if isLocal host then .ok ()
      else if isNumeric host then .error (.system ⟨99⟩)
      else .error (.told .uncategorized
        "failed to lookup address information: Name or service not known")

end DetectorLink.Loopback
