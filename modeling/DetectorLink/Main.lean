import DetectorLink.Link.Board
import DetectorLink.Link.Loopback
import DetectorLink.Tool.Settings

/-!
# The command line

Reads the arguments and the configuration file, carries the command out and prints what it has to
say. Reports go to standard output, failures to standard error. There is no adapter to talk to
here: the commands run on a host that has the configuration file and nothing else.
-/

namespace DetectorLink

/-- A host whose only file is the configuration that was read. -/
def bareHost (name : String) (content : Option Bytes) : Host Board where
  clock := 0
  files :=
    let parts := (Files.splitName name).filter (· != "")
    let folders := (List.range parts.length).map fun n => (parts.take n, FileNode.directory)
    let file := content.toList.map fun bytes => (parts, FileNode.plain bytes)
    ⟨file ++ folders, []⟩
  driver := ⟨[], [], [], none, .zero, []⟩
  responder := none
  listen := Loopback.listen

/-- Rounds of waiting after which a command is given up. -/
def patience : Nat := 1000000

/-- Carry out a command line whose configuration file has been read: the text of the report, and
that of a failure. -/
def report (a : Arguments) (content : Option Bytes) : String × Option String :=
  let host := bareHost (a.config.getD Config.defaultPath) content
  match a.resolve host.files with
  | .error e => ("", some (ToolError.config e).message)
  | .ok config =>
    let (r, s) := (a.run config patience).exec (.start host)
    (s.output, match r with
      | .ok () => none
      | .error e => some e.message)

end DetectorLink

open DetectorLink in
/-- Run the tool. -/
def main (texts : List String) : IO UInt32 := do
  match Arguments.parse texts with
  | .error e =>
    IO.eprintln e.message
    return if e = .helpWanted || e = .versionWanted then 0 else 2
  | .ok a =>
    let name := a.config.getD Config.defaultPath
    let content ← try
        let bytes ← IO.FS.readBinFile name
        pure (some bytes.toList)
      catch _ => pure none
    let (output, failure) := report a content
    IO.print output
    match failure with
    | none => return 0
    | some message =>
      IO.eprintln s!"occ failed: {message}"
      return 1
