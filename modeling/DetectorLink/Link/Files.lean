import DetectorLink.Link.Errno
import DetectorLink.Link.Stream

/-!
# Named files

Devices, pipes and configurations are found by name in a tree of directories. A name is resolved
part by part from the root, or from the current directory if it does not start with a slash; every
part before the last has to be a directory.
-/

namespace DetectorLink

/-- Where a file is in the tree: the names from the root on. -/
abbrev FilePath := List String

/-- What a name stands for. -/
inductive FileNode where
  /-- A directory. -/
  | directory
  /-- A file of bytes. -/
  | plain (content : Bytes)
  /-- A named pipe with what was written into it. -/
  | fifo (queue : Stream)
  /-- Device file of the link adapter. -/
  | device

/-- A tree of files. -/
structure Files where
  /-- The nodes below the root, latest first. -/
  nodes : List (FilePath × FileNode)
  /-- Directory in which relative names start. -/
  current : FilePath

namespace Files

variable (f : Files)

/-- The node at a place. -/
def node? (path : FilePath) : Option FileNode :=
  if path.isEmpty then some .directory else f.nodes.lookup path

/-- Put a node at a place. -/
def put (path : FilePath) (node : FileNode) : Files :=
  { f with nodes := (path, node) :: f.nodes.filter (·.1 != path) }

/-- Follow the parts of a name. The last part alone may be missing. -/
def follow (path : FilePath) : List String → Except Errno (FilePath × Option FileNode)
  | [] => .ok (path, f.node? path)
  | part :: rest =>
    match f.node? path with
    | none => .error ⟨2⟩
    | some .directory =>
      if part == "" || part == "." then follow path rest
      else if part == ".." then follow path.dropLast rest
      else
        match f.node? (path ++ [part]) with
        | none => if rest.isEmpty then .ok (path ++ [part], none) else .error ⟨2⟩
        | some _ => follow (path ++ [part]) rest
    | some _ => .error ⟨20⟩

/-- True for a name that the system cannot be asked for, since it has a zero character in it. -/
def isUnaskable (name : String) : Bool := name.toList.contains (Char.ofNat 0)

/-- The parts of a name between slashes. -/
def splitName (name : String) : List String := (name.toList.splitOn '/').map String.ofList

/-- The place that a name stands for, and what is there. -/
def resolve (name : String) : Except Errno (FilePath × Option FileNode) :=
  if name.isEmpty then .error ⟨2⟩
  else f.follow (if name.toList.head? = some '/' then [] else f.current) (splitName name)

/-- The file that a name stands for. -/
def find (name : String) : Except Errno (FilePath × FileNode) := do
  match ← f.resolve name with
  | (path, some node) => return (path, node)
  | (_, none) => .error ⟨2⟩

/-- The named pipe at a place; one without content for anything else. -/
def queue (path : FilePath) : Stream :=
  match f.node? path with
  | some (.fifo queue) => queue
  | _ => .empty

/-- Replace the content of the named pipe at a place. -/
def setQueue (path : FilePath) (queue : Stream) : Files := f.put path (.fifo queue)

end Files

end DetectorLink
