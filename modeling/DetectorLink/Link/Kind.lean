/-!
# Kinds of links

What stands behind a link, and which physical interface the adapter is reset to.
-/

namespace DetectorLink

/-- What stands behind a link. -/
inductive LinkKind where
  /-- Device file of the link adapter's driver. -/
  | hardware
  /-- Pair of named pipes. -/
  | pipe
  /-- Listener that serves one client at a time. -/
  | socket
  deriving DecidableEq, Repr

/-- Name of a kind in configurations. -/
def LinkKind.name : LinkKind → String
  | .hardware => "hardware"
  | .pipe => "pipe"
  | .socket => "socket"

/-- Name of a kind in messages. -/
def LinkKind.title : LinkKind → String
  | .hardware => "Hardware"
  | .pipe => "Pipe"
  | .socket => "Socket"

/-- Physical interface of the adapter. -/
inductive Interface where
  /-- Copper link. -/
  | lvds
  /-- Optical fibre. -/
  | optical
  /-- Simulated link over a socket. -/
  | socket
  deriving DecidableEq, Repr

/-- Name of an interface in configurations and in JSON. -/
def Interface.name : Interface → String
  | .lvds => "lvds"
  | .optical => "optical"
  | .socket => "socket"

/-- Name of an interface in reports. -/
def Interface.title : Interface → String
  | .lvds => "Lvds"
  | .optical => "Optical"
  | .socket => "Socket"

end DetectorLink
