import DetectorLink.Command
import DetectorLink.HardwareId
import DetectorLink.Link.Error
import DetectorLink.Packet.Error

/-!
# Module errors

What can go wrong while talking to a module, and why a parameter is refused.
-/

namespace DetectorLink

/-- Why a parameter was refused. -/
inductive ParameterError where
  /-- A field without bits. -/
  | zeroWidth
  /-- A field that leaves its word. -/
  | exceedsWord (shift width : Nat)
  /-- A section without a letter or digit. -/
  | badSection (label : Char)
  /-- A default with more bits than its field. -/
  | wideDefault (value width : Nat)
  /-- A name that is taken. -/
  | definedTwice
  /-- A name that stands for nothing. -/
  | unknown
  /-- A value with more bits than its field. -/
  | wideValue (value width : Nat)
  deriving DecidableEq, Repr

/-- Wording of a refusal. -/
def ParameterError.reason : ParameterError → String
  | .zeroWidth => "width must be positive"
  | .exceedsWord shift width => s!"shift {shift} + width {width} exceeds 32 bits"
  | .badSection label => s!"section '{label}' must be a letter or digit"
  | .wideDefault value width => s!"default {value} does not fit in {width} bits"
  | .definedTwice => "defined twice"
  | .unknown => "unknown parameter"
  | .wideValue value width => s!"value {value} does not fit in {width} bits"

/-- Why talking to a module failed. -/
inductive ModuleError where
  /-- Another command waits for its answer. -/
  | busy (module : HardwareId) (outstanding : Command)
  /-- The link failed. -/
  | link (cause : LinkError)
  /-- The packet could not be built. -/
  | codec (cause : CodecError)
  /-- A parameter was refused. -/
  | invalidParameter (name : String) (cause : ParameterError)
  deriving DecidableEq, Repr

/-- Name of a module error. -/
def ModuleError.name : ModuleError → String
  | .busy .. => "Busy"
  | .link .. => "Link"
  | .codec .. => "Codec"
  | .invalidParameter .. => "InvalidParam"

/-- Wording of a module error. -/
def ModuleError.message : ModuleError → String
  | .busy module outstanding => s!"Module {module.text} busy: {outstanding.name} still outstanding"
  | .link cause => s!"Link error: {cause.message}"
  | .codec cause => s!"Codec error: {cause.message}"
  | .invalidParameter name cause => s!"Invalid parameter '{name}': {cause.reason}"

end DetectorLink
