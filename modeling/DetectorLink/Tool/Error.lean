import DetectorLink.Config.Basic
import DetectorLink.Module.Error

/-!
# Tool errors

A command of the tool fails with the error of the part that failed.
-/

namespace DetectorLink

/-- Why a command of the tool failed. -/
inductive ToolError where
  /-- The configuration. -/
  | config (cause : ConfigError)
  /-- The link. -/
  | link (cause : LinkError)
  /-- The talk with a module. -/
  | module (cause : ModuleError)
  deriving DecidableEq, Repr

/-- Name of the part that failed. -/
def ToolError.name : ToolError → String
  | .config .. => "Config"
  | .link .. => "Link"
  | .module .. => "Module"

/-- Name of the error of that part. -/
def ToolError.cause : ToolError → String
  | .config cause => cause.name
  | .link cause => cause.name
  | .module cause => cause.name

/-- Wording of a tool error. -/
def ToolError.message : ToolError → String
  | .config cause => s!"Config error: {cause.message}"
  | .link cause => s!"Link error: {cause.message}"
  | .module cause => s!"Module error: {cause.message}"

end DetectorLink
