import DetectorLink.Text.Json
import DetectorLink.Tool.Error

/-!
# Failures as JSON

Every error is written as its name and its wording; one that passes on the error of another part
names that too. A configuration file that cannot be read has no wording of its own.
-/

namespace DetectorLink

/-- A name and a wording as JSON. -/
def Json.failure (name message : String) : Json :=
  .object [("error", .str name), ("message", .str message)]

/-- A packet error as JSON. -/
def CodecError.toJson (e : CodecError) : Json := .failure e.name e.message

/-- A link error as JSON. -/
def LinkError.toJson (e : LinkError) : Json := .failure e.name e.message

/-- Name of the error that a module error passes on. -/
def ModuleError.inner? : ModuleError → Option String
  | .link cause => some cause.name
  | .codec cause => some cause.name
  | _ => none

/-- A module error as JSON. -/
def ModuleError.toJson (e : ModuleError) : Json :=
  .object ([("error", .str e.name), ("message", .str e.message)] ++
    (e.inner?.map fun name => ("inner", Json.str name)).toList)

/-- A configuration error as JSON. -/
def ConfigError.toJson (e : ConfigError) : Json :=
  .object (("error", .str e.name) ::
    if e = .unreadable then [] else [("message", .str e.message)])

/-- A tool error as the entries of an object. -/
def ToolError.entries (e : ToolError) : List (String × Json) :=
  [("error", .str e.name), ("inner", .str e.cause)] ++
    if e = .config .unreadable then [] else [("message", .str e.message)]

end DetectorLink
