import DetectorLink.Config.Basic
import DetectorLink.Text.Json

/-!
# Writing configurations

A configuration as data, with every default filled in.
-/

namespace DetectorLink

/-- The fields that all applications share. -/
def ServiceConfig.toJson (c : ServiceConfig) : Json :=
  .object [("log_level", .str c.logLevel.name), ("service_name", .str c.name)]

/-- The link to open. -/
def LinkConfig.toJson (c : LinkConfig) : Json :=
  .object [("device", .str c.device), ("kind", .str c.kind.name),
    ("interface", .str c.interface.name), ("local_buffer_size", .nat c.localBufferSize),
    ("wait_timeout_ms", .nat c.waitTimeout)]

/-- A module. -/
def ModuleConfig.toJson (c : ModuleConfig) : Json :=
  .object [("name", .str c.name), ("hardware_id", .str c.hardwareId.text),
    ("module_type", .byte c.moduleType.toByte),
    ("link", Json.ofOption (fun p => .str p.name) c.path?),
    ("response_timeout_ms", .nat c.responseTimeout)]

/-- A configuration. -/
def Config.toJson (c : Config) : Json :=
  .object [("shared", c.service.toJson), ("link", c.link.toJson),
    ("modules", .array (c.modules.map ModuleConfig.toJson))]

end DetectorLink
