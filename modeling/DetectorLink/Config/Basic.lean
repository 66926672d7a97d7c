import DetectorLink.HardwareId
import DetectorLink.Link.Kind
import DetectorLink.ModuleType
import DetectorLink.Packet.Basic
import DetectorLink.Text.Blank

/-!
# Configurations

A configuration names the service, the link to open and the modules behind it. `validate` refuses
values that no link or module accepts and tells the first fault, in the order of the fields.
-/

namespace DetectorLink

/-- How much is logged. -/
inductive LogLevel where
  | trace
  | debug
  | info
  | warn
  | error
  deriving DecidableEq, Repr, Inhabited

/-- Name of a level in configurations. -/
def LogLevel.name : LogLevel → String
  | .trace => "trace"
  | .debug => "debug"
  | .info => "info"
  | .warn => "warn"
  | .error => "error"

/-- How commands reach a module. -/
inductive ModulePath where
  /-- The adapter addresses it. -/
  | direct
  /-- An aggregator relays framed commands to it. -/
  | lvds
  deriving DecidableEq, Repr, Inhabited

/-- Name of a path in configurations. -/
def ModulePath.name : ModulePath → String
  | .direct => "direct"
  | .lvds => "lvds"

/-- What all applications share. -/
structure ServiceConfig where
  /-- How much is logged. -/
  logLevel : LogLevel
  /-- Name of the application. -/
  name : String
  deriving DecidableEq, Repr

/-- The link to open. -/
structure LinkConfig where
  /-- Device, written as its kind asks. -/
  device : String
  /-- What stands behind the link. -/
  kind : LinkKind
  /-- Physical interface. -/
  interface : Interface
  /-- Size of a ring filled by a copier; 0 reads from the link itself. -/
  localBufferSize : Nat
  /-- How long one wait lasts, in milliseconds. -/
  waitTimeout : Nat
  deriving DecidableEq, Repr

/-- A module behind the link. -/
structure ModuleConfig where
  /-- Name in reports. -/
  name : String
  /-- Address. -/
  hardwareId : HardwareId
  /-- Expected type. -/
  moduleType : ModuleType
  /-- How commands reach it; derived from the type if not given. -/
  path? : Option ModulePath
  /-- How long an answer may take, in milliseconds. -/
  responseTimeout : Nat
  deriving DecidableEq, Repr

/-- A complete configuration. -/
structure Config where
  /-- What all applications share. -/
  service : ServiceConfig
  /-- The link to open. -/
  link : LinkConfig
  /-- The modules behind it. -/
  modules : List ModuleConfig
  deriving DecidableEq, Repr

/-- Why a configuration was not accepted. -/
inductive ConfigError where
  /-- There is no such file. -/
  | fileNotFound
  /-- The file is no configuration. -/
  | unreadable
  /-- A value is out of place. -/
  | invalid (reason : String)
  deriving DecidableEq, Repr

/-- Name of a configuration error. -/
def ConfigError.name : ConfigError → String
  | .fileNotFound => "FileNotFound"
  | .unreadable => "ParseError"
  | .invalid .. => "ValidationError"

/-- Wording of a configuration error. -/
def ConfigError.message : ConfigError → String
  | .fileNotFound => "Configuration file not found"
  | .unreadable => "Failed to parse configuration"
  | .invalid reason => s!"Configuration validation failed: {reason}"

namespace ServiceConfig

/-- Refuse a nameless service. -/
def validate (c : ServiceConfig) : Except ConfigError Unit :=
  if c.name.isEmpty then .error (.invalid "service_name cannot be empty") else .ok ()

end ServiceConfig

namespace LinkConfig

/-- Size of the ring if none is given. -/
def defaultBufferSize : Nat := 40 * 1024 * 1024

/-- Length of a wait if none is given. -/
def defaultWaitTimeout : Nat := 100

variable (c : LinkConfig)

/-- Refuse values that no link accepts. -/
def validate : Except ConfigError Unit :=
  if (Text.trim c.device).isEmpty then .error (.invalid "link.device cannot be empty")
  else if c.localBufferSize ≠ 0 ∧
      (c.localBufferSize % alignment ≠ 0 ∨ c.localBufferSize < Packet.maxLength) then
    .error (.invalid (s!"link.local_buffer_size must be 0 or a multiple of {alignment} of at " ++
      s!"least {Packet.maxLength} bytes, got {c.localBufferSize}"))
  else if c.waitTimeout = 0 then .error (.invalid "link.wait_timeout_ms must be positive")
  else if c.kind = .pipe ∧ !c.device.toList.contains ',' then
    .error (.invalid s!"pipe device must be '<rx>,<tx>', got '{c.device}'")
  else .ok ()

end LinkConfig

namespace ModuleConfig

/-- Length of the wait for an answer if none is given. -/
def defaultResponseTimeout : Nat := 1000

variable (c : ModuleConfig)

/-- How commands reach the module. -/
def path : ModulePath := c.path?.getD (if c.moduleType.isDsp then .direct else .lvds)

/-- Refuse values that no module accepts. -/
def validate : Except ConfigError Unit :=
  if c.name.isEmpty then .error (.invalid "module name cannot be empty")
  else if c.responseTimeout = 0 then
    .error (.invalid s!"module '{c.name}': response_timeout_ms must be positive")
  else .ok ()

/-- Refuse the first module that is not valid or has the name of one before it. -/
def validateAll (known : List String) : List ModuleConfig → Except ConfigError Unit
  | [] => .ok ()
  | c :: cs => do
    c.validate
    if known.contains c.name then .error (.invalid s!"duplicate module name '{c.name}'")
    else validateAll (c.name :: known) cs

end ModuleConfig

namespace Config

/-- Refuse the first fault, in the order of the fields. -/
def validate (c : Config) : Except ConfigError Unit := do
  c.service.validate
  c.link.validate
  ModuleConfig.validateAll [] c.modules

end Config

end DetectorLink
