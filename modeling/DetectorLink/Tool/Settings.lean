import DetectorLink.Config.Decode
import DetectorLink.Tool.Arguments
import DetectorLink.Tool.Run

/-!
# Settings from the command line

The configuration comes from the file that the command line names, else from the default file if it
exists, else from defaults; what else the command line says overrides it, and the result is
validated.
-/

namespace DetectorLink

namespace Config

/-- Configuration file that is read if none is named. -/
def defaultPath : String := "/etc/occ/occ.toml"

/-- The configuration without a file. -/
def fallback : Config where
  service := ⟨.info, "occ"⟩
  link := ⟨"/dev/snsocb0", .hardware, .optical, 0, 100⟩
  modules := []

/-- The configuration of a named file, or of the default one. -/
def ofFiles (files : Files) : Option String → Except ConfigError Config
  | some name => load files name
  | none =>
    match files.find defaultPath with
    | .ok _ => load files defaultPath
    | .error _ => .ok fallback

/-- Refuse a configuration that no link can be opened with. -/
def check (c : Config) : Except ConfigError Unit := do
  c.validate
  if c.link.kind = .socket ∧ c.link.interface ≠ .socket then
    .error (.invalid "socket links need interface = \"socket\"")

end Config

/-- Change the kind of link, and the interface with it where they do not go together. -/
def LinkConfig.withKind (kind : LinkKind) (c : LinkConfig) : LinkConfig :=
  { c with
    kind
    interface :=
      if kind = .socket then .socket
      else if c.interface = .socket then .optical
      else c.interface }

namespace Arguments

variable (a : Arguments)

/-- What the command line says about the link. -/
def overrideLink (c : LinkConfig) : LinkConfig :=
  let c := match a.device with
    | some device => { c with device }
    | none => c
  match a.kind with
  | some kind => c.withKind kind
  | none => c

/-- What the command line says about what all applications share. -/
def overrideService (c : ServiceConfig) : ServiceConfig :=
  if a.verbose then { c with logLevel := .debug } else c

/-- What the command line says over a configuration. -/
def override (c : Config) : Config :=
  { c with service := a.overrideService c.service, link := a.overrideLink c.link }

/-- The configuration to work with. -/
def resolve (files : Files) : Except ConfigError Config := do
  let config := a.override (← Config.ofFiles files a.config)
  config.check
  return config

/-- The settings of a command that takes at most the given rounds of waiting. -/
def settings (config : Config) (rounds : Nat) : Settings := ⟨config, a.debug, a.json, rounds⟩

end Arguments

/-- Carry out a command line on a host. -/
def Arguments.run {δ : Type} [Driver δ] (a : Arguments) (config : Config) (rounds : Nat) :
    SessionM δ Unit := Session.run (a.settings config rounds) a.command

end DetectorLink
