import DetectorLink.Module.Transition

/-!
# Verification of a module

A module is verified in two stages: its answer to a discovery confirms the type, its answer to a
version request the version. A rejection or a missing answer ends the verification.
-/

namespace DetectorLink

/-- How far the verification of a module got. -/
inductive VerifyState where
  /-- Nothing is confirmed. -/
  | init
  /-- The type is confirmed. -/
  | typeOk
  /-- Type and version are confirmed. -/
  | typeVersionOk
  /-- The module has another type. -/
  | typeError
  /-- The version is not supported. -/
  | versionError
  /-- A verification command was not answered. -/
  | timeout
  deriving DecidableEq, Repr, Inhabited

namespace VerifyState

/-- True once the verification ended. -/
def isFinal : VerifyState → Bool
  | init | typeOk => false
  | _ => true

/-- Name in JSON. -/
def name : VerifyState → String
  | init => "init"
  | typeOk => "type_ok"
  | typeVersionOk => "type_version_ok"
  | typeError => "type_error"
  | versionError => "version_error"
  | timeout => "timeout"

/-- Name in reports. -/
def title : VerifyState → String
  | init => "Init"
  | typeOk => "TypeOk"
  | typeVersionOk => "TypeVersionOk"
  | typeError => "TypeError"
  | versionError => "VersionError"
  | timeout => "Timeout"

end VerifyState

/-- What happens to a verification. -/
inductive VerifyAction where
  /-- The type is the expected one. -/
  | discoverOk
  /-- The type is another one. -/
  | discoverErr
  /-- The version is accepted. -/
  | versionOk
  /-- The version is rejected. -/
  | versionErr
  /-- A command was not answered. -/
  | timeout
  deriving DecidableEq, Repr

/-- Name in JSON. -/
def VerifyAction.name : VerifyAction → String
  | discoverOk => "discover_ok"
  | discoverErr => "discover_err"
  | versionOk => "version_ok"
  | versionErr => "version_err"
  | timeout => "timeout"

/-- A verification under way. -/
abbrev Verification := Machine VerifyState VerifyAction

/-- A verification that has not begun. -/
def Verification.start : Verification :=
  Machine.initial .init
    |>.add .init .discoverOk .typeOk
    |>.add .init .discoverErr .typeError
    |>.add .init .timeout .timeout
    |>.add .typeOk .versionOk .typeVersionOk
    |>.add .typeOk .versionErr .versionError
    |>.add .typeOk .timeout .timeout

end DetectorLink
