import DetectorLink.Module.Verification
import DetectorLink.Packet.Basic

/-!
# Answers of a module

A response handler takes the answers of one kind of module and tells what each of them means for
the verification.
-/

namespace DetectorLink

/-- Something that takes the answers of a module. -/
class ResponseHandler (η : Type) where
  /-- Take the answer to a command. -/
  respond : Command → Packet → η → Option VerifyAction × η

/-- A handler for which every answer means the same. -/
structure ConstantHandler where
  /-- The meaning. -/
  action : Option VerifyAction
  deriving DecidableEq, Repr

instance : ResponseHandler ConstantHandler := ⟨fun _ _ h => (h.action, h)⟩

/-- What became of a command. -/
inductive Outcome where
  /-- The module answered. -/
  | response (command : Command) (action : Option VerifyAction)
  /-- The time for the answer passed. -/
  | timeout (command : Command)
  deriving DecidableEq, Repr

end DetectorLink
