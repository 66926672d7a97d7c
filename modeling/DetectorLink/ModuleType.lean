import DetectorLink.Text.Numeral

/-!
# Module types

Responses carry the type of the answering front-end module in one byte. As with commands, a byte
without a name is kept as it is.
-/

namespace DetectorLink

/-- Family of a front-end module. -/
inductive ModuleType where
  /-- Readout card. -/
  | roc
  /-- Anger camera readout card. -/
  | aroc
  /-- Helium tube readout card. -/
  | hroc
  /-- Readout card of a proportional chamber. -/
  | bnlRoc
  /-- Crossed-fibre readout card. -/
  | croc
  /-- Integrating readout card. -/
  | iroc
  /-- Two-dimensional readout card. -/
  | biDimRoc
  /-- Readout card with converters. -/
  | adcRoc
  /-- Detector signal processor, which aggregates a link. -/
  | dsp
  /-- Detector signal processor, wide variant. -/
  | dspW
  /-- Small-angle scattering readout card. -/
  | sansRoc
  /-- Anger camera position calculator. -/
  | acpc
  /-- Front-end module of a position calculator. -/
  | acpcFem
  /-- Flat field correction module. -/
  | ffc
  /-- Front-end module. -/
  | fem
  /-- Type without a name. -/
  | unknown (code : UInt8)
  deriving DecidableEq, Repr, Inhabited

namespace ModuleType

/-- The module type a byte stands for. -/
def ofByte : UInt8 → ModuleType
  | 0x20 => roc
  | 0x21 => aroc
  | 0x22 => hroc
  | 0x25 => bnlRoc
  | 0x29 => croc
  | 0x2A => iroc
  | 0x2B => biDimRoc
  | 0x2D => adcRoc
  | 0x30 => dsp
  | 0x31 => dspW
  | 0x40 => sansRoc
  | 0xA0 => acpc
  | 0xA1 => acpcFem
  | 0xA2 => ffc
  | 0xAA => fem
  | code => unknown code

/-- The byte that stands for a module type. -/
def toByte : ModuleType → UInt8
  | roc => 0x20
  | aroc => 0x21
  | hroc => 0x22
  | bnlRoc => 0x25
  | croc => 0x29
  | iroc => 0x2A
  | biDimRoc => 0x2B
  | adcRoc => 0x2D
  | dsp => 0x30
  | dspW => 0x31
  | sansRoc => 0x40
  | acpc => 0xA0
  | acpcFem => 0xA1
  | ffc => 0xA2
  | fem => 0xAA
  | unknown code => code

/-- Every byte survives being decoded. -/
@[simp] theorem toByte_ofByte (b : UInt8) : (ofByte b).toByte = b := by
  unfold ofByte; split <;> rfl

/-- Name used in reports. -/
def name : ModuleType → String
  | roc => "roc"
  | aroc => "aroc"
  | hroc => "hroc"
  | bnlRoc => "bnlroc"
  | croc => "croc"
  | iroc => "iroc"
  | biDimRoc => "bidimroc"
  | adcRoc => "adcroc"
  | dsp => "dsp"
  | dspW => "dspw"
  | sansRoc => "sansroc"
  | acpc => "acpc"
  | acpcFem => "acpcfem"
  | ffc => "ffc"
  | fem => "fem"
  | unknown code => "unknown(0x" ++ Numeral.hexUpper 2 code.toNat ++ ")"

/-- True for the modules that are addressed without pass-through. -/
def isDsp : ModuleType → Bool
  | dsp | dspW => true
  | _ => false

end ModuleType

end DetectorLink
