import DetectorLink.Text.Numeral

/-!
# Command codes

A command packet names its command by one byte. Codes without a name are kept as they are, so that
every byte survives being decoded and encoded.
-/

namespace DetectorLink

/-- What a command packet asks for, or which command a response answers. -/
inductive Command where
  /-- Read the hardware and firmware version. -/
  | readVersion
  /-- Read back the active configuration. -/
  | readConfig
  /-- Read the status registers. -/
  | readStatus
  /-- Read the temperature. -/
  | readTemperature
  /-- Read the status counters. -/
  | readStatusCounters
  /-- Clear the status counters. -/
  | resetStatusCounters
  /-- Write a full configuration block. -/
  | writeConfig
  /-- A previous command was refused. -/
  | nack
  /-- A previous command was accepted. -/
  | ack
  /-- Data for the high voltage controller. -/
  | hvSend
  /-- Data from the high voltage controller. -/
  | hvRecv
  /-- Enumerate the modules behind a link. -/
  | discover
  /-- Reset a module. -/
  | reset
  /-- Start acquisition. -/
  | start
  /-- Stop acquisition. -/
  | stop
  /-- Synchronise time. -/
  | tsync
  /-- Information from the real-time data link. -/
  | rtdl
  /-- Packet flagged as corrupt by the link adapter. -/
  | badPacket
  /-- Code without a name. -/
  | unknown (code : UInt8)
  deriving DecidableEq, Repr, Inhabited

namespace Command

/-- The command a byte stands for. -/
def ofByte : UInt8 → Command
  | 0x20 => readVersion
  | 0x21 => readConfig
  | 0x22 => readStatus
  | 0x23 => readTemperature
  | 0x24 => readStatusCounters
  | 0x25 => resetStatusCounters
  | 0x30 => writeConfig
  | 0x40 => nack
  | 0x41 => ack
  | 0x50 => hvSend
  | 0x51 => hvRecv
  | 0x80 => discover
  | 0x81 => reset
  | 0x82 => start
  | 0x83 => stop
  | 0x84 => tsync
  | 0x85 => rtdl
  | 0xFF => badPacket
  | code => unknown code

/-- The byte that stands for a command. -/
def toByte : Command → UInt8
  | readVersion => 0x20
  | readConfig => 0x21
  | readStatus => 0x22
  | readTemperature => 0x23
  | readStatusCounters => 0x24
  | resetStatusCounters => 0x25
  | writeConfig => 0x30
  | nack => 0x40
  | ack => 0x41
  | hvSend => 0x50
  | hvRecv => 0x51
  | discover => 0x80
  | reset => 0x81
  | start => 0x82
  | stop => 0x83
  | tsync => 0x84
  | rtdl => 0x85
  | badPacket => 0xFF
  | unknown code => code

/-- Every byte survives being decoded. -/
@[simp] theorem toByte_ofByte (b : UInt8) : (ofByte b).toByte = b := by
  unfold ofByte; split <;> rfl

/-- Name used in reports; a code without a name is shown in hexadecimal. -/
def name : Command → String
  | readVersion => "ReadVersion"
  | readConfig => "ReadConfig"
  | readStatus => "ReadStatus"
  | readTemperature => "ReadTemperature"
  | readStatusCounters => "ReadStatusCounters"
  | resetStatusCounters => "ResetStatusCounters"
  | writeConfig => "WriteConfig"
  | nack => "Nack"
  | ack => "Ack"
  | hvSend => "HvSend"
  | hvRecv => "HvRecv"
  | discover => "Discover"
  | reset => "Reset"
  | start => "Start"
  | stop => "Stop"
  | tsync => "Tsync"
  | rtdl => "Rtdl"
  | badPacket => "BadPacket"
  | unknown code => "0x" ++ Numeral.hexUpper 2 code.toNat

end Command

end DetectorLink
