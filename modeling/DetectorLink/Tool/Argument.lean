import DetectorLink.Link.Kind
import DetectorLink.Text.Numeral

/-!
# Arguments

What can be given on the command line: options with a value, flags, and values told by their place.
`Readings.accept` checks the texts given for one argument and adds them to those read before.
-/

namespace DetectorLink

/-- Why a command line asks for no command. -/
inductive UsageError where
  /-- Nothing was given. -/
  | nothing
  /-- Help was asked for. -/
  | helpWanted
  /-- The version was asked for. -/
  | versionWanted
  /-- No command was given. -/
  | missingCommand
  /-- There is no such command. -/
  | unknownCommand
  /-- There is no such argument here. -/
  | unknownArgument
  /-- An argument was given twice. -/
  | repeated
  /-- A flag was given a value. -/
  | unexpectedValue
  /-- A value is missing or not one of those allowed. -/
  | badChoice
  /-- A value is no number of the required range. -/
  | badNumber
  /-- A required argument is missing. -/
  | missingArgument
  deriving DecidableEq, Repr

/-- Name of a usage error. -/
def UsageError.name : UsageError → String
  | nothing => "DisplayHelpOnMissingArgumentOrSubcommand"
  | helpWanted => "DisplayHelp"
  | versionWanted => "DisplayVersion"
  | missingCommand => "MissingSubcommand"
  | unknownCommand => "InvalidSubcommand"
  | unknownArgument => "UnknownArgument"
  | repeated => "ArgumentConflict"
  | unexpectedValue => "TooManyValues"
  | badChoice => "InvalidValue"
  | badNumber => "ValueValidation"
  | missingArgument => "MissingRequiredArgument"

/-- Wording of a usage error. -/
def UsageError.message : UsageError → String
  | nothing | helpWanted =>
    "usage: occ [--config FILE] [--device DEVICE] [--kind hardware|pipe|socket] [--debug] " ++
      "[--verbose] [--json] status | dump | discover | verify | read | write | reset"
  | versionWanted => "occ 0.1.0"
  | missingCommand => "a command is required"
  | unknownCommand => "there is no such command"
  | unknownArgument => "unexpected argument"
  | repeated => "an argument was given more than once"
  | unexpectedValue => "a flag takes no value"
  | badChoice => "a value is missing or not one of those allowed"
  | badNumber => "a value is no number of the required range"
  | missingArgument => "a required argument is missing"

/-- An argument. -/
inductive Argument where
  | config
  | device
  | kind
  | debug
  | verbose
  | json
  | help
  | version
  | count
  | timeout
  | bar
  | offset
  | values
  deriving DecidableEq, Repr

namespace Argument

/-- Name after two dashes. -/
def long? : Argument → Option String
  | config => some "config"
  | device => some "device"
  | kind => some "kind"
  | debug => some "debug"
  | verbose => some "verbose"
  | json => some "json"
  | help => some "help"
  | version => some "version"
  | count => some "count"
  | timeout => some "timeout"
  | bar | offset | values => none

/-- Letter after one dash. -/
def short? : Argument → Option Char
  | config => some 'c'
  | device => some 'd'
  | kind => some 'k'
  | verbose => some 'v'
  | help => some 'h'
  | version => some 'V'
  | count => some 'n'
  | timeout => some 't'
  | debug | json | bar | offset | values => none

/-- True if a value follows. -/
def takesValue : Argument → Bool
  | debug | verbose | json | help | version => false
  | _ => true

end Argument

/-- Wording of the refusal of a text that is no number. -/
def wordRefusal (text : String) (cause : NumeralError) : String :=
  s!"'{text}' is not a number: {cause.message}"

/-- A 32-bit number, decimal or marked as hexadecimal. -/
def readWord (text : String) : Except NumeralError Nat :=
  match Numeral.afterHexMark? text.toList with
  | some digits => Numeral.read 16 Numeral.wordBound digits
  | none => Numeral.read 10 Numeral.wordBound text.toList

/-- Arguments read. -/
structure Readings where
  /-- Configuration file. -/
  config : Option String
  /-- Device. -/
  device : Option String
  /-- Kind of link. -/
  kind : Option LinkKind
  /-- Only look on. -/
  debug : Bool
  /-- Log more. -/
  verbose : Bool
  /-- Print JSON. -/
  json : Bool
  /-- Number of packets or words. -/
  count : Option Nat
  /-- Milliseconds. -/
  timeout : Option Nat
  /-- Register window. -/
  bar : Option Nat
  /-- Register offset. -/
  offset : Option Nat
  /-- Words to write. -/
  values : List UInt32

namespace Readings

/-- Nothing read. -/
def empty : Readings := ⟨none, none, none, false, false, false, none, none, none, none, []⟩

variable (r : Readings)

/-- True if the argument was read before and may be given only once. -/
def isTaken : Argument → Bool
  | .config => r.config.isSome
  | .device => r.device.isSome
  | .kind => r.kind.isSome
  | .debug => r.debug
  | .verbose => r.verbose
  | .json => r.json
  | .count => r.count.isSome
  | .timeout => r.timeout.isSome
  | .bar => r.bar.isSome
  | .offset => r.offset.isSome
  | .help | .version | .values => false

/-- A number of 64 bits. -/
def long (text : String) : Except UsageError Nat :=
  (Numeral.read 10 Numeral.longBound text.toList).mapError fun _ => .badNumber

/-- A number of 32 bits. -/
def word (text : String) : Except UsageError Nat := (readWord text).mapError fun _ => .badNumber

/-- A kind of link. -/
def linkKind (text : String) : Except UsageError LinkKind :=
  match [LinkKind.hardware, .pipe, .socket].find? (·.name == text) with
  | some kind => .ok kind
  | none => .error .badChoice

/-- Add the value of an argument. -/
def addValue (a : Argument) (text : String) : Except UsageError Readings :=
  match a with
  | .config => if text.isEmpty then .error .badChoice else .ok { r with config := some text }
  | .device => .ok { r with device := some text }
  | .kind => (linkKind text).map fun kind => { r with kind := some kind }
  | .count => (long text).map fun n => { r with count := some n }
  | .timeout => (long text).map fun n => { r with timeout := some n }
  | .bar => (long text).map fun n => { r with bar := some n }
  | .offset => (word text).map fun n => { r with offset := some n }
  | .values => (word text).map fun n => { r with values := r.values ++ [UInt32.ofNat n] }
  | _ => .error .unexpectedValue

/-- Add a flag. A flag that asks for help or the version ends the reading. -/
def addFlag : Argument → Except UsageError Readings
  | .debug => .ok { r with debug := true }
  | .verbose => .ok { r with verbose := true }
  | .json => .ok { r with json := true }
  | .help => .error .helpWanted
  | .version => .error .versionWanted
  | _ => .error .badChoice

/-- Add an argument with the texts given for it. -/
def accept (a : Argument) (texts : List String) : Except UsageError Readings :=
  if a.takesValue && texts.isEmpty then .error .badChoice
  else if r.isTaken a then .error .repeated
  else if a.takesValue then texts.foldlM (fun r text => r.addValue a text) r
  else r.addFlag a

end Readings

end DetectorLink
