import DetectorLink.Text.Json
import DetectorLink.Tool.Argument
import DetectorLink.Tool.Command

/-!
# Command lines

A command line is read at two levels: general arguments up to the name of a command, then those of
the command, among which the general ones may be repeated. The values of an argument are checked
when the next argument begins, so a fault in the writing of an argument wins over a bad value
before it.
-/

namespace DetectorLink

/-- What may be given at a level. -/
structure Grammar where
  /-- Options and flags. -/
  named : List Argument
  /-- Values told by their place; the last one may take any number of them. -/
  places : List Argument
  /-- Names of commands. -/
  commands : List String

namespace Grammar

/-- Options and flags of both levels. -/
def general : List Argument := [.config, .device, .kind, .debug, .verbose, .json, .help]

/-- The level before the command. -/
def top : Grammar where
  named := .version :: general
  places := []
  commands := ["status", "dump", "discover", "verify", "read", "write", "reset", "help"]

/-- The level after a command. -/
def ofCommand (name : String) : Grammar :=
  let (named, places) : List Argument × List Argument := match name with
    | "dump" => ([.count, .timeout], [])
    | "discover" => ([.timeout], [])
    | "read" => ([.count], [.bar, .offset])
    | "write" => ([], [.bar, .offset, .values])
    | _ => ([], [])
  ⟨named ++ general, places, []⟩

variable (g : Grammar)

/-- The argument of a long name. -/
def long? (name : String) : Option Argument := g.named.find? (·.long? == some name)

/-- The argument of a letter. -/
def short? (letter : Char) : Option Argument := g.named.find? (·.short? == some letter)

/-- Why a text has no place here. -/
def misplaced (trailing : Bool) (text : String) : UsageError :=
  if g.commands.isEmpty || (trailing && g.commands.contains text) then .unknownArgument
  else .unknownCommand

end Grammar

/-- How far the reading of a level got. -/
structure Scan where
  /-- Arguments checked. -/
  readings : Readings
  /-- The argument that is still open, with its texts. -/
  pending : Option (Argument × List String)
  /-- The open argument waits for its value. -/
  awaiting : Bool
  /-- Number of values told by their place. -/
  placed : Nat
  /-- Only values follow. -/
  trailing : Bool
  /-- Something was given. -/
  given : Bool

namespace Scan

/-- Nothing read. -/
def start : Scan := ⟨.empty, none, false, 0, false, false⟩

variable (s : Scan)

/-- Check the open argument. -/
def settle : Except UsageError Scan :=
  match s.pending with
  | none => .ok s
  | some (a, texts) =>
    (s.readings.accept a texts).map fun readings => { s with readings, pending := none }

/-- Take an argument with all its texts. -/
def take (a : Argument) (texts : List String) : Except UsageError Scan := do
  let s ← s.settle
  let readings ← s.readings.accept a texts
  return { s with readings, awaiting := false, given := true }

/-- Open an argument whose value follows. -/
def expect (a : Argument) : Except UsageError Scan := do
  let s ← s.settle
  return { s with pending := some (a, []), awaiting := true, given := true }

/-- Give the open argument its value. -/
def supply (text : String) : Scan :=
  { s with
    pending := s.pending.map fun (a, texts) => (a, texts ++ [text])
    awaiting := false }

/-- Text before and after the first equals sign. -/
def splitEquals (cs : List Char) : String × Option String :=
  match cs.dropWhile (· ≠ '=') with
  | [] => (String.ofList cs, none)
  | _ :: value => (String.ofList (cs.takeWhile (· ≠ '=')), some (String.ofList value))

variable (g : Grammar)

/-- Take a long name, perhaps with its value after an equals sign. -/
def long (body : List Char) : Except UsageError Scan :=
  let (name, value) := splitEquals body
  match g.long? name, value with
  | none, _ => .error .unknownArgument
  | some a, some value => if a.takesValue then s.take a [value] else .error .unexpectedValue
  | some a, none => if a.takesValue then s.expect a else s.take a []

/-- Take letters: flags, up to an option, whose value is what follows it. -/
def short : List Char → Scan → Except UsageError Scan
  | [], s => .ok s
  | c :: cs, s =>
    match g.short? c with
    | none => .error .unknownArgument
    | some a =>
      if a.takesValue then
        match cs with
        | [] => s.expect a
        | '=' :: value => s.take a [String.ofList value]
        | value => s.take a [String.ofList value]
      else do short cs (← s.take a [])

/-- Take a value told by its place. -/
def place (text : String) : Except UsageError Scan :=
  match g.places[s.placed]? with
  | none => .error (g.misplaced s.trailing text)
  | some .values => do
    match s.pending with
    | some (.values, _) => return s.supply text
    | _ => return { (← s.settle) with pending := some (.values, [text]) }
  | some a => do
    return { (← s.settle) with pending := some (a, [text]), placed := s.placed + 1 }

/-- Take one text. -/
def word (text : String) : Except UsageError Scan :=
  if s.trailing then s.place g text
  else match text.toList with
    | ['-', '-'] => .ok { s with trailing := true }
    | '-' :: '-' :: body => s.long g body
    | '-' :: c :: letters => s.short g (c :: letters)
    | _ => if s.awaiting then .ok (s.supply text) else s.place g text

/-- Read texts up to the name of a command, which is answered with the texts after it. -/
def run : List String → Scan → Except UsageError (Scan × Option (String × List String))
  | [], s => .ok (s, none)
  | text :: rest, s =>
    if !s.trailing && !s.awaiting && g.commands.contains text then .ok (s, some (text, rest))
    else do run rest (← s.word g text)

end Scan

/-- A command line that was understood. -/
structure Arguments where
  /-- Configuration file. -/
  config : Option String
  /-- Device in place of the configured one. -/
  device : Option String
  /-- Kind of link in place of the configured one. -/
  kind : Option LinkKind
  /-- Only look on. -/
  debug : Bool
  /-- Log more. -/
  verbose : Bool
  /-- Print JSON. -/
  json : Bool
  /-- The command. -/
  command : ToolCommand
  deriving DecidableEq, Repr

namespace Arguments

/-- The command line as JSON, for logs. -/
def toJson (a : Arguments) : Json :=
  .object [("command", .str a.command.text), ("debug", .bool a.debug),
    ("verbose", .bool a.verbose), ("json", .bool a.json),
    ("device", Json.ofOption .str a.device), ("kind", Json.ofOption (.str ·.title) a.kind),
    ("config", Json.ofOption .str a.config)]

/-- Milliseconds for which a discovery listens if nothing else is asked for. -/
def discoveryWindow : Nat := 2000

/-- An argument that must be given. -/
def required {α : Type} : Option α → Except UsageError α
  | some a => .ok a
  | none => .error .missingArgument

/-- The command of a name with its arguments. -/
def commandOf (name : String) (r : Readings) : Except UsageError ToolCommand :=
  match name with
  | "status" => .ok .status
  | "dump" => .ok (.dump r.count r.timeout)
  | "discover" => .ok (.discover (r.timeout.getD discoveryWindow))
  | "verify" => .ok .verify
  | "read" => do return .read (← required r.bar) (← required r.offset) (r.count.getD 1)
  | "write" => do
    let bar ← required r.bar
    let offset ← required r.offset
    if r.values.isEmpty then .error .missingArgument else return .write bar offset r.values
  | "reset" => .ok .reset
  | _ => .error .unknownCommand

/-- Help is asked for by the name of a command, or of none. -/
def helpFor : List String → UsageError
  | [] => .helpWanted
  | [name] => if Grammar.top.commands.contains name then .helpWanted else .unknownCommand
  | _ => .unknownCommand

/-- Read the arguments of a command. -/
def readCommand (name : String) (texts : List String) : Except UsageError (ToolCommand × Readings) := do
  let (s, _) ← Scan.run (.ofCommand name) texts .start
  let s ← s.settle
  return (← commandOf name s.readings, s.readings)

/-- Read a command line. What is given with the command counts before what is given in front. -/
def parse (texts : List String) : Except UsageError Arguments := do
  match ← Scan.run .top texts .start with
  | (_, some ("help", rest)) => .error (helpFor rest)
  | (s, some (name, rest)) =>
    let (command, inner) ← readCommand name rest
    let outer := (← s.settle).readings
    return {
      config := inner.config <|> outer.config
      device := inner.device <|> outer.device
      kind := inner.kind <|> outer.kind
      debug := inner.debug || outer.debug
      verbose := inner.verbose || outer.verbose
      json := inner.json || outer.json
      command }
  | (s, none) =>
    let s ← s.settle
    .error (if s.given then .missingCommand else .nothing)

end Arguments

end DetectorLink
