import DetectorLink.Config.Basic
import DetectorLink.Link.Opening
import DetectorLink.Tool.Effect
import DetectorLink.Tool.Report

/-!
# Sessions of the tool

A command of the tool works on a host and prints a report. The simple commands are here: they open
the link, ask it one thing and print the answer.
-/

namespace DetectorLink

/-- What all commands share. -/
structure Settings where
  /-- The configuration. -/
  config : Config
  /-- Only look on. -/
  debug : Bool
  /-- Print JSON. -/
  json : Bool
  /-- How many rounds of waiting a command may take before it is interrupted. -/
  rounds : Nat

/-- How long one wait lasts, in milliseconds. -/
def Settings.poll (settings : Settings) : Nat := settings.config.link.waitTimeout

/-- A host and what was printed. -/
structure Session (δ : Type) where
  /-- The host. -/
  host : Host δ
  /-- Printed text. -/
  output : String

/-- A command of the tool at work. -/
abbrev SessionM (δ α : Type) := ToolM (Session δ) α

namespace Session

variable {δ α : Type}

/-- A session that has printed nothing. -/
def start (host : Host δ) : Session δ := ⟨host, ""⟩

/-- Print text. -/
def print (text : String) : SessionM δ Unit :=
  .change fun s => { s with output := s.output ++ text }

/-- Print lines. -/
def printLines (lines : List String) : SessionM δ Unit :=
  print (String.join (lines.map (· ++ "\n")))

/-- Print JSON over several lines. -/
def printJson (j : Json) : SessionM δ Unit := printLines [j.pretty 0]

/-- Print a report as the settings ask. -/
def report (settings : Settings) (j : Json) (lines : List String) : SessionM δ Unit :=
  if settings.json then printJson j else printLines lines

/-- Work on the host. -/
def onHost (f : Host δ → Except LinkError α × Host δ) : SessionM δ α :=
  .ofFun fun s => let (r, host) := f s.host; (r.mapError .link, { s with host })

variable [Driver δ]

/-- Open the configured link. -/
def openLink (settings : Settings) : SessionM δ Link :=
  let link := settings.config.link
  onHost fun host =>
    if settings.debug then Link.openDebug link.device link.kind host
    else Link.openRegular link.device link.kind link.interface host

/-- Work with an open link. -/
def onLink (link : Link) (m : LinkIO δ α) : SessionM δ (α × Link) :=
  onHost fun host =>
    let (r, (link, host)) := m.exec (link, host)
    (r.map (·, link), host)

variable (settings : Settings)

/-- Print the status of the board. -/
def status : SessionM δ Unit := do
  let link ← openLink settings
  let (status, _) ← onLink link Link.status
  report settings status.toJson status.lines

/-- Print register words. -/
def readRegisters (bar offset count : Nat) : SessionM δ Unit := do
  let link ← openLink settings
  let (words, _) ← onLink link (Link.registerRead bar offset count)
  let values := RegisterValue.sequence offset words
  report settings (.array (values.map RegisterValue.toJson)) (values.map (RegisterValue.line bar))

/-- Write register words. -/
def writeRegisters (bar offset : Nat) (words : List UInt32) : SessionM δ Unit := do
  let link ← openLink settings
  let _ ← onLink link (Link.registerWrite bar offset words)

/-- Reset the link. -/
def resetLink : SessionM δ Unit := do
  let link ← openLink settings
  let _ ← onLink link Link.reset

end Session

end DetectorLink
