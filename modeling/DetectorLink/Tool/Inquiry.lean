import DetectorLink.Dispatch
import DetectorLink.Module.Commander
import DetectorLink.Module.Discovery
import DetectorLink.Module.Dsp
import DetectorLink.Ring.Direct
import DetectorLink.Tool.Session

/-!
# Inquiries

An inquiry asks modules and listens to their answers for a limited time. Discovery asks everyone
and lists who answers; verification asks the configured aggregators for their type and then, those
whose type matched, for their version.
-/

namespace DetectorLink

/-- State of an inquiry: counters, a link read through a ring, and what the answers told. -/
abbrev Inquiry (δ X : Type) := DispatchStats × ((DirectRing × (Link × Host δ)) × X)

namespace Inquiry

variable {δ X : Type} [Driver δ]

/-- The ring and its link, within what handlers work on. -/
def ringLink : Part ((DirectRing × (Link × Host δ)) × X) (Link × Host δ) :=
  Part.first.comp .second

/-- The clock of an inquiry. -/
def clock : Clock ((DirectRing × (Link × Host δ)) × X) := Link.clock.within ringLink

/-- What an inquiry reads. -/
def source : Source ((DirectRing × (Link × Host δ)) × X) :=
  (DirectRing.source Link.source).within .first

/-- What an inquiry sends. -/
def sink : Sink (DirectRing × (Link × Host δ)) := Link.sink.within .second

/-- Dispatch windows until `deadline` or until `done` holds, for at most the given rounds. After
each of them `settle` draws the consequences of the time that passed. -/
def pump (handler : Handler ((DirectRing × (Link × Host δ)) × X)) (poll deadline : Nat)
    (done : X → Bool) (settle : Nat → X → X) : Nat → LinkM (Inquiry δ X) Unit
  | 0 => pure ()
  | rounds + 1 => do
    let (_, s) ← LinkM.read
    let left := deadline - clock.now s
    if done s.2 || left = 0 then return
    match ← LinkM.outcome (Dispatch.once source [handler] (some (min left poll))) with
    | .ok 0 => LinkM.change fun (stats, s) => (stats, clock.sleep 1 s)
    | .ok _ | .error .timeout => pure ()
    | .error e => .fail e
    LinkM.change fun (stats, s) => (stats, (s.1, settle (clock.now s) s.2))
    pump handler poll deadline done settle rounds

/-- Open the link, carry out an inquiry and turn reception off again. An inquiry that fails leaves
it on. -/
def conduct (settings : Settings) (initial : X) (inquiry : ToolM (Inquiry δ X) Unit) :
    SessionM δ X := do
  let link ← Session.openLink settings
  let (_, link) ← Session.onLink link (Link.enableReceive true)
  let (status, link) ← Session.onLink link Link.status
  let (link, result) ← .ofFun fun s =>
    let ring := DirectRing.ofSize status.regionSize
    let (r, (_, ((_, (link, host)), result))) :=
      inquiry.exec (.zero, ((ring, (link, s.host)), initial))
    (r.map fun _ => (link, result), { s with host })
  let _ ← Session.onLink link (Link.enableReceive false)
  return result

end Inquiry

/-! ## Discovery -/

namespace Discovery

variable {δ : Type} [Driver δ]

/-- Discovery as a handler of windows. It marks nothing. -/
def handler : Handler ((DirectRing × (Link × Host δ)) × Discovery) := fun reservation (s, d) =>
  let (d, s) := Discovery.handleAll Inquiry.sink reservation.packetList d s
  ([], (s, d))

/-- Ask everyone and listen for `window` milliseconds. -/
def inquiry (settings : Settings) (window : Nat) : ToolM (Inquiry δ Discovery) Unit := do
  let deadline ← .ofFun fun (stats, (s, _)) =>
    let deadline := Inquiry.clock.now (s, ()) + window
    let (r, d, s) := Discovery.start Inquiry.sink s
    ((r.map fun _ => deadline).mapError .module, (stats, (s, d)))
  .ofLink (Inquiry.pump handler settings.poll deadline (fun _ => false) (fun _ d => d)
    settings.rounds)

end Discovery

/-- Print the modules that answer within `window` milliseconds. -/
def Session.discover {δ : Type} [Driver δ] (settings : Settings) (window : Nat) :
    SessionM δ Unit := do
  let found ← Inquiry.conduct settings Discovery.empty (Discovery.inquiry settings window)
  report settings (.array (found.modules.map DiscoveredModule.toJson))
    (found.modules.map DiscoveredModule.line)

/-! ## Verification -/

/-- Commanders of the aggregators that are verified, in the order of the configuration. -/
abbrev Candidates := List (Commander DspHandler)

namespace Candidates

variable {δ : Type} [Driver δ]

/-- The configured aggregators; other modules are not verified. -/
def ofConfig (config : Config) : Candidates :=
  (config.modules.filter (·.moduleType.isDsp)).map fun m => .fresh m .fresh

/-- Milliseconds to listen beyond the time an answer may take. -/
def margin : Nat := 100

/-- True if a command is due: the version is asked for once the type matched. -/
def isDue (command : Command) (c : Commander DspHandler) : Bool :=
  command == .discover || c.verifyState == .typeOk

/-- Send a command to every module for which it is due. The answer is when the last of them has had
time to answer; the first failure ends it. -/
def ask {σ : Type} (sink : Sink σ) (now : Nat) (command : Command) (s : σ) :
    Candidates → Except ModuleError Nat × Candidates × σ
  | [] => (.ok now, [], s)
  | c :: cs =>
    if isDue command c then
      match c.send sink now command 0 [] s with
      | (.error e, c, s) => (.error e, c :: cs, s)
      | (.ok (), c, s) =>
        let (r, cs, s) := ask sink now command s cs
        (r.map (max (now + c.config.responseTimeout + margin)), c :: cs, s)
    else
      let (r, cs, s) := ask sink now command s cs
      (r, c :: cs, s)

/-- Let every commander take the packets of a window. None of them is marked. -/
def handler : Handler ((DirectRing × (Link × Host δ)) × Candidates) := fun reservation (s, cs) =>
  ([], (s, cs.map (·.handleAll reservation.packetList)))

/-- Give up the commands whose time has passed. -/
def tick (now : Nat) (cs : Candidates) : Candidates := cs.map fun c => (c.tick now).2

/-- Send one command and listen until it is answered or given up everywhere. -/
def stage (settings : Settings) (command : Command) : ToolM (Inquiry δ Candidates) Unit := do
  let deadline ← .ofFun fun (stats, (s, cs)) =>
    let (r, cs, s) := ask Inquiry.sink (Inquiry.clock.now (s, ())) command s cs
    (r.mapError .module, (stats, (s, cs)))
  .ofLink (Inquiry.pump handler settings.poll deadline (·.all (!·.isBusy)) tick settings.rounds)

/-- Result of one module. -/
def report (c : Commander DspHandler) : VerifyReport :=
  ⟨c.config.name, c.config.hardwareId, c.verifyState, c.handler.version⟩

end Candidates

/-- Verify the configured aggregators and print the results. -/
def Session.verify {δ : Type} [Driver δ] (settings : Settings) : SessionM δ Unit := do
  let candidates ← Inquiry.conduct settings (Candidates.ofConfig settings.config) do
    Candidates.stage settings .discover
    Candidates.stage settings .readVersion
  let reports := candidates.map Candidates.report
  report settings (.array (reports.map VerifyReport.toJson)) (reports.map VerifyReport.line)

end DetectorLink
