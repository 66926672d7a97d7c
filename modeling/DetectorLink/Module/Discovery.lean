import DetectorLink.Link.Source
import DetectorLink.Module.Dsp
import DetectorLink.Module.Error
import DetectorLink.Packet.Build

/-!
# Discovery of modules

A broadcast request reaches every aggregator. Each of them answers with the ids of its submodules,
which are then asked one by one, and is asked for its own version. The modules found are kept in
the order of their addresses.
-/

namespace DetectorLink

/-- A module that answered. -/
structure DiscoveredModule where
  /-- Its address. -/
  hardwareId : HardwareId
  /-- Its type. -/
  moduleType : ModuleType
  /-- The aggregator that relayed the answer. -/
  parent : Option HardwareId
  /-- Its version, if it is an aggregator and answered with one. -/
  version : Option DspVersion
  deriving DecidableEq, Repr

/-- Modules found so far, in ascending order of address. -/
structure Discovery where
  /-- The modules. -/
  modules : List DiscoveredModule
  deriving DecidableEq, Repr

namespace Discovery

/-- Nothing found. -/
def empty : Discovery := ⟨[]⟩

/-- Put a module into its place, over one of the same address. -/
def insert (m : DiscoveredModule) : List DiscoveredModule → List DiscoveredModule
  | [] => [m]
  | n :: ns =>
    if m.hardwareId.raw < n.hardwareId.raw then m :: n :: ns
    else if m.hardwareId.raw = n.hardwareId.raw then m :: ns
    else n :: insert m ns

/-- The request to everyone. -/
def broadcastRequest : Except CodecError Packet :=
  Packet.direct HardwareId.broadcast .discover 0 []

/-- The module that a discovery answer describes. -/
def found (packet : Packet) (moduleType : ModuleType) : DiscoveredModule where
  hardwareId := ⟨packet.sourceAddress⟩
  moduleType := moduleType
  parent := if packet.isPassthru then some ⟨packet.routerAddress⟩ else none
  version := none

/-- What an aggregator's discovery answer leads to: a request to each of its submodules, then one
for its version. -/
def followUps (packet : Packet) (moduleType : ModuleType) : List (Except CodecError Packet) :=
  if moduleType.isDsp && !packet.isPassthru then
    (Word.ofByteList packet.payload).map (fun id => Packet.passThrough id .discover 0 []) ++
      [Packet.direct packet.sourceAddress .readVersion 0 []]
  else []

variable (d : Discovery)

/-- Keep the version that an aggregator answered with. -/
def recordVersion (source : UInt32) (payload : Bytes) : Discovery :=
  ⟨d.modules.map fun m =>
    if m.hardwareId.raw = source ∧ m.moduleType.isDsp then
      { m with version := DspVersion.parse? payload }
    else m⟩

/-- What a packet adds, and the packets to send for it. None if it is no answer to a discovery or
version request. -/
def learn? (packet : Packet) : Option (Discovery × List (Except CodecError Packet)) :=
  match packet.moduleType?, packet.command? with
  | some moduleType, some .discover =>
    some (⟨insert (found packet moduleType) d.modules⟩, followUps packet moduleType)
  | some _, some .readVersion => some (d.recordVersion packet.sourceAddress packet.payload, [])
  | _, _ => none

variable {σ : Type}

/-- Send one packet. -/
def sendOne (sink : Sink σ) (packet : Except CodecError Packet) (s : σ) :
    Except ModuleError Unit × σ :=
  match packet with
  | .error e => (.error (.codec e), s)
  | .ok p =>
    match (sink.send p.bytes).exec s with
    | (.error e, s) => (.error (.link e), s)
    | (.ok _, s) => (.ok (), s)

/-- Send packets one after the other; one that fails does not hold up the others. -/
def sendAll (sink : Sink σ) (packets : List (Except CodecError Packet)) (s : σ) : σ :=
  packets.foldl (fun s p => (sendOne sink p s).2) s

/-- Forget what was found and ask everyone. -/
def start (sink : Sink σ) (s : σ) : Except ModuleError Unit × Discovery × σ :=
  let (r, s) := sendOne sink broadcastRequest s
  (r, empty, s)

/-- Take a received packet: true if it was an answer to a discovery or version request. -/
def handlePacket (sink : Sink σ) (packet : Packet) (s : σ) : Bool × Discovery × σ :=
  match d.learn? packet with
  | some (d, packets) => (true, d, sendAll sink packets s)
  | none => (false, d, s)

/-- Take packets one after the other. -/
def handleAll (sink : Sink σ) (packets : List Packet) (d : Discovery) (s : σ) : Discovery × σ :=
  packets.foldl (fun (d, s) p => (d.handlePacket sink p s).2) (d, s)

end Discovery

end DetectorLink
