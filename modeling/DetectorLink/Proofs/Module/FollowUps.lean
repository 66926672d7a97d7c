import DetectorLink.Proofs.Module.Commands
import DetectorLink.Proofs.Module.Discovered
import DetectorLink.Proofs.Module.Refusals

/-!
# What a discovery sends for an answer

An aggregator that answers a discovery request lists its submodules. Each of them is asked in turn,
and then the aggregator for its version, whatever becomes of the requests before. Nothing else that
is received leads to a request, and a request that comes back leads to none either, so the number of
packets that are sent is known from the answers of the aggregators.
-/

namespace DetectorLink

namespace Packet

/-- True for an aggregator's own answer to a discovery request. Its payload are the ids of its
submodules. -/
def listsSubmodules (p : Packet) : Bool :=
  p.answers .discover && p.moduleType?.any (·.isDsp) && !p.isPassthru

/-- A request that a receiver of its bytes takes for no answer. -/
structure Requests (q : Packet) : Prop where
  parsed : parse q.bytes = .ok q
  notResponse : q.isResponse = false

/-- Asks the submodule of an id what it is. -/
structure AsksSubmodule (id : UInt32) (q : Packet) : Prop extends Requests q where
  isPassthru : q.isPassthru = true
  destination : q.header.destination = HardwareId.broadcast
  decoded : ∃ info, q.decodeLvds (.ofDestination id) = .ok ⟨info, id, []⟩ ∧
    info.command = .discover ∧ info.channel? = none

/-- Asks the aggregator of an address for its version. -/
structure AsksVersion (address : UInt32) (q : Packet) : Prop extends Requests q where
  isPassthru : q.isPassthru = false
  destination : q.header.destination = address
  command : q.command? = some .readVersion
  payload : q.payload = []

/-- The requests that follow a packet. -/
inductive FollowedBy (p : Packet) : List Packet → Prop
  /-- One to each of its submodules and one for its version follow the list of an aggregator. -/
  | list {submodules : List Packet} {version : Packet} (h : p.listsSubmodules = true)
      (hs : List.Forall₂ AsksSubmodule (Word.ofByteList p.payload) submodules)
      (hv : AsksVersion p.sourceAddress version) : FollowedBy p (submodules ++ [version])
  /-- None follow anything else. -/
  | nothing (h : p.listsSubmodules = false) : FollowedBy p []

variable {p q : Packet}

theorem Built.requests (hb : Built q) (hr : q.isResponse = false) : q.Requests :=
  ⟨hb.bytes_eq ▸ parse_eq_ok_iff.mpr rfl, hr⟩

theorem FollowedBy.requests {qs : List Packet} (h : FollowedBy p qs) : ∀ q ∈ qs, q.Requests := by
  cases h with
  | nothing => exact fun _ hq ↦ absurd hq List.not_mem_nil
  | list _ hs hv =>
    rw [List.forall_mem_append, List.forall_mem_singleton]
    refine ⟨?_, hv.toRequests⟩
    generalize Word.ofByteList p.payload = ids at hs
    induction hs with
    | nil => exact fun _ hq ↦ absurd hq List.not_mem_nil
    | cons ha _ ih => exact List.forall_mem_cons.mpr ⟨ha.toRequests, ih⟩

/-- There is a request to every submodule. -/
theorem exists_asksSubmodule (id : UInt32) :
    ∃ q, Packet.passThrough id .discover 0 [] = .ok q ∧ AsksSubmodule id q := by
  rcases passThrough_cases id .discover 0 [] with ⟨hlt, -⟩ | ⟨-, q, hq, -⟩
  · have hlength : framedLength id 0 ≤ maxLength := by
      unfold framedLength
      split <;> decide
    exact absurd hlength (Nat.not_le.mpr hlt)
  · have hrequest : Packet.passThrough id (.ofByte 0x80) 0 [] = .ok q := hq
    obtain ⟨hrelayed, hresponse⟩ := flags_of_passThrough hrequest
    have hdecoded := decodeLvds_of_passThrough hrequest []
    rw [List.append_nil] at hdecoded
    refine ⟨q, hq, Built.requests (.passThrough hq) hresponse, hrelayed, ?_, _, hdecoded, rfl,
      CommandInfo.channel?_recovered _⟩
    obtain ⟨_, rfl⟩ := ofWords_eq_ok_iff.mp (ofWords_of_passThrough hq)
    rfl

/-- There is a request for the version of every aggregator. -/
theorem exists_asksVersion (address : UInt32) :
    ∃ q, Packet.direct address .readVersion 0 [] = .ok q ∧ AsksVersion address q := by
  have hq : Packet.direct address (.ofByte 0x20) 0 [] = .ok _ :=
    ofWords_eq_ok_iff.mpr ⟨by decide, rfl⟩
  have hb := Built.direct hq
  obtain ⟨hinfo, hdestination⟩ := commandInfo?_of_direct hq
  have hflag (mask : UInt32) (q : Packet) (hi : q.commandInfo? =
      some ((CommandInfo.request (.ofByte 0x20)).withChannel 0)) :
      q.hasFlag mask = hasFlags CommandFlag.isCommand mask := by
    rw [hasFlag, hi]
    rfl
  refine ⟨_, hq, hb.requests ((hflag _ _ hinfo).trans rfl), (hflag _ _ hinfo).trans rfl,
    hdestination, ?_, ?_⟩
  · rw [command?, hinfo]
    rfl
  · rw [payload_eq_rawPayload hinfo rfl, hb.rawPayload_eq]
    rfl

end Packet

namespace Discovery

open Packet

variable {p q : Packet}

/-! ### The requests for one packet -/

/-- There is a request to each of several submodules. -/
theorem exists_forall₂_asksSubmodule (ids : List UInt32) :
    ∃ qs, ids.map (Packet.passThrough · .discover 0 []) = qs.map .ok ∧
      List.Forall₂ AsksSubmodule ids qs := by
  induction ids with
  | nil => exact ⟨[], rfl, .nil⟩
  | cons id rest ih =>
    obtain ⟨q, hq, ha⟩ := exists_asksSubmodule id
    obtain ⟨qs, hqs, has⟩ := ih
    exact ⟨q :: qs, congrArg₂ List.cons hq hqs, .cons ha has⟩

/-- The requests that follow a discovery answer can all be built. -/
theorem exists_followUps {t : ModuleType} (hd : p.answers .discover = true)
    (ht : p.moduleType? = some t) : ∃ qs, followUps p t = qs.map .ok ∧ FollowedBy p qs := by
  have hlists : p.listsSubmodules = (t.isDsp && !p.isPassthru) := by
    rw [listsSubmodules, hd, ht, Bool.true_and, Option.any_some]
  unfold followUps
  split
  · next hl =>
    obtain ⟨submodules, hs, has⟩ := exists_forall₂_asksSubmodule (Word.ofByteList p.payload)
    obtain ⟨version, hv, hav⟩ := exists_asksVersion p.sourceAddress
    refine ⟨submodules ++ [version], ?_, .list (hlists.trans hl) has hav⟩
    rw [hs, hv, List.map_append]
    rfl
  · next hl => exact ⟨[], rfl, .nothing (hlists.trans (Bool.eq_false_iff.mpr hl))⟩

/-- The requests that a discovery sends for a packet. -/
def requests (p : Packet) : List Packet :=
  ((empty.learn? p).elim [] Prod.snd).filterMap Except.toOption

/-- Whatever was found before, the same requests follow a packet, and they can all be built. -/
theorem learn?_requests (p : Packet) :
    FollowedBy p (requests p) ∧
      ∀ d : Discovery, (d.learn? p).elim [] Prod.snd = (requests p).map .ok := by
  have hexists : ∃ qs, FollowedBy p qs ∧
      ∀ d : Discovery, (d.learn? p).elim [] Prod.snd = qs.map .ok := by
    rcases empty.learn?_cases p with ⟨t, hd, ht, -⟩ | ⟨hd, -⟩
    · obtain ⟨qs, hqs, hf⟩ := exists_followUps hd ht
      refine ⟨qs, hf, fun d ↦ ?_⟩
      rw [learn?, ht, (answers_iff.mp hd).2]
      exact hqs
    · refine ⟨[], .nothing (by rw [listsSubmodules, hd]; rfl), fun d ↦ ?_⟩
      rcases d.learn?_cases p with ⟨_, hd', -⟩ | ⟨-, hl | ⟨hl, -⟩⟩
      · exact absurd (hd.symm.trans hd') Bool.false_ne_true
      · rw [hl]
        rfl
      · rw [hl]
        rfl
  obtain ⟨qs, hf, hqs⟩ := hexists
  have heq : requests p = qs := by
    rw [requests, hqs, List.filterMap_map]
    exact List.filterMap_some
  exact heq ▸ ⟨hf, hqs⟩

/-- A request that comes back teaches nothing, and nothing is sent for it. -/
theorem learn?_of_not_isResponse (h : p.isResponse = false) (d : Discovery) :
    d.learn? p = none := by
  have ht : p.moduleType? = none := by
    rw [← Option.not_isSome_iff_eq_none, isSome_moduleType?, h]
    exact Bool.false_ne_true
  rw [learn?, ht]

/-! ### The requests of a run -/

variable {σ : Type} (sink : Sink σ)

/-- The state of a sink after it was given bytes, whatever it answered. -/
def given (s : σ) (data : List Bytes) : σ := data.foldl (fun s b ↦ ((sink.send b).exec s).2) s

theorem given_append (s : σ) (front back : List Bytes) :
    given sink s (front ++ back) = given sink (given sink s front) back := List.foldl_append

/-- A sink that writes down what it is given is given no less by what it answers. -/
theorem given_noting (s : σ × SinkLog) (data : List Bytes) :
    (given sink.noting s data).1 = given sink s.1 data ∧
      (given sink.noting s data).2.map Prod.fst = s.2.map Prod.fst ++ data := by
  induction data generalizing s with
  | nil => exact ⟨rfl, (List.append_nil _).symm⟩
  | cons b rest ih =>
    obtain ⟨hstate, hlog⟩ := ih ((sink.noting.send b).exec s).2
    refine ⟨hstate, hlog.trans ?_⟩
    rw [Sink.exec_noting, List.map_append, List.append_assoc]
    rfl

theorem sendAll_map_ok (qs : List Packet) (s : σ) :
    sendAll sink (qs.map .ok) s = given sink s (qs.map bytes) := by
  induction qs generalizing s with
  | nil => rfl
  | cons q rest ih =>
    have hone : (sendOne sink (.ok q) s).2 = ((sink.send q.bytes).exec s).2 := by
      rw [sendOne]
      rcases (sink.send q.bytes).exec s with ⟨_ | _, _⟩ <;> rfl
    exact (ih _).trans (congrArg (given sink · (rest.map bytes)) hone)

/-- The sink is given the requests that follow a packet. -/
theorem handlePacket_given (d : Discovery) (p : Packet) (s : σ) :
    (d.handlePacket sink p s).2.2 = given sink s ((requests p).map bytes) := by
  rw [← sendAll_map_ok, ← (learn?_requests p).2 d, handlePacket]
  cases d.learn? p <;> rfl

/-- The sink is given the requests that follow the packets, one after the other. -/
theorem handleAll_given (packets : List Packet) (d : Discovery) (s : σ) :
    (handleAll sink packets d s).2 = given sink s ((packets.flatMap requests).map bytes) := by
  induction packets generalizing d s with
  | nil => rfl
  | cons p rest ih =>
    rw [List.flatMap_cons, List.map_append, given_append, ← handlePacket_given sink d p s]
    exact ih _ _

/-- Whatever was found before, whatever packets are received and whatever a sink answers, it is
given the requests that follow each of the packets, in order. For an aggregator's own answer to a
discovery request these are one for each id in it, which the submodule decodes as a discovery
request to itself without payload, and then one for the aggregator's version; for anything else
there is none. A request that is received itself, whatever lies behind it, changes nothing. -/
theorem handleAll_sends_requests (packets : List Packet) (d : Discovery) (s : σ) :
    let sent := packets.flatMap requests
    let after := (handleAll sink.noting packets d (s, [])).2
    after.2.map Prod.fst = sent.map bytes ∧
    after.1 = (handleAll sink packets d s).2 ∧
    (∀ p, FollowedBy p (requests p)) ∧
    ∀ q ∈ sent, ∀ (more : Bytes) (found : Discovery) (t : σ),
      parse q.bytes = .ok q ∧
      found.handlePacket sink { q with rest := q.rest ++ more } t = (false, found, t) := by
  intro sent after
  have hgiven : after = given sink.noting (s, []) (sent.map bytes) := handleAll_given _ _ _ _
  obtain ⟨hstate, hlog⟩ := given_noting sink (s, []) (sent.map bytes)
  refine ⟨hgiven ▸ hlog, ?_, fun p ↦ (learn?_requests p).1, fun q hq more found t ↦ ?_⟩
  · rw [hgiven, hstate, handleAll_given]
  · obtain ⟨p, -, hp⟩ := List.mem_flatMap.mp hq
    have hrequest := (learn?_requests p).1.requests q hp
    -- what lies behind a packet does not make it an answer
    have hresponse : isResponse { q with rest := q.rest ++ more } = false := hrequest.notResponse
    refine ⟨hrequest.parsed, ?_⟩
    rw [handlePacket, learn?_of_not_isResponse hresponse]

/-- A sink that fails each time is given all requests for an aggregator with two submodules, and
none for the aggregator's version nor for a submodule that answers. -/
theorem handleAll_sends_requests_stalled :
    let answer (command : Command) (selector : UInt8) (flags : UInt32) (payload : List UInt32) :
        Packet :=
      ⟨⟨0, 0x15325501, CommandInfo.toRaw ⟨command, selector, CommandFlag.isCommand |||
        CommandFlag.isResponse ||| flags⟩, UInt32.ofNat (4 * payload.length), 0, 0⟩,
        Word.toByteList payload⟩
    let aggregator := answer .discover 0x30 0 [0x20000001, 0x20000002]
    let version := answer .readVersion 0x30 0 [1, 2, 3, 4]
    let submodule := answer .discover 0x20 CommandFlag.isPassthru [0x20000001]
    let packets := [version, aggregator, submodule]
    let log := (handleAll Recorder.sink.noting packets empty (⟨[], some .stall⟩, [])).2.2
    log.map Prod.fst = (requests aggregator).map bytes ∧
      log.map Prod.snd = [.error .stall, .error .stall, .error .stall] ∧
      ∃ submodules version, requests aggregator = submodules ++ [version] ∧
        List.Forall₂ AsksSubmodule [0x20000001, 0x20000002] submodules ∧
        AsksVersion 0x15325501 version := by
  intro answer aggregator version submodule packets log
  obtain ⟨hlog, -, hfollowed, -⟩ :=
    handleAll_sends_requests Recorder.sink packets empty ⟨[], some .stall⟩
  have hsent : packets.flatMap requests = requests aggregator := by decide +kernel
  refine ⟨hlog.trans (congrArg (List.map bytes) hsent), by decide +kernel, ?_⟩
  have hids : Word.ofByteList aggregator.payload = [0x20000001, 0x20000002] := by decide +kernel
  have haddress : aggregator.sourceAddress = 0x15325501 := by decide +kernel
  have hlists : aggregator.listsSubmodules = true := by decide +kernel
  have hrequests := hfollowed aggregator
  generalize requests aggregator = qs at hrequests ⊢
  cases hrequests with
  | list h hs hv =>
    rw [hids] at hs
    rw [haddress] at hv
    exact ⟨_, _, rfl, hs, hv⟩
  | nothing h =>
    rw [hlists] at h
    contradiction

end Discovery

end DetectorLink
