import DetectorLink.Proofs.Packet.Outgoing

/-!
# Packets show what they were built for

An answer of a module has a description: the module and the aggregator that relays it, what it
answers, the type of the module and further words. So has a packet of events: its sender, the pulse
header if there is one, and the events. Where the words of a description stand in the payload
depends on all its parts. The accessors of a packet find them there again, whatever bytes follow it.
-/

namespace DetectorLink

open Word

/-! ### Answers -/

/-- What a module answers. -/
inductive ModuleReply.Kind where
  /-- What the command of a code asked for. -/
  | result (code : UInt8) (own : Command.ofByte code ≠ .ack ∧ Command.ofByte code ≠ .nack)
  /-- Whether a command was accepted. The lowest byte of the echo names the command. -/
  | acknowledgement (accepted : Bool) (echo : UInt32)

namespace ModuleReply.Kind

/-- Code in the info word. -/
def code : Kind → UInt8
  | result code _ => code
  | acknowledgement accepted _ => (if accepted then Command.ack else .nack).toByte

/-- Words that name the command. -/
def echoed : Kind → List UInt32
  | result _ _ => []
  | acknowledgement _ echo => [echo]

/-- The command that is answered. -/
def answered : Kind → Command
  | result code _ => .ofByte code
  | acknowledgement _ echo => .ofByte echo.toUInt8

end ModuleReply.Kind

/-- An answer of a module. -/
structure ModuleReply where
  /-- The module. -/
  origin : UInt32
  /-- The aggregator that relays the answer, if it does not come directly. -/
  router : Option UInt32
  /-- What it answers. -/
  kind : ModuleReply.Kind
  /-- Type of the module. -/
  moduleType : UInt8
  /-- Further flags. -/
  marks : UInt32
  /-- Further payload words. -/
  further : List UInt32

namespace ModuleReply

variable (r : ModuleReply)

/-- Sender in the header: the last relay. -/
def source : UInt32 := r.router.getD r.origin

/-- Flags that do not say which kind of packet it is. -/
def freeFlags : UInt32 := 0x1FFF0000

/-- Flags of the info word. -/
def flags : UInt32 :=
  r.marks &&& freeFlags ||| CommandFlag.isCommand ||| CommandFlag.isResponse |||
    if r.router.isSome then CommandFlag.isPassthru else 0

/-- The command word. -/
def commandInfo : CommandInfo := ⟨.ofByte r.kind.code, r.moduleType, r.flags⟩

/-- Payload words that serve relaying. -/
def addressing : List UInt32 :=
  match r.router with
  | none => []
  | some _ => r.origin :: r.kind.echoed

/-- Payload words of the module itself. A direct acknowledgement keeps its echo. -/
def content : List UInt32 :=
  match r.router with
  | none => r.kind.echoed ++ r.further
  | some _ => r.further

/-- Payload words. -/
def words : List UInt32 := r.addressing ++ r.content

/-- A packet shows an answer. -/
structure ShownBy (p : Packet) : Prop where
  isResponse : p.isResponse = true
  sourceAddress : p.sourceAddress = r.origin
  routerAddress : p.routerAddress = r.router.getD 0
  responseType? : p.responseType? = some r.kind.answered
  payload : p.payload = Word.toByteList r.content
  moduleType? : p.moduleType? = some (.ofByte r.moduleType)

theorem bit_freeFlags (i : Nat) : bit freeFlags i = decide (16 ≤ i ∧ i < 29) := by
  by_cases hi : i < 32
  · revert i
    decide
  · rw [bit_of_ge freeFlags (by omega), decide_eq_false (by omega)]

/-- The flags of an answer say that it is one, and whether it is relayed. -/
theorem bit_flags (i : Nat) : bit r.flags i =
    (bit r.marks i && decide (16 ≤ i ∧ i < 29) || decide (31 = i) || decide (29 = i) ||
      (r.router.isSome && decide (30 = i))) := by
  have hrelayed : bit (if r.router.isSome then CommandFlag.isPassthru else 0) i =
      (r.router.isSome && decide (30 = i)) := by
    cases r.router.isSome with
    | true => exact CommandFlag.bit_isPassthru i
    | false => exact bit_zero i
  rw [flags, bit_or, bit_or, bit_or, bit_and, bit_freeFlags, CommandFlag.bit_isCommand,
    CommandFlag.bit_isResponse, hrelayed]

theorem has_isResponse : r.commandInfo.has CommandFlag.isResponse = true := by
  refine (hasFlags_eq_bit CommandFlag.bit_isResponse).trans ((r.bit_flags 29).trans ?_)
  simp

theorem has_isPassthru : r.commandInfo.has CommandFlag.isPassthru = r.router.isSome := by
  refine (hasFlags_eq_bit CommandFlag.bit_isPassthru).trans ((r.bit_flags 30).trans ?_)
  simp

/-- The command word is read back from its bits. -/
theorem ofRaw?_toRaw : CommandInfo.ofRaw? r.commandInfo.toRaw = some r.commandInfo := by
  have hlow : ∀ i < 16, bit r.flags i = false := by
    intro i hi
    rw [bit_flags, decide_eq_false (by omega : ¬(16 ≤ i ∧ i < 29)),
      decide_eq_false (by omega : ¬31 = i), decide_eq_false (by omega : ¬29 = i),
      decide_eq_false (by omega : ¬30 = i)]
    simp
  refine CommandInfo.ofRaw?_toRaw (.of_byte rfl (CommandFlag.and_all_eq_iff.mpr hlow)) ?_
  refine (r.bit_flags 31).trans ?_
  simp

variable {r} {p : Packet}

/-- The words that serve relaying are skipped. -/
theorem payloadSkip_eq (hi : p.commandInfo? = some r.commandInfo) :
    p.payloadSkip = 4 * r.addressing.length := by
  simp only [Packet.payloadSkip, hi, r.has_isPassthru, addressing]
  cases r.router with
  | none => rfl
  | some router =>
    simp only [Option.isSome_some, ite_true, commandInfo]
    cases r.kind with
    | result code own =>
      simp only [Kind.code, Kind.echoed]
      split
      · next hc => exact absurd hc own.1
      · next hc => exact absurd hc own.2
      · rfl
    | acknowledgement accepted echo => cases accepted <;> rfl

/-- The command that is answered is that of the info word, or it is named by the word behind the
module's id, if that is there. -/
theorem responseType?_eq (hi : p.commandInfo? = some r.commandInfo)
    (hp : p.isPassthru = r.router.isSome)
    (hw : ∀ i < 2, Word.get? p.rawPayload i = r.words[i]?) :
    p.responseType? = some r.kind.answered := by
  simp only [Packet.responseType?, hi, Option.bind_eq_bind, Option.bind_some, r.has_isResponse,
    Bool.not_true, Bool.false_eq_true, ite_false, hp]
  have hecho : ∀ echo, r.kind.echoed = [echo] →
      Word.get? p.rawPayload (if r.router.isSome then 1 else 0) = some echo := by
    intro echo he
    rw [hw _ (by split <;> decide), words, addressing, content]
    cases r.router <;> simp [he]
  cases hk : r.kind with
  | result code own =>
    simp only [commandInfo, hk, Kind.code, Kind.answered]
    split
    · next hc => exact absurd hc own.1
    · next hc => exact absurd hc own.2
    · rfl
  | acknowledgement accepted echo =>
    have he := hecho echo (by rw [hk]; rfl)
    cases accepted <;>
      simp only [commandInfo, hk, Kind.code, Kind.answered, he, Option.map_some] <;> rfl

/-- A packet with the command word, the sender and the payload of an answer shows it. -/
theorem ShownBy.of_words (hi : p.commandInfo? = some r.commandInfo)
    (hs : p.header.source = r.source) (hw : p.rawPayload = Word.toByteList r.words) : r.ShownBy p := by
  have hr : p.isResponse = true := by
    rw [Packet.isResponse, Packet.hasFlag, hi]
    exact r.has_isResponse
  have hp : p.isPassthru = r.router.isSome := by
    rw [Packet.isPassthru, Packet.hasFlag, hi]
    exact r.has_isPassthru
  have hword : ∀ i < 2, Word.get? p.rawPayload i = r.words[i]? := by
    intro i hlt
    rw [Word.get?_eq_getElem? _ (by simp only [offsetBound]; omega), hw, ofByteList_toByteList]
  refine ⟨hr, ?_, ?_, responseType?_eq hi hp hword, ?_, ?_⟩
  · rw [Packet.sourceAddress, hp, hword 0 (by decide), hs, source, words, addressing]
    cases r.router <;> rfl
  · rw [Packet.routerAddress, hp, hs, source]
    cases r.router <;> rfl
  · rw [Packet.payload, hw, payloadSkip_eq hi, words, Word.drop_toByteList_append]
  · rw [Packet.moduleType?, hi, Option.filter_some, r.has_isResponse]
    rfl

end ModuleReply

/-! ### Events -/

/-- The words of an event. -/
def NeutronEvent.words (e : NeutronEvent) : List UInt32 := [e.tof, e.pixelId]

/-- Events are read back from their words. -/
theorem NeutronEvent.ofWords_flatMap_words (events : List NeutronEvent) :
    ofWords (events.flatMap words) = events := by
  induction events with
  | nil => rfl
  | cons e events ih =>
    show e :: ofWords (events.flatMap words) = e :: events
    rw [ih]

/-- The header in six words. -/
def RtdlHeader.ofVector (ws : Vector UInt32 wordCount) : RtdlHeader :=
  ofWords ws[0] ws[1] ws[2] ws[3] ws[4] ws[5]

theorem RtdlHeader.ofList?_toList (ws : Vector UInt32 wordCount) :
    ofList? ws.toList = some (ofVector ws) := by
  have hws : ws.toList = [ws[0], ws[1], ws[2], ws[3], ws[4], ws[5]] := by
    refine List.ext_getElem ws.length_toList fun i hi _ ↦ ?_
    have hlt : i < 6 := Nat.lt_of_lt_of_eq hi ws.length_toList
    rcases (by omega : i = 0 ∨ i = 1 ∨ i = 2 ∨ i = 3 ∨ i = 4 ∨ i = 5) with
      rfl | rfl | rfl | rfl | rfl | rfl <;> rfl
  rw [hws]
  rfl

/-- A packet of events. -/
structure EventData where
  /-- Its sender. -/
  source : UInt32
  /-- The pulse header in front of the events, if there is one. -/
  pulse : Option (Vector UInt32 RtdlHeader.wordCount)
  /-- The events. -/
  events : List NeutronEvent
  /-- Format and position in a train. -/
  marks : UInt32

namespace EventData

variable (d : EventData)

/-- Bits of the info word that do not say which kind of packet it is, or what starts its payload. -/
def freeBits : UInt32 := 0x7FFFFFF7

/-- The info word. -/
def raw : UInt32 :=
  d.marks &&& freeBits ||| if d.pulse.isSome then DataFlag.rtdlPresent else 0

/-- Words of the pulse header. -/
def pulseWords : List UInt32 := d.pulse.elim [] Vector.toList

/-- Words of the events. -/
def eventWords : List UInt32 := d.events.flatMap NeutronEvent.words

/-- Payload words. -/
def words : List UInt32 := d.pulseWords ++ d.eventWords

/-- A packet shows events. The payload falls into the pulse header and the data. -/
structure ShownBy (p : Packet) : Prop where
  isData : p.isData = true
  sourceAddress : p.sourceAddress = d.source
  routerAddress : p.routerAddress = 0
  rtdlHeader? : p.rtdlHeader? = d.pulse.map RtdlHeader.ofVector
  data : p.data = Word.toByteList d.eventWords
  events : p.events = d.events
  payload : p.payload = Word.toByteList d.pulseWords ++ p.data

theorem bit_freeBits {i : Nat} (hi : i = 3 ∨ i = 31) : bit freeBits i = false := by
  rcases hi with rfl | rfl <;> decide

/-- Bits that the marks leave alone. -/
theorem bit_raw {i : Nat} (hi : i = 3 ∨ i = 31) :
    bit d.raw i = (d.pulse.isSome && decide (3 = i)) := by
  rw [raw, bit_or, bit_and, bit_freeBits hi, Bool.and_false, Bool.false_or]
  cases d.pulse.isSome with
  | true => exact DataFlag.bit_rtdlPresent i
  | false => exact bit_zero i

/-- The info word is none of a command. -/
theorem ofRaw?_raw : CommandInfo.ofRaw? d.raw = none := by
  have hmark : (d.raw &&& CommandFlag.isCommand != 0) = false := by
    rw [and_bne_zero CommandFlag.bit_isCommand, d.bit_raw (.inr rfl), decide_eq_false (by decide),
      Bool.and_false]
  rw [CommandInfo.ofRaw?, hmark]
  rfl

/-- The info word tells whether there is a pulse header. -/
theorem hasFlags_raw : hasFlags d.raw DataFlag.rtdlPresent = d.pulse.isSome := by
  rw [hasFlags_eq_bit DataFlag.bit_rtdlPresent, d.bit_raw (.inl rfl), decide_eq_true rfl,
    Bool.and_true]

variable {d} {p : Packet}

/-- A packet with the info word, the sender and the payload of events shows them. -/
theorem ShownBy.of_words (hi : p.header.info = d.raw) (hs : p.header.source = d.source)
    (hw : p.rawPayload = Word.toByteList d.words) : d.ShownBy p := by
  have hinfo : p.info = .data ⟨d.raw⟩ := by rw [Packet.info, hi, Info.ofRaw, d.ofRaw?_raw]
  have hcommand : p.commandInfo? = none := by rw [Packet.commandInfo?, hinfo]; rfl
  have hdirect : p.isPassthru = false := by rw [Packet.isPassthru, Packet.hasFlag, hcommand]; rfl
  have hpulse : p.hasRtdl = d.pulse.isSome := by rw [Packet.hasRtdl, hinfo]; exact d.hasFlags_raw
  have hdata : p.data = Word.toByteList d.eventWords := by
    rw [Packet.data, Packet.dataInfo?, hinfo]
    simp only [Info.data?, DataInfo.has, d.hasFlags_raw, hw, words, pulseWords]
    cases hp : d.pulse with
    | none => rfl
    | some ws =>
      have hl : RtdlHeader.byteCount = 4 * ws.toList.length := by rw [ws.length_toList]; rfl
      rw [Option.isSome_some, hl]
      exact Word.drop_toByteList_append _ _
  have hheader : p.rtdlHeader? = d.pulse.map RtdlHeader.ofVector := by
    rw [Packet.rtdlHeader?, hpulse, hw, words, pulseWords]
    cases hp : d.pulse with
    | none => rfl
    | some ws =>
      have hl : (Word.toByteList ws.toList).length = RtdlHeader.byteCount := by
        rw [Word.length_toByteList, ws.length_toList]
        rfl
      rw [Option.isSome_some, Option.elim_some, Word.toByteList_append, List.take_left' hl,
        ofByteList_toByteList]
      exact RtdlHeader.ofList?_toList ws
  refine ⟨?_, ?_, ?_, hheader, hdata, ?_, ?_⟩
  · rw [Packet.isData, Packet.isCommand, hcommand]
    rfl
  · rw [Packet.sourceAddress, hdirect, hs]
    rfl
  · rw [Packet.routerAddress, hdirect]
    rfl
  · rw [Packet.events, hdata, ofByteList_toByteList]
    exact NeutronEvent.ofWords_flatMap_words d.events
  · rw [Packet.payload, Packet.payloadSkip, hcommand, hw, hdata]
    exact Word.toByteList_append _ _

end EventData

/-! ### Both kinds of packets -/

/-- What a packet is built for. -/
inductive Contents where
  /-- An answer of a module. -/
  | reply (r : ModuleReply)
  /-- Events. -/
  | events (d : EventData)

namespace Contents

/-- Sender in the header. -/
def source : Contents → UInt32
  | reply r => r.source
  | events d => d.source

/-- The info word. -/
def info : Contents → UInt32
  | reply r => r.commandInfo.toRaw
  | events d => d.raw

/-- Payload words. -/
def words : Contents → List UInt32
  | reply r => r.words
  | events d => d.words

/-- A packet shows what it was built for. -/
def ShownBy : Contents → Packet → Prop
  | reply r, p => r.ShownBy p
  | events d, p => d.ShownBy p

/-- A packet with the info word, the sender and the payload of contents shows them. -/
theorem ShownBy.of_words {c : Contents} {p : Packet} (hi : p.header.info = c.info)
    (hs : p.header.source = c.source) (hw : p.rawPayload = Word.toByteList c.words) :
    c.ShownBy p := by
  cases c with
  | reply r =>
    refine ModuleReply.ShownBy.of_words ?_ hs hw
    rw [Packet.commandInfo?_eq, hi]
    exact r.ofRaw?_toRaw
  | events d => exact EventData.ShownBy.of_words hi hs hw

end Contents

/-- A packet of an answer or of events is refused exactly if it would be longer than the longest
packet. Otherwise it shows what it was built for, alone and in front of anything: of an answer the
module and its aggregator, the command that is answered, the module's own words and its type, of
events the pulse header and the events, which share the payload among them. -/
theorem Packet.ofWords_contents_shown (c : Contents) (destination : UInt32) :
    let length := Header.byteCount + 4 * c.words.length
    (maxLength < length ∧ Packet.ofWords destination c.source c.info c.words =
        .error (.payloadTooLong length maxLength)) ∨
      (length ≤ maxLength ∧
        ∃ p, Packet.ofWords destination c.source c.info c.words = .ok p ∧ c.ShownBy p ∧
          ∀ more, ∃ q, parse (p.bytes ++ more) = .ok q ∧ c.ShownBy q) := by
  intro length
  refine (ofWords_cases destination c.source c.info c.words).imp id ?_
  rintro ⟨hle, p, hp, -⟩
  have hb : Built p := .ofWords hp
  have hshown (more : Bytes) : c.ShownBy { p with rest := p.rest ++ more } := by
    have hraw := hb.rawPayload_append more
    obtain ⟨-, rfl⟩ := ofWords_eq_ok_iff.mp hp
    exact .of_words rfl rfl hraw
  refine ⟨hle, p, hp, ?_, fun more ↦ ⟨_, ?_, hshown more⟩⟩
  · have halone := hshown []
    rwa [List.append_nil] at halone
  · rw [hb.bytes_eq]
    exact parse_window_append p more

end DetectorLink
