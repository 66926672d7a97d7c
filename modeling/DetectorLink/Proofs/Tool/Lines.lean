import DetectorLink.Proofs.HardwareId
import DetectorLink.Tool.Dump

/-!
# The lines of a dump

A line of a dump is said here by the packet it is about: words with blanks between them, or an
object of JSON with an entry for each of them. No text in such an object needs an escape, as it is
made of letters, digits and dots.
-/

namespace DetectorLink

namespace Json

/-- A text of letters, digits and dots. -/
def Plain (s : String) : Prop := ∀ c ∈ s.toList, c = '.' ∨ c.isAlphanum = true

-- decided over the text, not over the finite type of characters
instance (s : String) : Decidable (Plain s) := List.decidableBAll _ s.toList

theorem escape_of_isAlphanum {c : Char} (h : c.isAlphanum = true) : escape c = [c] := by
  have hlow : ∀ n < 48, (Char.ofNat n).isAlphanum = false := by decide
  have hrange : 48 ≤ c.toNat := by
    by_contra hlt
    have hnot := hlow c.toNat (Nat.not_le.mp hlt)
    rw [Char.ofNat_toNat, h] at hnot
    cases hnot
  unfold escape
  split
  · exact absurd h (by decide)
  · exact absurd h (by decide)
  · exact absurd h (by decide)
  · exact absurd h (by decide)
  · exact absurd h (by decide)
  · rw [if_neg (by omega), if_neg (by omega), if_neg (by omega)]

/-- A text of letters, digits and dots stands between quotes as it is. -/
theorem quote_of_plain {s : String} (h : Plain s) : quote s = "\"" ++ s ++ "\"" := by
  have hescape : s.toList.flatMap escape = s.toList := by
    have hsame : ∀ c ∈ s.toList, escape c = [c] := fun c hc ↦ by
      rcases h c hc with rfl | halnum
      · rfl
      · exact escape_of_isAlphanum halnum
    rw [List.flatMap_def, List.map_congr_left hsame, ← List.flatMap_def, List.flatMap_singleton']
  rw [quote, hescape, String.ofList_toList]

end Json

theorem HardwareId.plain_text (id : HardwareId) : Json.Plain id.text := by
  obtain ⟨a, b, c, d, -, htext, -⟩ := text_eq_quad id
  rw [htext]
  intro char hchar
  refine (mem_quad hchar).imp_right fun hdigit ↦ ?_
  rw [Char.isAlphanum, hdigit, Bool.or_true]

theorem Numeral.isAlphanum_of_mem_hexUpper {width n : Nat} {c : Char}
    (h : c ∈ (hexUpper width n).toList) : c.isAlphanum = true := by
  have hdigit : ∀ d < 16, (Nat.digitChar d).toUpper.isAlphanum = true := by decide
  simp only [hexUpper, hex, String.toList_ofList, List.mem_map, List.mem_append] at h
  obtain ⟨digit, hzero | hmem, rfl⟩ := h
  · rw [List.eq_of_mem_replicate hzero]
    exact hdigit 0 (by decide)
  · obtain ⟨d, hd, rfl⟩ := exists_of_mem_toDigits (by decide) hmem
    exact hdigit d hd

theorem Command.plain_name (c : Command) : Json.Plain c.name := by
  cases c with
  | unknown code =>
    intro char hchar
    rw [name, String.toList_append, List.mem_append] at hchar
    rcases hchar with hmark | hdigit
    · exact (by decide : Json.Plain "0x") char hmark
    · exact .inr (Numeral.isAlphanum_of_mem_hexUpper hdigit)
  | _ => decide

namespace Dump

/-- The word for a packet in a dump: the first of these that fits, or else that for data. -/
def wordOf (p : Packet) : String :=
  let words := [("bad", p.isBad), ("command", p.isCommand), ("rtdl", p.isRtdl),
    ("neutron", p.isNeutronData), ("meta", p.isMetaData)]
  ((words.find? (·.2)).map (·.1)).getD "data"

/-- The words about a packet, with blanks between them. -/
def plainLine (p : Packet) : String :=
  " ".intercalate <| [Text.padRight 7 (wordOf p), "src=" ++ HardwareId.text ⟨p.header.source⟩,
      "dst=0x" ++ Numeral.hex 8 p.header.destination.toNat, "len=" ++ toString p.length] ++
    match p.command? with
    | none => []
    | some c => ("cmd=" ++ c.name) :: if p.isResponse then ["(response)"] else []

/-- The entries about a packet, as an object of JSON. -/
def jsonLine (p : Packet) : String :=
  let quoted (s : String) := "\"" ++ s ++ "\""
  "\x7b" ++ ",".intercalate [
    "\"kind\":" ++ quoted (wordOf p),
    "\"source\":" ++ quoted (HardwareId.text ⟨p.header.source⟩),
    "\"destination\":" ++ toString p.header.destination.toNat,
    "\"length\":" ++ toString p.length,
    "\"command\":" ++ (p.command?.elim "null" fun c ↦ quoted c.name),
    "\"response\":" ++ (if p.isResponse then "true" else "false"),
    "\"payload_length\":" ++ toString p.payload.length] ++ "\x7d"

/-- What is printed of a packet. -/
def lineOf (json : Bool) (p : Packet) : String := if json then jsonLine p else plainLine p

theorem name_ofPacket (p : Packet) : (PacketKind.ofPacket p).name = wordOf p := by
  unfold PacketKind.ofPacket wordOf
  cases p.isBad <;> cases p.isCommand <;> cases p.isRtdl <;> cases p.isNeutronData <;>
    cases p.isMetaData <;> rfl

theorem line_ofPacket (p : Packet) : (PacketRecord.ofPacket p).line = plainLine p := by
  have hmark (n : Nat) : Numeral.marked 8 n = "0x" ++ Numeral.hex 8 n := rfl
  unfold PacketRecord.line plainLine
  simp only [PacketRecord.ofPacket, name_ofPacket, hmark]
  apply String.toList_inj.mp
  cases p.command? with
  | none => simp
  | some c => by_cases hr : p.isResponse = true <;> simp [hr]

theorem compact_ofPacket (p : Packet) : (PacketRecord.ofPacket p).toJson.compact = jsonLine p := by
  have hword : Json.Plain (wordOf p) := by
    rw [← name_ofPacket]
    cases PacketKind.ofPacket p <;> decide
  have hcommand : (Json.ofOption (fun c ↦ .str c.name) p.command?).compact =
      p.command?.elim "null" fun c ↦ "\"" ++ c.name ++ "\"" := by
    cases p.command? with
    | none => rfl
    | some c => exact Json.quote_of_plain c.plain_name
  have hkeys : ∀ key ∈ ["kind", "source", "destination", "length", "command", "response",
      "payload_length"], Json.quote key = "\"" ++ key ++ "\"" := by
    decide
  simp only [List.forall_mem_cons, List.not_mem_nil, false_implies, implies_true, and_true] at hkeys
  obtain ⟨hkind, hsource, hdestination, hlength, hcommandKey, hresponseKey, hpayload⟩ := hkeys
  have hnat (n : Nat) : (Json.nat n).compact = toString n := rfl
  have hsourceText := Json.quote_of_plain (HardwareId.plain_text ⟨p.header.source⟩)
  rw [PacketRecord.toJson, jsonLine, Json.compact]
  simp only [Json.compactEntries, PacketRecord.ofPacket, name_ofPacket, hcommand, hkind,
    hsource, hdestination, hlength, hcommandKey, hresponseKey, hpayload, hnat, Json.word,
    Json.compact, Json.quote_of_plain hword, hsourceText]
  by_cases hr : p.isResponse = true <;> simp [hr, String.append_assoc]

/-- What is printed of the record of a packet is its line. -/
theorem render_ofPacket (request : DumpRequest) (p : Packet) :
    render request (.ofPacket p) = lineOf request.json p := by
  rw [render, line_ofPacket, compact_ofPacket, lineOf]

end Dump

end DetectorLink
