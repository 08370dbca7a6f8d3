import Idrm.Coap.InPlace

/-!
# Options and payload of a message

Over UDP and over TCP a message ends in the same way: the options, and a marker
before the payload if there is one. `parseBody_written` is the round trip of this
part for both.
-/

namespace Idrm.Coap

open Idrm.Lib List

/-- What stands between the options and the payload. -/
def payloadMarker (packet : Packet) : List UInt8 := if packet.payload.length ≠ 0 then [0xFF] else []

/-- A message behind its header and token. -/
def messageBody (packet : Packet) : List UInt8 :=
  serializeOptions packet ++ payloadMarker packet ++ packet.payload

/-- The header fields a parser reads before the options. -/
structure Header where
  version : UInt8
  type : CoapMessageType
  code : UInt8
  mid : UInt16
  token : ShortBytes

/-- A zeroed packet with its header fields set. -/
def Header.packet {S : Type} (header : Header) (null : S) : CoapPacket S :=
  { CoapPacket.zero null with
    version := header.version, type := header.type, code := header.code, mid := header.mid,
    token := header.token }

/-- No string of it is set. -/
theorem unset_header (header : Header) (option : CoapOption) (ref : BufRef)
    (found : (header.packet inPlace.null).string option = some ref) : ref = ⟨0, 0⟩ := by
  cases option <;> cases found <;> rfl

/-- A packet with its payload set. -/
def CoapPacket.withPayload {S : Type} (payload : S) (packet : CoapPacket S) : CoapPacket S :=
  { packet with payload := payload }

theorem mapStrings_withPayload {S T : Type} (view : S → T) (payload : S) (packet : CoapPacket S) :
    (packet.withPayload payload).mapStrings view = (packet.mapStrings view).withPayload
      (view payload) :=
  rfl

/-- What a parser answers: a status, or the buffer and the packet that refers to it. -/
abbrev Parsed := Except UInt8 (List UInt8 × CoapPacket BufRef)

/-- The payload is set where the option loop found the marker. -/
def setPayload (payloadLen : Nat → Nat) (data : List UInt8) : OptionsEnd BufRef → Parsed
  | .refused status => .error status
  | .complete packet => .ok (data, packet)
  | .marker packet payload => .ok (data, packet.withPayload ⟨payload, payloadLen payload⟩)

/-- Options and payload from an offset on. -/
def parseBody (payloadLen : Nat → Nat) (data : List UInt8) (current : Nat) (header : Header) :
    Option Parsed :=
  (parseOptions inPlace data current (header.packet inPlace.null)).map fun (data, ended) =>
    setPayload payloadLen data ended

/-- A parsed packet with the bytes its fields refer to. -/
def received (parsed : List UInt8 × CoapPacket BufRef) : Packet :=
  parsed.2.mapStrings (slice parsed.1)

/-- The packet a parser is to find: the header it has read, with options and payload
of the packet that was sent. -/
def delivered (sent : Packet) (header : Header) : Packet :=
  (CoapOption.all.foldl (copyOption sent) (header.packet [])).withPayload sent.payload

/-- A packet that still has the header a parser read. -/
structure HasHeader (header : Header) (packet : Packet) : Prop where
  version : packet.version = header.version
  type : packet.type = header.type
  code : packet.code = header.code
  mid : packet.mid = header.mid
  token : packet.token = header.token

/-- Options do not touch the header. -/
theorem HasHeader.copyOptions {header : Header} {sent start : Packet} (options : List CoapOption)
    (has : HasHeader header start) : HasHeader header (options.foldl (copyOption sent) start) := by
  induction options generalizing start with
  | nil => exact has
  | cons option rest ih =>
    obtain ⟨version, type, code, mid, token⟩ := has
    refine ih ?_
    cases option <;> exact ⟨version, type, code, mid, token⟩

theorem HasHeader.withPayload {header : Header} {packet : Packet} (has : HasHeader header packet)
    (payload : List UInt8) : HasHeader header (packet.withPayload payload) :=
  ⟨has.version, has.type, has.code, has.mid, has.token⟩

/-- The parser by value ends behind the options, at the marker if there is a payload. -/
theorem parseOptions_messageBody {sent start : Packet}
    (expressible : Expressible sent) (blank : Blank start)
    {data : List UInt8} {current : Nat} (here : data.drop current = messageBody sent)
    (inside : current ≤ data.length) (small : (serializeOptions sent).length < 65536) :
    parseOptions byValue data current start = some (data, if sent.payload.length ≠ 0 then
        .marker (CoapOption.all.foldl (copyOption sent) start)
          (current + (serializeOptions sent).length + 1)
        else .complete (CoapOption.all.foldl (copyOption sent) start)) := by
  rw [messageBody, append_assoc] at here
  obtain ⟨fuel, number, parsed⟩ := parseOptions_serialized expressible blank here inside small
  have behind : data.drop (current + (serializeOptions sent).length) =
      payloadMarker sent ++ sent.payload := by
    rw [← drop_drop, here, drop_left]
  rw [parsed]
  unfold payloadMarker at behind
  split
  · rename_i filled
    rw [if_pos filled] at behind
    exact parseOptionsLoop_marker byValue behind fuel number _
  · rename_i empty
    rw [if_neg empty, nil_append] at behind
    exact parseOptionsLoop_end byValue
      (behind.trans (length_eq_zero_iff.mp (by omega))) fuel number _

/-- A written body gives its options and its payload back. -/
theorem parseBody_written {sent : Packet} (expressible : Expressible sent) (header : Header)
    {data : List UInt8} {current : Nat} (here : data.drop current = messageBody sent)
    (inside : current ≤ data.length) (small : (serializeOptions sent).length < 65536)
    (payloadLen : Nat → Nat)
    (whole : sent.payload.length ≠ 0 →
      payloadLen (current + (serializeOptions sent).length + 1) = sent.payload.length) :
    ∃ parsed, parseBody payloadLen data current header = some (.ok parsed) ∧
      received parsed = delivered sent header ∧ parsed.1.length = data.length ∧
      (parsed.2.payload = ⟨0, 0⟩ ∨ parsed.2.payload.ptr + parsed.2.payload.len = data.length) := by
  have blank : Blank ((header.packet inPlace.null).mapStrings (slice data)) :=
    ⟨rfl, rfl, rfl, rfl, rfl⟩
  have headerView : (header.packet inPlace.null).mapStrings (slice data) = header.packet [] := rfl
  obtain ⟨data', ended, parsed, sameLength, follows⟩ := parseOptions_inPlace
    (unset_header header) rfl (parseOptions_messageBody expressible blank here inside small)
  rw [parseBody, parsed, Option.map_some]
  rw [headerView] at follows
  split at follows
  · rename_i filled
    cases ended with
    | refused => exact follows.elim
    | complete => exact follows.elim
    | marker packet offset =>
      obtain ⟨rfl, view, behind⟩ := follows
      have marked : (serializeOptions sent ++ payloadMarker sent).length =
          (serializeOptions sent).length + 1 := by
        rw [length_append, payloadMarker, if_pos filled, length_singleton]
      have rest : data.drop (current + (serializeOptions sent).length + 1) = sent.payload := by
        rw [Nat.add_assoc, ← drop_drop, here, messageBody, ← marked, drop_left]
      have payload : slice data' ⟨current + (serializeOptions sent).length + 1,
          sent.payload.length⟩ = sent.payload := by
        rw [slice, behind, rest, take_length]
      refine ⟨_, rfl, ?_, sameLength, .inr ?_⟩
      · rw [whole filled, received, mapStrings_withPayload, payload, view, delivered]
      · have total := congrArg List.length here
        rw [length_drop, messageBody, length_append, marked] at total
        change current + (serializeOptions sent).length + 1 + payloadLen _ = data.length
        rw [whole filled]
        omega
  · rename_i empty
    cases ended with
    | refused => exact follows.elim
    | marker => exact follows.elim
    | complete packet =>
      obtain ⟨view, null⟩ := follows
      refine ⟨_, rfl, ?_, sameLength, .inl null⟩
      have noPayload : sent.payload = slice data' packet.payload := by
        rw [null]
        exact length_eq_zero_iff.mp (by omega)
      rw [received, delivered, noPayload, ← view]
      rfl

/-- What arrives has the header that was read. -/
theorem delivered_header (sent : Packet) (header : Header) :
    HasHeader header (delivered sent header) := by
  have start : HasHeader header (header.packet []) := ⟨rfl, rfl, rfl, rfl, rfl⟩
  exact (start.copyOptions CoapOption.all).withPayload sent.payload

/-- A payload is no option. -/
theorem SameOptions.withPayload {sent packet : Packet} (same : SameOptions sent packet)
    (payload : List UInt8) : SameOptions sent (packet.withPayload payload) := by
  cases same
  constructor <;> assumption

/-- What arrives has the options that were sent. -/
theorem delivered_sameOptions {sent : Packet} (expressible : Expressible sent) (header : Header) :
    SameOptions sent (delivered sent header) := by
  have fresh : (header.packet ([] : List UInt8)).options = ∅ := rfl
  exact (sameOptions_copied expressible fresh).withPayload sent.payload

/-! ## How much is written -/

theorem intOptionBytes_length (value : UInt32) : (intOptionBytes value).length ≤ 4 := by
  unfold intOptionBytes
  simp only [length_append]
  split <;> split <;> split <;> simp

theorem payloadMarker_length (packet : Packet) : (payloadMarker packet).length ≤ 1 := by
  unfold payloadMarker
  split <;> simp

end Idrm.Coap
