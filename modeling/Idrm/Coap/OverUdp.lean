import Idrm.Coap.Message

/-!
# CoAP over UDP

Over UDP the header carries version, type and message id; options and payload fill
the rest of the datagram. The parser refers to at most a chunk of payload and puts a
terminator behind it.
-/

namespace Idrm.Coap

open Idrm.Lib List

/-- `COAP_MAX_HEADER_SIZE` -/
def coapMaxHeaderSize : Nat := 512

/-- `COAP_MAX_PACKET_SIZE` -/
def coapMaxPacketSize : Nat := coapMaxHeaderSize + restMaxChunkSize

/-- The value of a message type. -/
def CoapMessageType.toByte : CoapMessageType → UInt8
  | .con => 0
  | .non => 1
  | .ack => 2
  | .rst => 3

/-- The message type of a value of two bits. -/
def CoapMessageType.ofByte (value : UInt8) : CoapMessageType :=
  if value = 0 then .con else if value = 1 then .non else if value = 2 then .ack else .rst

/-- The first byte of a datagram. -/
def udpFirst (type : CoapMessageType) (tokenLen : Nat) : UInt8 :=
  ((0xC0 : UInt8) &&& ((1 : UInt8) <<< (6 : UInt8))) |||
    ((0x30 : UInt8) &&& (type.toByte <<< (4 : UInt8))) ||| ((0x0F : UInt8) &&& UInt8.ofNat tokenLen)

/-- The four bytes of a header. -/
def udpHeader (packet : Packet) : List UInt8 :=
  [udpFirst packet.type packet.token.bytes.length, packet.code, (packet.mid >>> 8).toUInt8,
    packet.mid.toUInt8]

/-- `coap_serialize_message` into a buffer of some size. Nothing is written for a
header that is too long; `none` is a write behind the buffer. -/
def coapSerializeMessage (capacity : Nat) (packet : Packet) : Option (List UInt8) :=
  if packet.code = 0 then some (udpHeader packet)
  else
    let head := udpHeader packet ++ packet.token.bytes ++ serializeOptions packet
    let message := head ++ payloadMarker packet ++ packet.payload
    if head.length > capacity then none
    else if head.length > coapMaxHeaderSize then some []
    else if message.length > capacity then none
    else some message

/-- The terminator behind a payload; behind the datagram the receive buffer has room. -/
def terminatePayload : Parsed → Parsed
  | .error status => .error status
  | .ok (data, packet) =>
    .ok (if packet.payload.ptr ≠ 0 then data.set (packet.payload.ptr + packet.payload.len) 0
      else data, packet)

/-- `coap_parse_message` of a datagram whose length fits its 16-bit argument. -/
def coapParseMessage (data : List UInt8) : Option Parsed :=
  if data.length ≥ 65536 then none
  else data[0]?.bind fun first => data[1]?.bind fun code =>
    data[2]?.bind fun high => data[3]?.bind fun low =>
      let version := (0xC0 &&& first) >>> 6
      let type := CoapMessageType.ofByte ((0x30 &&& first) >>> 4)
      let tokenLen := min shortLen (0x0F &&& first).toNat
      if version ≠ 1 then some (.error badRequest400)
      else (readBytes data 4 tokenLen).bind fun token =>
        (parseBody (fun payload => min (data.length - payload) restMaxChunkSize) data (4 + tokenLen)
          ⟨version, type, code, (high.toUInt16 <<< 8) ||| low.toUInt16, .copy token⟩).map
          terminatePayload

/-! ## The round trip -/

/-- A packet a datagram can carry: it is no empty message, and header and payload fit. -/
structure FitsUdp (packet : Packet) : Prop where
  code : packet.code ≠ 0
  header : 4 + packet.token.bytes.length + (serializeOptions packet).length ≤ coapMaxHeaderSize
  payload : packet.payload.length ≤ restMaxChunkSize

/-- The datagram written for a packet. -/
def udpMessage (packet : Packet) : List UInt8 :=
  udpHeader packet ++ (packet.token.bytes ++ messageBody packet)

/-- The packet the receiver of a datagram sees. -/
def udpDelivered (sent : Packet) : Packet :=
  delivered sent ⟨1, sent.type, sent.code, sent.mid, sent.token⟩

section RoundTrip

variable {sent : Packet}

theorem udpMessage_length : (udpMessage sent).length =
    4 + sent.token.bytes.length + (messageBody sent).length := by
  rw [udpMessage, length_append, length_append, udpHeader]
  simp only [length_cons, length_nil]
  omega

theorem messageBody_length_le :
    (messageBody sent).length ≤ (serializeOptions sent).length + 1 + sent.payload.length := by
  have marker : (payloadMarker sent).length ≤ 1 := by
    unfold payloadMarker
    split <;> simp
  rw [messageBody, length_append, length_append]
  omega

theorem coapSerializeMessage_fits (fits : FitsUdp sent) {capacity : Nat}
    (enough : (udpMessage sent).length ≤ capacity) :
    coapSerializeMessage capacity sent = some (udpMessage sent) := by
  have header := fits.header
  have total := @udpMessage_length sent
  have body : (serializeOptions sent).length ≤ (messageBody sent).length := by
    rw [messageBody, length_append, length_append]
    omega
  have headLength : (udpHeader sent ++ sent.token.bytes ++ serializeOptions sent).length =
      4 + sent.token.bytes.length + (serializeOptions sent).length := by
    rw [length_append, length_append]
    rfl
  have message : udpHeader sent ++ sent.token.bytes ++ serializeOptions sent ++
      payloadMarker sent ++ sent.payload = udpMessage sent := by
    simp [udpMessage, messageBody]
  rw [coapSerializeMessage, if_neg fits.code]
  simp only [message, headLength]
  rw [if_neg (by omega), if_neg (by omega), if_neg (by omega)]

theorem udpFirst_fields (type : CoapMessageType) {tokenLen : Nat} (bound : tokenLen ≤ 8) :
    (0xC0 &&& udpFirst type tokenLen) >>> 6 = 1 ∧
      CoapMessageType.ofByte ((0x30 &&& udpFirst type tokenLen) >>> 4) = type ∧
      (0x0F &&& udpFirst type tokenLen).toNat = tokenLen := by
  have all : ∀ tokenLen : Fin 9, (0xC0 &&& udpFirst type tokenLen.val) >>> 6 = 1 ∧
      CoapMessageType.ofByte ((0x30 &&& udpFirst type tokenLen.val) >>> 4) = type ∧
      (0x0F &&& udpFirst type tokenLen.val).toNat = tokenLen.val := by
    cases type <;> decide
  exact all ⟨tokenLen, by omega⟩

/-- The two bytes of a message id give it back. -/
theorem mid_fromBytes (mid : UInt16) :
    ((mid >>> 8).toUInt8.toUInt16 <<< 8) ||| mid.toUInt8.toUInt16 = mid := by
  have bound := mid.toNat_lt
  have high : (((mid >>> 8).toUInt8.toUInt16) <<< 8).toNat = (mid.toNat / 256) <<< 8 := by
    rw [UInt16.toNat_shiftLeft, UInt8.toNat_toUInt16, UInt16.toNat_toUInt8, UInt16.toNat_shiftRight,
      show (8 : UInt16).toNat % 16 = 8 from rfl, Nat.shiftRight_eq_div_pow, Nat.shiftLeft_eq,
      Nat.shiftLeft_eq]
    omega
  have low : mid.toUInt8.toUInt16.toNat = mid.toNat % 256 := by
    rw [UInt8.toNat_toUInt16, UInt16.toNat_toUInt8]
  apply UInt16.toNat_inj.mp
  rw [UInt16.toNat_or, high, low, ← Nat.shiftLeft_add_eq_or_of_lt (by omega), Nat.shiftLeft_eq]
  omega

/-- A packet that fits a datagram comes back over UDP. -/
theorem coapParseMessage_udpMessage (expressible : Expressible sent) (fits : FitsUdp sent) :
    ∃ parsed, coapParseMessage (udpMessage sent) = some (.ok parsed) ∧
    received parsed = udpDelivered sent := by
  have tokenBound := sent.token.bounded
  have headerFits :
    4 + sent.token.bytes.length + (serializeOptions sent).length ≤ 512 := fits.header
  have payloadFits : sent.payload.length ≤ 1024 := fits.payload
  have total := @udpMessage_length sent
  have bodyLength := @messageBody_length_le sent
  obtain ⟨version, type, tokenLenBack⟩ := udpFirst_fields sent.type tokenBound
  have tokenLen : min shortLen (0x0F &&& udpFirst sent.type sent.token.bytes.length).toNat =
      sent.token.bytes.length := by
    rw [tokenLenBack]
    exact Nat.min_eq_right tokenBound
  have behind : (udpMessage sent).drop 4 = sent.token.bytes ++ messageBody sent := rfl
  have token : readBytes (udpMessage sent) 4 sent.token.bytes.length = some sent.token.bytes := by
    rw [readBytes, if_pos (by omega), behind, take_left]
  have body : (udpMessage sent).drop (4 + sent.token.bytes.length) = messageBody sent := by
    rw [← drop_drop, behind, drop_left]
  have payloadLen : sent.payload.length ≠ 0 →
      min ((udpMessage sent).length - (4 + sent.token.bytes.length +
      (serializeOptions sent).length + 1)) restMaxChunkSize = sent.payload.length := by
    intro filled
    have marked : (payloadMarker sent).length = 1 := by
      rw [payloadMarker, if_pos filled, length_singleton]
    rw [total, messageBody, length_append, length_append, marked, restMaxChunkSize]
    omega
  obtain ⟨⟨data, packet⟩, accepted, view, sameLength, payload⟩ := parseBody_written expressible
    ⟨1, sent.type, sent.code, sent.mid, sent.token⟩ body (by omega) (by omega)
    (fun payload => min ((udpMessage sent).length - payload) restMaxChunkSize) payloadLen
  -- The terminator falls behind the datagram.
  have kept : terminatePayload (.ok (data, packet)) = .ok (data, packet) := by
    rw [terminatePayload]
    split
    · rename_i marked
      have whole : packet.payload.ptr + packet.payload.len = data.length := by
        rcases payload with null | whole
        · exact absurd (congrArg BufRef.ptr null) marked
        · exact whole.trans sameLength.symm
      rw [set_eq_of_length_le (Nat.le_of_eq whole.symm)]
    · rfl
  refine ⟨(data, packet), ?_, view⟩
  have first : (udpMessage sent)[0]? = some (udpFirst sent.type sent.token.bytes.length) := rfl
  have code : (udpMessage sent)[1]? = some sent.code := rfl
  have high : (udpMessage sent)[2]? = some (sent.mid >>> 8).toUInt8 := rfl
  have low : (udpMessage sent)[3]? = some sent.mid.toUInt8 := rfl
  rw [coapParseMessage, if_neg (by omega), first, code, high, low]
  simp only [Option.bind_some, version, type, tokenLen, ne_eq, not_true_eq_false, if_false, token,
    ShortBytes.copy_bytes, mid_fromBytes, accepted, Option.map_some, kept]

/-- A datagram is no longer than the packet buffer of a transaction. -/
theorem udpMessage_length_le (fits : FitsUdp sent) :
    (udpMessage sent).length ≤ coapMaxPacketSize + 1 := by
  have header : 4 + sent.token.bytes.length + (serializeOptions sent).length ≤ 512 := fits.header
  have payload : sent.payload.length ≤ 1024 := fits.payload
  have body := @messageBody_length_le sent
  rw [udpMessage_length, show coapMaxPacketSize = 1536 from rfl]
  omega

end RoundTrip

end Idrm.Coap
