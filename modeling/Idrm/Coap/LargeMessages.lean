import Idrm.Coap.OptionBytes
import Idrm.Coap.OverTcp

/-!
# Large messages over TCP

The header of a message carries the length of what stands behind the token, in one of four
classes. Lengths of 16 bits come back, but for 268; a length of the last class does not, and a
payload of more than 16 bits is cut off before it is written.
-/

namespace Idrm.Coap

open Idrm.Lib Option List

/-! ## The frame of a message -/

/-- Where the options of a message start, and `options_payload_size`. -/
def tcpFrame (data : List UInt8) : Option (Nat × Nat) :=
  data[0]?.bind fun first => (tcpSize data (first >>> 4)).map
    fun (extLenField, optionsPayloadSize) =>
    (2 + extLenField + min shortLen (first &&& 0xF).toNat, optionsPayloadSize)

section Frame

variable {data : List UInt8} {start size : Nat}

/-- The size is read from the bytes before the code. -/
theorem tcpSize_front {other : List UInt8}
    {extLenField optionsPayloadSize : Nat} {lengthClass : UInt8}
    (sized : tcpSize data lengthClass = some (extLenField, optionsPayloadSize))
    (same : ∀ index ≤ extLenField, other[index]? = data[index]?) :
    tcpSize other lengthClass = some (extLenField, optionsPayloadSize) := by
  unfold tcpSize at sized ⊢
  split
  · rename_i tiny
    rwa [if_pos tiny] at sized
  · rename_i notTiny
    rw [if_neg notTiny] at sized
    split
    · rename_i short
      rw [if_pos short] at sized
      obtain ⟨byte, here, result⟩ := map_eq_some_iff.mp sized
      obtain ⟨rfl, rfl⟩ := Prod.mk.inj result
      rw [same 1 (Nat.le_refl 1), here]
      rfl
    · rename_i notShort
      rw [if_neg notShort] at sized
      split
      · rename_i medium
        rw [if_pos medium] at sized
        obtain ⟨high, first, sized⟩ := bind_eq_some_iff.mp sized
        obtain ⟨low, second, result⟩ := map_eq_some_iff.mp sized
        obtain ⟨rfl, rfl⟩ := Prod.mk.inj result
        rw [same 1 (by decide), same 2 (Nat.le_refl 2), first, second]
        rfl
      · rename_i notMedium
        rw [if_neg notMedium] at sized
        cases sized

/-- Without a frame nothing is parsed. -/
theorem coapParseMessageTcp_frameless (frameless : tcpFrame data = none) :
    coapParseMessageTcp data = none := by
  unfold tcpFrame at frameless
  unfold coapParseMessageTcp
  split
  · rfl
  · cases first : data[0]? with
    | none => rfl
    | some byte =>
      rw [first, bind_some] at frameless
      simp only [bind_some, map_eq_none_iff.mp frameless, bind_none]

/-- What the header says is in the bytes before the options. -/
theorem tcpFrame_front {other : List UInt8} (frame : tcpFrame data = some (start, size))
    (same : other.take start = data.take start) : tcpFrame other = some (start, size) := by
  obtain ⟨first, here, framed⟩ := bind_eq_some_iff.mp frame
  obtain ⟨⟨extLenField, optionsPayloadSize⟩, sized, result⟩ := map_eq_some_iff.mp framed
  obtain ⟨isStart, rfl⟩ := Prod.mk.inj result
  have before : ∀ index < start, other[index]? = data[index]? := by
    intro index inside
    rw [← List.getElem?_take_of_lt inside, same, List.getElem?_take_of_lt inside]
  rw [tcpFrame, before 0 (by omega), here, bind_some,
    tcpSize_front sized fun index inside => before index (by omega), ← isStart]
  rfl

/-- A message that is longer than what was received is refused, others are parsed from their
options on. -/
theorem coapParseMessageTcp_frame (frame : tcpFrame data = some (start, size)) : 2 ≤ start ∧
    ∃ header, ∀ other : List UInt8, other.length < 65536 → other.take start = data.take start →
    coapParseMessageTcp other = if start + size > other.length then some (.error badRequest400)
    else parseBody (tcpPayloadLen size start) other start header := by
  obtain ⟨first, here, framed⟩ := bind_eq_some_iff.mp frame
  obtain ⟨⟨extLenField, optionsPayloadSize⟩, sized, result⟩ := map_eq_some_iff.mp framed
  obtain ⟨isStart, rfl⟩ := Prod.mk.inj result
  refine ⟨by omega, ⟨1, .non, (data.take start).getD (1 + extLenField) 0,
    tokenMid (((data.take start).drop (2 + extLenField)).take (min shortLen (first &&& 0xF).toNat)),
    .copy (((data.take start).drop (2 + extLenField)).take (min shortLen (first &&& 0xF).toNat))⟩,
    fun other small same => ?_⟩
  have before : ∀ index < start, other[index]? = data[index]? := by
    intro index inside
    rw [← List.getElem?_take_of_lt inside, same, List.getElem?_take_of_lt inside]
  rw [coapParseMessageTcp, if_neg (by omega), before 0 (by omega), here, bind_some]
  simp only [tcpSize_front sized fun index inside => before index (by omega), bind_some]
  rw [show extLenField + min shortLen (first &&& 0xF).toNat + 2 + optionsPayloadSize = start +
    optionsPayloadSize by omega]
  split
  · rfl
  · rename_i whole
    have code : other[1 + extLenField]? = some ((data.take start).getD (1 + extLenField) 0) := by
      rw [← same, getD_eq_getElem?_getD, List.getElem?_take_of_lt (by omega)]
      rw [List.getElem?_eq_getElem (by omega), getD_some]
    have token : readBytes other (2 + extLenField) (min shortLen (first &&& 0xF).toNat) = some
        (((data.take start).drop (2 + extLenField)).take (min shortLen (first &&& 0xF).toNat)) := by
      rw [readBytes, if_pos (by omega), ← same, drop_take, take_take]
      congr 2
      omega
    rw [code, bind_some, token, bind_some, isStart]

end Frame

/-! ## The frame of a written message -/

/-- The lengths that the length field loses. -/
theorem tcpSize_lost {len : Nat} (bound : len < 2 ^ 32)
    (lost : len = 268 ∨ 65804 ≤ len) (first : UInt8) (tail : List UInt8) :
    tcpSize (first :: (tcpLength (UInt32.ofNat len)).2 ++ tail) (tcpLength (UInt32.ofNat len)).1 =
      if len = 268 then some (2, 65804) else none := by
  rcases lost with rfl | large
  · rfl
  · have value : (UInt32.ofNat len).toNat = len := by
      rw [UInt32.toNat_ofNat', Nat.mod_eq_of_lt bound]
    have least : ∀ limit : UInt32, limit.toNat ≤ 65804 → ¬ UInt32.ofNat len < limit := by
      intro limit small below
      rw [UInt32.lt_iff_toNat_lt, value] at below
      omega
    rw [tcpLength, if_neg (least 13 (by decide)), if_neg (least (0xFF + 13) (by decide)),
      if_neg (least (0xFFFF + 269) (by decide)), if_neg (by omega)]
    rfl

/-- A length field has at most two bytes but for the last class, and two from 268 on. -/
theorem tcpLength_length {len : Nat} (bound : len < 65804) :
    (tcpLength (UInt32.ofNat len)).2.length ≤ 2 ∧
    (268 ≤ len → (tcpLength (UInt32.ofNat len)).2.length = 2) := by
  have value : (UInt32.ofNat len).toNat = len := by
    rw [UInt32.toNat_ofNat', Nat.mod_eq_of_lt (by omega)]
  have below : ∀ limit : UInt32, UInt32.ofNat len < limit ↔ len < limit.toNat := by
    intro limit
    rw [UInt32.lt_iff_toNat_lt, value]
  have limits : (13 : UInt32).toNat = 13 ∧ (0xFF + 13 : UInt32).toNat = 268 ∧
    (0xFFFF + 269 : UInt32).toNat = 65804 := by decide
  unfold tcpLength
  simp only [below, limits]
  split
  · exact ⟨Nat.zero_le 2, fun least => by omega⟩
  · split
    · exact ⟨Nat.le_succ 1, fun least => by omega⟩
    · exact ⟨Nat.le_refl 2, fun _ => rfl⟩

section Written

variable {sent : Packet}

/-- The frame of a written message is that of its length field. -/
theorem tcpFrame_written (sent : Packet) : tcpFrame (tcpMessage sent) = (tcpSize (tcpMessage sent)
      (tcpLength (UInt32.ofNat (contentLength sent))).1).map fun (extLenField, size) =>
        (2 + extLenField + (tcpToken sent).bytes.length, size) := by
  obtain ⟨classBack, tokenLenBack⟩ :=
    tcpFirst_nibbles (tcpLength_class (UInt32.ofNat (contentLength sent))).1 (tcpToken sent).bounded
  have first : (tcpMessage sent)[0]? = some
    (tcpFirst (tcpToken sent).bytes.length (tcpLength (UInt32.ofNat (contentLength sent))).1) := rfl
  rw [tcpFrame, first, bind_some, classBack, tokenLenBack,
    Nat.min_eq_right (show _ ≤ shortLen from (tcpToken sent).bounded)]

theorem tcpMessage_length (sent : Packet) :
    (tcpMessage sent).length = 2 + (tcpLength (UInt32.ofNat (contentLength sent))).2.length +
      (tcpToken sent).bytes.length + contentLength sent := by
  simp only [tcpMessage, contentLength, length_cons, length_append]
  omega

/-- A length that the field has comes back, and the message ends where it says. -/
theorem tcpFrame_kept (sent : Packet)
    (bound : contentLength sent < 65804) (represented : contentLength sent ≠ 268) :
    ∃ start, tcpFrame (tcpMessage sent) = some (start, contentLength sent) ∧
    start + contentLength sent = (tcpMessage sent).length := by
  have sized := (tcpSize_tcpLength bound represented
    (tcpFirst (tcpToken sent).bytes.length (tcpLength (UInt32.ofNat (contentLength sent))).1)
    (sent.code :: ((tcpToken sent).bytes ++ messageBody sent))).2
  have message : tcpMessage sent = tcpFirst (tcpToken sent).bytes.length (tcpLength
    (UInt32.ofNat (contentLength sent))).1 :: (tcpLength (UInt32.ofNat (contentLength sent))).2 ++
    sent.code :: ((tcpToken sent).bytes ++ messageBody sent) := rfl
  rw [← message] at sized
  refine ⟨_, by rw [tcpFrame_written, sized]; rfl, ?_⟩
  exact (tcpMessage_length sent).symm

/-- A length that the field does not have is lost. -/
theorem tcpFrame_lost {start size : Nat} (bound : contentLength sent < 2 ^ 32)
    (lost : contentLength sent = 268 ∨ 65804 ≤ contentLength sent)
    (frame : tcpFrame (tcpMessage sent) = some (start, size)) : size = 65804 := by
  have sized := tcpSize_lost bound lost
    (tcpFirst (tcpToken sent).bytes.length (tcpLength (UInt32.ofNat (contentLength sent))).1)
    (sent.code :: ((tcpToken sent).bytes ++ messageBody sent))
  have message : tcpMessage sent = tcpFirst (tcpToken sent).bytes.length (tcpLength
    (UInt32.ofNat (contentLength sent))).1 :: (tcpLength (UInt32.ofNat (contentLength sent))).2 ++
    sent.code :: ((tcpToken sent).bytes ++ messageBody sent) := rfl
  rw [← message] at sized
  rw [tcpFrame_written, sized] at frame
  split at frame
  · exact (Prod.mk.inj (some.inj frame)).2.symm
  · cases frame

/-! ## The payload of a written message -/

/-- Options, marker and payload of a packet that is sent with a payload. -/
def contentSize (packet : Packet) (payload : List UInt8) : Nat :=
  (serializeOptions packet).length + (if payload = [] then 0 else 1) + payload.length

/-- What `coap_parse_message_tcp` sees of a message: its length argument has 16 bits. -/
def tcpData (message : List UInt8) : List UInt8 := message.take (message.length % 65536)

/-- Whether the parser refuses a packet for an option it does not support. -/
def HasProxy (packet : Packet) : Prop := packet.isOption .proxyUri = true ∨
    packet.isOption .proxyScheme = true

/-- What is sent with a payload comes back with it: the length in the header is read as it is, and
the packet that is parsed has the whole payload. Proxy options are answered with 5.05. -/
def CarriesPayload (packet : Packet) (payload : List UInt8) : Prop :=
  ∃ message left start result,
    coapSerializeMessageTcp (coapSetPayloadTcp payload packet) = some (message, left) ∧
    tcpFrame message = some (start, contentSize packet payload) ∧
    (coapParseMessageTcp (tcpData message)).map (Except.map received) = some result ∧
    ((∃ packet, result = .ok packet ∧ packet.payload = payload) ∨
    (HasProxy packet ∧ result = .error proxyingNotSupported505))

theorem contentLength_eq (sent : Packet) : contentLength sent = contentSize sent sent.payload := by
  rw [contentLength, messageBody, contentSize, payloadMarker, length_append, length_append]
  by_cases empty : sent.payload = []
  · rw [if_neg (by rw [empty]; decide), if_pos empty, length_nil]
  · rw [if_pos (by rwa [ne_eq, length_eq_zero_iff]), if_neg empty, length_singleton]

variable {packet : Packet} {payload : List UInt8}

/-- What is sent with its payload has a length of 16 bits. -/
theorem CarriesPayload.small (carries : CarriesPayload packet payload)
    (fits : FitsTcp (coapSetPayloadTcp payload packet)) : contentSize packet payload ≠ 268 ∧
    contentSize packet payload + (tcpToken packet).bytes.length ≤ 65531 := by
  obtain ⟨message, left, start, result, written, frame, parsed, outcome⟩ := carries
  rw [coapSerializeMessageTcp_fits fits] at written
  obtain ⟨rfl, -⟩ := Prod.mk.inj (some.inj written)
  obtain ⟨answer, parses, rfl⟩ := map_eq_some_iff.mp parsed
  have received : (tcpData (tcpMessage (coapSetPayloadTcp payload packet))).length =
      (tcpMessage (coapSetPayloadTcp payload packet)).length % 65536 := by
    rw [tcpData, length_take]
    exact Nat.min_eq_left (Nat.mod_le _ _)
  -- the message is not refused for its length
  have whole : start + contentSize packet payload ≤
      (tcpMessage (coapSetPayloadTcp payload packet)).length % 65536 := by
    cases seen : tcpFrame (tcpData (tcpMessage (coapSetPayloadTcp payload packet))) with
    | none =>
      rw [coapParseMessageTcp_frameless seen] at parses
      cases parses
    | some field =>
      obtain ⟨-, header, framed⟩ := coapParseMessageTcp_frame seen
      rw [framed _ (by omega) rfl] at parses
      split at parses
      · obtain rfl := some.inj parses
        rcases outcome with ⟨packet, accepted, -⟩ | ⟨-, refused⟩
        · cases accepted
        · exact absurd (Except.error.inj refused) (by decide)
      · rename_i inside
        have same : (tcpMessage (coapSetPayloadTcp payload packet)).take field.1 =
            (tcpData (tcpMessage (coapSetPayloadTcp payload packet))).take field.1 := by
          rw [tcpData, take_take, Nat.min_eq_left (by omega)]
        have frameToo := tcpFrame_front seen same
        rw [frame] at frameToo
        obtain ⟨rfl, isSize⟩ := Prod.mk.inj (some.inj frameToo)
        omega
  have bound : contentLength (coapSetPayloadTcp payload packet) < 512 + 65536 := by
    have options := fits.options
    have cut : (coapSetPayloadTcp payload packet).payload.length ≤
      min (1024 * 1024) payload.length % 65536 := length_take_le _ _
    rw [contentLength, messageBody, length_append]
    omega
  by_cases lost : contentLength (coapSetPayloadTcp payload packet) = 268 ∨
    65804 ≤ contentLength (coapSetPayloadTcp payload packet)
  · have size := tcpFrame_lost (by omega) lost frame
    omega
  · obtain ⟨start', kept, ends⟩ :=
      tcpFrame_kept (coapSetPayloadTcp payload packet) (by omega) (by omega)
    rw [kept] at frame
    obtain ⟨rfl, same⟩ := Prod.mk.inj (some.inj frame)
    have parts := tcpMessage_length (coapSetPayloadTcp payload packet)
    have extension :=
      tcpLength_length (show contentLength (coapSetPayloadTcp payload packet) < 65804 by omega)
    have token : (tcpToken (coapSetPayloadTcp payload packet)).bytes.length =
      (tcpToken packet).bytes.length := rfl
    have tokenBound := (tcpToken packet).bounded
    omega

/-- A payload of 16 bits is not cut off. -/
theorem coapSetPayloadTcp_whole (small : payload.length < 65536) :
    coapSetPayloadTcp payload packet = { packet with payload := payload } := by
  rw [coapSetPayloadTcp, Nat.min_eq_right (by omega), Nat.mod_eq_of_lt small, take_length]

/-- Behind the frame stands the body. -/
theorem drop_tcpMessage (sent : Packet)
    {start : Nat} (ends : start + contentLength sent = (tcpMessage sent).length) :
    (tcpMessage sent).drop start = messageBody sent := by
  have split : tcpMessage sent =
      (tcpFirst (tcpToken sent).bytes.length (tcpLength (UInt32.ofNat (contentLength sent))).1 ::
      ((tcpLength (UInt32.ofNat (contentLength sent))).2 ++ sent.code :: (tcpToken sent).bytes)) ++
      messageBody sent := by
    simp [tcpMessage]
  have body : contentLength sent = (messageBody sent).length := rfl
  rw [split, length_append, ← body] at ends
  rw [split]
  exact drop_left' (by omega)

/-- A written body is parsed with its payload, or refused for a Proxy option. -/
theorem parseBody_messageBody {data : List UInt8}
    {current : Nat} (here : data.drop current = messageBody sent)
    (inside : current ≤ data.length) (small : (serializeOptions sent).length < 65536)
    (payloadLen : Nat → Nat) (whole : sent.payload.length ≠ 0 →
      payloadLen (current + (serializeOptions sent).length + 1) = sent.payload.length)
    (header : Header) :
    ∃ result, (parseBody payloadLen data current header).map (Except.map received) = some result ∧
    ((∃ packet, result = .ok packet ∧ packet.payload = sent.payload) ∨
      (HasProxy sent ∧ result = .error proxyingNotSupported505)) := by
  have front :
      data.drop current = serializeOptions sent ++ (payloadMarker sent ++ sent.payload) := by
    rw [here, messageBody, append_assoc]
  by_cases supported : ∀ entry ∈ writtenOptions sent, entry.1.supported = true
  · obtain ⟨fuel, number, packet, untouched, loops⟩ :=
      parseOptions_supported supported front inside small (header.packet [])
    have behind : data.drop (current + (serializeOptions sent).length) = payloadMarker sent ++
        sent.payload := by
      rw [← drop_drop, front, drop_left]
    by_cases filled : sent.payload.length ≠ 0
    · rw [payloadMarker, if_pos filled] at behind
      rw [parseOptionsLoop_marker byValue behind] at loops
      refine ⟨_, parseBody_byValue loops payloadLen, .inl ⟨_, rfl, ?_⟩⟩
      change (data.drop _).take _ = _
      rw [whole filled, ← drop_drop, behind]
      exact take_length
    · rw [payloadMarker, if_neg filled,
        length_eq_zero_iff.mp (Decidable.not_not.mp filled)] at behind
      rw [parseOptionsLoop_end byValue behind] at loops
      refine ⟨_, parseBody_byValue loops payloadLen, .inl ⟨packet, rfl, ?_⟩⟩
      rw [untouched]
      exact (length_eq_zero_iff.mp (Decidable.not_not.mp filled)).symm
  · simp only [not_forall, Bool.not_eq_true] at supported
    obtain ⟨entry, member, unsupported⟩ := supported
    have loops := parseOptions_unsupported member unsupported front inside small (header.packet [])
    refine ⟨_, parseBody_byValue loops payloadLen, .inr ⟨?_, rfl⟩⟩
    obtain ⟨option, -, entryMember⟩ := mem_flatMap.mp member
    obtain ⟨present, rfl⟩ := mem_writtenEntries entryMember
    rcases unsupported_proxy unsupported with isUri | isScheme
    · exact .inl (isUri ▸ present)
    · exact .inr (isScheme ▸ present)

/-- Whatever has a length of 16 bits other than 268 is sent with its payload. -/
theorem carriesPayload_of_small (fits : FitsTcp (coapSetPayloadTcp payload packet))
    (represented : contentSize packet payload ≠ 268)
    (small : contentSize packet payload + (tcpToken packet).bytes.length ≤ 65531) :
    CarriesPayload packet payload := by
  have whole : coapSetPayloadTcp payload packet = { packet with payload := payload } :=
    coapSetPayloadTcp_whole (by rw [contentSize] at small; omega)
  have content : contentLength { packet with payload := payload } = contentSize packet payload :=
    contentLength_eq _
  have token : (tcpToken { packet with payload := payload }).bytes = (tcpToken packet).bytes := rfl
  have tokenBound := (tcpToken packet).bounded
  rw [whole] at fits
  obtain ⟨start, frame, ends⟩ :=
    tcpFrame_kept { packet with payload := payload } (by omega) (by omega)
  have parts := tcpMessage_length { packet with payload := payload }
  have extension :=
    (tcpLength_length (show contentLength { packet with payload := payload } < 65804 by omega)).1
  rw [content] at frame extension
  rw [token, content] at parts
  obtain ⟨-, header, framed⟩ := coapParseMessageTcp_frame frame
  have received : tcpData (tcpMessage { packet with payload := payload }) = tcpMessage
      { packet with payload := payload } := by
    rw [tcpData, Nat.mod_eq_of_lt (by omega), take_length]
  have optionBytes : (serializeOptions { packet with payload := payload }).length =
    (serializeOptions packet).length := rfl
  have payloadLen : payload.length ≠ 0 → tcpPayloadLen (contentSize packet payload) start
      (start + (serializeOptions { packet with payload := payload }).length + 1) =
      payload.length := by
    intro filled
    have some_ : payload ≠ [] := fun empty => filled (by rw [empty, length_nil])
    rw [contentSize, if_neg some_] at small ⊢
    rw [tcpPayloadLen, optionBytes]
    omega
  obtain ⟨result, parses, outcome⟩ := parseBody_messageBody (drop_tcpMessage _ ends) (by omega)
    (by rw [contentSize] at small; omega) (tcpPayloadLen (contentSize packet payload) start)
    payloadLen header
  refine ⟨_, _, start, result, by rw [whole]; exact coapSerializeMessageTcp_fits fits,
    frame, ?_, outcome⟩
  rw [received, framed _ (by omega) rfl, if_neg (by omega)]
  exact parses

/-- A payload is sent over TCP and comes back whole, with its length in the header, exactly when
options, marker and payload are not 268 bytes, and with the token no more than 65531. -/
theorem carriesPayload_iff (fits : FitsTcp (coapSetPayloadTcp payload packet)) :
    CarriesPayload packet payload ↔ contentSize packet payload ≠ 268 ∧
    contentSize packet payload + (tcpToken packet).bytes.length ≤ 65531 := by
  constructor
  · exact fun carries => carries.small fits
  · rintro ⟨represented, small⟩
    exact carriesPayload_of_small fits represented small

theorem carriesPayload_iff_three :
    FitsTcp (coapSetPayloadTcp [1, 2, 3] (coapInitMessage .con coapPut 1)) ∧
    (CarriesPayload (coapInitMessage .con coapPut 1) [1, 2, 3] ↔
      contentSize (coapInitMessage .con coapPut 1) [1, 2, 3] ≠ 268 ∧
      contentSize (coapInitMessage .con coapPut 1) [1, 2,
      3] + (tcpToken (coapInitMessage .con coapPut 1)).bytes.length ≤ 65531) :=
  ⟨⟨by decide, by decide⟩, carriesPayload_iff ⟨by decide, by decide⟩⟩

/-- A payload of 70000 bytes. -/
def largePayload : List UInt8 := List.replicate 70000 0x61

/-- It is admitted, and does not come back. -/
theorem carriesPayload_fails : largePayload.length ≤ 1024 * 1024 ∧
    FitsTcp (coapSetPayloadTcp largePayload (coapInitMessage .con coapPut 1)) ∧
    ¬ CarriesPayload (coapInitMessage .con coapPut 1) largePayload := by
  have length : largePayload.length = 70000 := length_replicate
  have fits : FitsTcp (coapSetPayloadTcp largePayload (coapInitMessage .con coapPut 1)) := by
    refine ⟨by decide, ?_⟩
    have marker :=
      payloadMarker_length (coapSetPayloadTcp largePayload (coapInitMessage .con coapPut 1))
    have options : serializeOptions
      (coapSetPayloadTcp largePayload (coapInitMessage .con coapPut 1)) = [] := by decide
    rw [options, nil_append]
    omega
  refine ⟨by omega, fits, fun carries => ?_⟩
  have small := (carries.small fits).2
  rw [contentSize, length] at small
  omega

end Written

end Idrm.Coap
