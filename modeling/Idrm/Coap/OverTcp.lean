import Idrm.Coap.Message

/-!
# CoAP over TCP

Over TCP the header carries the length of options and payload, in one of four
classes, and neither type nor message id. A packet without a token is sent with its
message id as token, and the parser takes the message id from the token.
-/

namespace Idrm.Coap

open Idrm.Lib Option List

/-- The token a packet is sent with over TCP. -/
def tcpToken (packet : Packet) : ShortBytes :=
  if packet.token.bytes.length = 0 then ⟨midBytes packet.mid, by simp [midBytes]⟩ else packet.token

/-- Length class and extension bytes of a message. -/
def tcpLength (len : UInt32) : UInt8 × List UInt8 :=
  if len < 13 then (len.toUInt8, [])
  else if len < 0xFF + 13 then (13, [(len - 13).toUInt8])
  else if len < 0xFFFF + 269 then (14, [((len - 269) >>> 8).toUInt8, (len - 269).toUInt8])
  else (15, [((len - 65805) >>> 24).toUInt8, ((len - 65805) >>> 16).toUInt8,
    ((len - 65805) >>> 8).toUInt8, (len - 65805).toUInt8])

/-- The first byte of a message. -/
def tcpFirst (tokenLen : Nat) (lengthClass : UInt8) : UInt8 :=
  (UInt8.ofNat tokenLen &&& (0xF : UInt8)) ||| (lengthClass <<< (4 : UInt8))

/-- The size of the buffer options are written to. -/
def tcpOptionBuffer : Nat := 512

/-- `coap_serialize_message_tcp`: the message and the packet it leaves. Nothing is
written for strings it takes to be too long; `none` is a write behind the option
buffer. -/
def coapSerializeMessageTcp (packet : Packet) : Option (List UInt8 × Packet) :=
  let packet := { packet with token := tcpToken packet }
  if packet.uriHost.length + packet.uriPath.length + packet.uriQuery.length >
    tcpOptionBuffer - 64 then
    some ([], packet)
  else
    let options := serializeOptions packet ++ payloadMarker packet
    if options.length > tcpOptionBuffer then none
    else
      let (lengthClass, extension) :=
        tcpLength (UInt32.ofNat (options.length + packet.payload.length))
      some (tcpFirst packet.token.bytes.length lengthClass :: extension ++ [packet.code] ++
        packet.token.bytes ++ options ++ packet.payload, packet)

/-- `ext_len_field` and `options_payload_size`. In the last class the shifts bind
weaker than the sums between them and exceed the width of their type. -/
def tcpSize (data : List UInt8) (lengthClass : UInt8) : Option (Nat × Nat) :=
  if lengthClass < 13 then some (0, lengthClass.toNat)
  else if lengthClass = 13 then data[1]?.map fun byte => (1, byte.toNat + 13)
  else if lengthClass = 14 then
    data[1]?.bind fun high => data[2]?.map fun low => (2, high.toNat * 256 + low.toNat + 269)
  else none

/-- The message id a token stands for, when it has two bytes or more. -/
def tokenMid (token : List UInt8) : UInt16 :=
  if token.length ≥ 2 then (token.getD 0 0).toUInt16 ||| ((token.getD 1 0).toUInt16 <<< 8) else 0

/-- `payload_len`, as the stated size leaves it in 16 bits. -/
def tcpPayloadLen (optionsPayloadSize optionStart payload : Nat) : Nat :=
  (optionsPayloadSize + 65536 - (payload - optionStart) % 65536) % 65536

/-- `coap_parse_message_tcp` of a buffer whose length fits its 16-bit argument. -/
def coapParseMessageTcp (data : List UInt8) : Option Parsed :=
  if data.length ≥ 65536 then none
  else data[0]?.bind fun first =>
    let tokenLen := min shortLen (first &&& 0xF).toNat
    (tcpSize data (first >>> 4)).bind fun (extLenField, optionsPayloadSize) =>
      if extLenField + tokenLen + 2 + optionsPayloadSize > data.length then
        some (.error badRequest400)
      else data[1 + extLenField]?.bind fun code =>
        (readBytes data (2 + extLenField) tokenLen).bind fun token =>
          let optionStart := 2 + extLenField + tokenLen
          parseBody (tcpPayloadLen optionsPayloadSize optionStart) data optionStart
            ⟨1, .non, code, tokenMid token, .copy token⟩

/-! ## The length field -/

/-- Class 14 starts one byte too early, so a length of 268 is not represented. -/
theorem tcpSize_tcpLength {len : Nat} (bound : len < 65804) (represented : len ≠ 268)
    (first : UInt8) (tail : List UInt8) : (tcpLength (UInt32.ofNat len)).1 < 15 ∧
    tcpSize (first :: (tcpLength (UInt32.ofNat len)).2 ++ tail) (tcpLength (UInt32.ofNat len)).1 =
      some ((tcpLength (UInt32.ofNat len)).2.length, len) := by
  have value : (UInt32.ofNat len).toNat = len := by
    rw [UInt32.toNat_ofNat', Nat.mod_eq_of_lt (by omega)]
  have below : ∀ limit : UInt32, UInt32.ofNat len < limit ↔ len < limit.toNat := by
    intro limit
    rw [UInt32.lt_iff_toNat_lt, value]
  have less : ∀ base : UInt32, base.toNat ≤ len →
      (UInt32.ofNat len - base).toNat = len - base.toNat := by
    intro base under
    rw [UInt32.toNat_sub_of_le _ _ (by rw [UInt32.le_iff_toNat_le, value]; exact under), value]
  unfold tcpLength
  by_cases tiny : UInt32.ofNat len < 13
  · have small : len < 13 := (below 13).mp tiny
    have lengthClass : (UInt32.ofNat len).toUInt8.toNat = len := by
      rw [UInt32.toNat_toUInt8, value]
      omega
    have isClass : (UInt32.ofNat len).toUInt8 < 13 := by
      rw [UInt8.lt_iff_toNat_lt, lengthClass]
      exact small
    rw [if_pos tiny]
    refine ⟨UInt8.lt_trans isClass (by decide), ?_⟩
    rw [tcpSize, if_pos isClass, lengthClass]
    rfl
  · rw [if_neg tiny]
    have over13 : 13 ≤ len := Nat.not_lt.mp fun less => tiny ((below 13).mpr less)
    by_cases short : UInt32.ofNat len < 0xFF + 13
    · have small : len < 268 := (below (0xFF + 13)).mp short
      have byte : (UInt32.ofNat len - 13).toUInt8.toNat + 13 = len := by
        rw [UInt32.toNat_toUInt8, less 13 over13, show (13 : UInt32).toNat = 13 from rfl]
        omega
      rw [if_pos short]
      refine ⟨show (13 : UInt8) < 15 by decide, ?_⟩
      simp only [tcpSize, cons_append, List.getElem?_cons_succ, List.getElem?_cons_zero,
        map_some, byte]
      rfl
    · have over269 : 269 ≤ len := by
        have least : 268 ≤ len := Nat.not_lt.mp fun less => short ((below (0xFF + 13)).mpr less)
        omega
      have medium : UInt32.ofNat len < 0xFFFF + 269 :=
        (below (0xFFFF + 269)).mpr bound
      have high : ((UInt32.ofNat len - 269) >>> 8).toUInt8.toNat = (len - 269) / 256 := by
        rw [UInt32.toNat_toUInt8, UInt32.toNat_shiftRight, less 269 over269,
          show (8 : UInt32).toNat % 32 = 8 from rfl, Nat.shiftRight_eq_div_pow,
          show (269 : UInt32).toNat = 269 from rfl]
        omega
      have low : (UInt32.ofNat len - 269).toUInt8.toNat = (len - 269) % 256 := by
        rw [UInt32.toNat_toUInt8, less 269 over269]
        rfl
      rw [if_neg short, if_pos medium]
      refine ⟨show (14 : UInt8) < 15 by decide, ?_⟩
      simp only [tcpSize, cons_append, List.getElem?_cons_succ, List.getElem?_cons_zero,
        bind_some, map_some, high, low]
      simp
      omega

/-! ## The round trip -/

/-- The first byte gives length class and token length back. -/
theorem tcpFirst_nibbles {lengthClass : UInt8} (isClass : lengthClass < 16) {tokenLen : Nat}
    (bound : tokenLen ≤ 8) :
    tcpFirst tokenLen lengthClass >>> 4 = lengthClass ∧
      (tcpFirst tokenLen lengthClass &&& 0xF).toNat = tokenLen := by
  have small : lengthClass.toNat < 16 := UInt8.lt_iff_toNat_lt.mp isClass
  have all : ∀ tokenLen : Fin 9, ∀ lengthClass : Fin 16,
      tcpFirst tokenLen.val (UInt8.ofNat lengthClass.val) >>> 4 = UInt8.ofNat lengthClass.val ∧
      (tcpFirst tokenLen.val (UInt8.ofNat lengthClass.val) &&& 0xF).toNat = tokenLen.val := by
    decide
  have here := all ⟨tokenLen, by omega⟩ ⟨lengthClass.toNat, small⟩
  simpa only [UInt8.ofNat_toNat] using here

/-- The length of options, marker and payload, which the header carries. -/
def contentLength (packet : Packet) : Nat := (messageBody packet).length

section RoundTrip

variable {sent : Packet}

/-- A packet whose options fit the buffers of the writer. -/
structure FitsTcp (packet : Packet) : Prop where
  strings : packet.uriHost.length + packet.uriPath.length + packet.uriQuery.length ≤ 448
  options : (serializeOptions packet ++ payloadMarker packet).length ≤ 512

/-- The message written for a packet. -/
def tcpMessage (packet : Packet) : List UInt8 :=
  let (lengthClass, extension) := tcpLength (UInt32.ofNat (contentLength packet))
  tcpFirst (tcpToken packet).bytes.length lengthClass ::
    (extension ++ packet.code :: ((tcpToken packet).bytes ++ messageBody packet))

theorem coapSerializeMessageTcp_fits (fits : FitsTcp sent) : coapSerializeMessageTcp sent =
      some (tcpMessage sent, { sent with token := tcpToken sent }) := by
  have strings := fits.strings
  have options := fits.options
  have sameOptions :
    serializeOptions { sent with token := tcpToken sent } = serializeOptions sent := rfl
  have sameMarker : payloadMarker { sent with token := tcpToken sent } = payloadMarker sent := rfl
  unfold coapSerializeMessageTcp
  simp only [sameOptions, sameMarker]
  rw [if_neg (by simp only [tcpOptionBuffer]; omega),
    if_neg (by simp only [tcpOptionBuffer]; omega)]
  simp [tcpMessage, contentLength, messageBody, length_append, Nat.add_assoc]

/-- The token a packet is sent with, in words of the packet. -/
theorem tcpToken_bytes (packet : Packet) :
    (tcpToken packet).bytes =
      if packet.token.bytes = [] then midBytes packet.mid else packet.token.bytes := by
  unfold tcpToken
  by_cases empty : packet.token.bytes = []
  · rw [if_pos (by rw [empty]; rfl), if_pos empty]
  · rw [if_neg (by rwa [length_eq_zero_iff]), if_neg empty]

/-- The parser finds header, token, options and payload where the writer put them. -/
theorem coapParseMessageTcp_tcpMessage (expressible : Expressible sent) (fits : FitsTcp sent)
    (represented : contentLength sent ≠ 268) (size : (tcpMessage sent).length ≤ 65535) :
    ∃ parsed, coapParseMessageTcp (tcpMessage sent) = some (.ok parsed) ∧
      received parsed = delivered sent
        ⟨1, .non, sent.code, tokenMid (tcpToken sent).bytes, tcpToken sent⟩ := by
  have tokenBound := (tcpToken sent).bounded
  generalize lengthField : tcpLength (UInt32.ofNat (contentLength sent)) = field
  obtain ⟨lengthClass, extension⟩ := field
  have message : tcpMessage sent = tcpFirst (tcpToken sent).bytes.length lengthClass ::
      (extension ++ sent.code :: ((tcpToken sent).bytes ++ messageBody sent)) := by
    rw [tcpMessage, lengthField]
  have total : (tcpMessage sent).length =
      extension.length + (tcpToken sent).bytes.length + 2 + contentLength sent := by
    rw [message, contentLength]
    simp only [length_cons, length_append]
    omega
  have sized := tcpSize_tcpLength (by omega : contentLength sent < 65804) represented
    (tcpFirst (tcpToken sent).bytes.length lengthClass)
    (sent.code :: ((tcpToken sent).bytes ++ messageBody sent))
  rw [lengthField, cons_append, ← message] at sized
  obtain ⟨isClass, sized⟩ := sized
  obtain ⟨classBack, tokenLenBack⟩ :=
    tcpFirst_nibbles (UInt8.lt_trans isClass (by decide)) tokenBound
  have tokenLen : min shortLen (tcpFirst (tcpToken sent).bytes.length lengthClass &&& 0xF).toNat =
      (tcpToken sent).bytes.length := by
    rw [tokenLenBack]
    exact Nat.min_eq_right tokenBound
  have behind : ∀ offset, (tcpMessage sent).drop (1 + extension.length + offset) =
      (sent.code :: ((tcpToken sent).bytes ++ messageBody sent)).drop offset := by
    intro offset
    rw [message, ← drop_drop, Nat.add_comm 1, drop_succ_cons, drop_left]
  have code : (tcpMessage sent)[1 + extension.length]? = some sent.code := by
    rw [← List.head?_drop]
    exact congrArg List.head? (behind 0)
  have token : readBytes (tcpMessage sent) (2 + extension.length) (tcpToken sent).bytes.length =
      some (tcpToken sent).bytes := by
    have here := behind 1
    rw [show 1 + extension.length + 1 = 2 + extension.length by omega] at here
    rw [readBytes, if_pos (by omega), here, drop_succ_cons, drop_zero, take_left]
  have body : (tcpMessage sent).drop (2 + extension.length + (tcpToken sent).bytes.length) =
      messageBody sent := by
    rw [show 2 + extension.length + (tcpToken sent).bytes.length =
      1 + extension.length + ((tcpToken sent).bytes.length + 1) by omega, behind, drop_succ_cons,
      drop_left]
  have optionsFit := fits.options
  rw [length_append] at optionsFit
  have first :
      (tcpMessage sent)[0]? = some (tcpFirst (tcpToken sent).bytes.length lengthClass) := by
    rw [message]
    rfl
  have bounded : ¬ (tcpMessage sent).length ≥ 65536 := by omega
  have complete : ¬ extension.length + (tcpToken sent).bytes.length + 2 + contentLength sent >
      (tcpMessage sent).length := by omega
  have payloadLen : sent.payload.length ≠ 0 →
      tcpPayloadLen (contentLength sent) (2 + extension.length + (tcpToken sent).bytes.length)
        (2 + extension.length + (tcpToken sent).bytes.length + (serializeOptions sent).length + 1) =
          sent.payload.length := by
    intro filled
    have marked : (payloadMarker sent).length = 1 := by
      rw [payloadMarker, if_pos filled, length_singleton]
    have content :
        contentLength sent = (serializeOptions sent).length + 1 + sent.payload.length := by
      rw [contentLength, messageBody, length_append, length_append, marked]
    unfold tcpPayloadLen
    omega
  obtain ⟨parsed, accepted, view, -⟩ := parseBody_written expressible ⟨1, .non, sent.code,
    tokenMid (tcpToken sent).bytes, tcpToken sent⟩ body (by omega) (by omega) _ payloadLen
  refine ⟨parsed, ?_, view⟩
  rw [coapParseMessageTcp, if_neg bounded, first, bind_some]
  simp only [tokenLen]
  rw [classBack, sized, bind_some]
  simp only
  rw [if_neg complete, code, bind_some, token, bind_some, ShortBytes.copy_bytes]
  exact accepted

/-- A packet whose strings and options fit the writer's buffers comes back over TCP
with its code, token, options and payload; without a token it comes back with the
bytes of its message id. -/
theorem coapSerializeMessageTcp_roundTrip (expressible : Expressible sent) (fits : FitsTcp sent)
    (represented : contentLength sent ≠ 268) :
    ∃ message left, coapSerializeMessageTcp sent = some (message, left) ∧
      (message.length ≤ 65535 → ∃ parsed, coapParseMessageTcp message = some (.ok parsed) ∧
        (received parsed).code = sent.code ∧
        (received parsed).token.bytes =
          (if sent.token.bytes = [] then midBytes sent.mid else sent.token.bytes) ∧
        SameOptions sent (received parsed) ∧ (received parsed).payload = sent.payload) := by
  refine ⟨_, _, coapSerializeMessageTcp_fits fits, fun size => ?_⟩
  obtain ⟨parsed, accepted, view⟩ :=
    coapParseMessageTcp_tcpMessage expressible fits represented size
  have header := delivered_header sent
    ⟨1, .non, sent.code, tokenMid (tcpToken sent).bytes, tcpToken sent⟩
  refine ⟨parsed, accepted, ?_, ?_, ?_, ?_⟩
  · rw [view, header.code]
  · rw [view, header.token, tcpToken_bytes]
  · rw [view]
    exact delivered_sameOptions expressible _
  · rw [view]
    rfl

end RoundTrip

/-! ## The token on the wire -/

/-- The bytes of a length field, by its class. -/
def tcpExtLen (lengthClass : UInt8) : Nat :=
  if lengthClass < 13 then 0 else if lengthClass = 13 then 1 else if lengthClass = 14 then 2 else 4

/-- The token a message carries. -/
def tcpTokenOf (message : List UInt8) : Option (List UInt8) :=
  message[0]?.bind fun first =>
    readBytes message (2 + tcpExtLen (first >>> 4)) (min shortLen (first &&& 0xF).toNat)

theorem tcpLength_class (len : UInt32) :
    (tcpLength len).1 < 16 ∧ (tcpLength len).2.length = tcpExtLen (tcpLength len).1 := by
  unfold tcpLength
  split
  · rename_i small
    have isClass : len.toUInt8 < 13 := by
      rw [UInt32.lt_iff_toNat_lt] at small
      have value : len.toNat < 13 := small
      rw [UInt8.lt_iff_toNat_lt, UInt32.toNat_toUInt8]
      exact Nat.lt_of_le_of_lt (Nat.mod_le _ _) value
    refine ⟨UInt8.lt_trans isClass (by decide), ?_⟩
    rw [tcpExtLen, if_pos isClass]
    rfl
  · split
    · exact ⟨show (13 : UInt8) < 16 by decide, rfl⟩
    · split
      · exact ⟨show (14 : UInt8) < 16 by decide, rfl⟩
      · exact ⟨show (15 : UInt8) < 16 by decide, rfl⟩

/-- The token is found behind the length field and the code. -/
theorem tcpTokenOf_framed {lengthClass code : UInt8}
    {extension token : List UInt8} (rest : List UInt8)
    (isClass : lengthClass < 16) (extended : extension.length = tcpExtLen lengthClass)
    (bound : token.length ≤ 8) :
    tcpTokenOf (tcpFirst token.length lengthClass :: (extension ++ code :: (token ++ rest))) =
      some token := by
  obtain ⟨classBack, tokenLen⟩ := tcpFirst_nibbles isClass bound
  have behind : (tcpFirst token.length lengthClass :: (extension ++ code :: (token ++ rest))).drop
      (2 + extension.length) = token ++ rest := by
    rw [show 2 + extension.length = extension.length + 1 + 1 by omega, drop_succ_cons, ← drop_drop,
      drop_left]
    rfl
  have inside : 2 + extension.length + token.length ≤
      (tcpFirst token.length lengthClass :: (extension ++ code :: (token ++ rest))).length := by
    simp only [length_cons, length_append]
    omega
  rw [tcpTokenOf, List.getElem?_cons_zero, bind_some, classBack, tokenLen, ← extended,
    Nat.min_eq_right (show token.length ≤ shortLen from bound), readBytes, if_pos inside, behind,
    take_left]

/-- Whatever is written carries the token of its packet. -/
theorem tcpTokenOf_written {packet left : Packet} {message : List UInt8}
    (written : coapSerializeMessageTcp packet = some (message, left)) (filled : message ≠ []) :
    tcpTokenOf message = some (tcpToken packet).bytes := by
  unfold coapSerializeMessageTcp at written
  simp only at written
  split at written
  · cases written
    exact absurd rfl filled
  · split at written
    · cases written
    · generalize UInt32.ofNat (List.length (_ ++ _) + _) = len at written
      obtain ⟨isClass, extended⟩ := tcpLength_class len
      cases written
      simp only [append_assoc, cons_append, nil_append]
      exact tcpTokenOf_framed _ isClass extended (tcpToken packet).bounded

/-- A request with a path of two segments, a query, a content format, a block and a
payload, and no token. -/
def sampleRequest : Packet :=
  coapSetPayload [1, 2, 3] (coapSetHeaderBlock1 5 true 64 (coapSetHeaderContentFormat 50
    { coapInitMessage .con coapPut 0x1234 with
      uriPath := [0x61, 0x2F, 0x62], uriQuery := [0x78, 0x3D, 0x31], options := {11, 15} }))

theorem coapSerializeMessageTcp_sampleRequest :
    ∃ message left, coapSerializeMessageTcp sampleRequest = some (message, left) ∧
    (message.length ≤ 65535 → ∃ parsed, coapParseMessageTcp message = some (.ok parsed) ∧
      (received parsed).code = sampleRequest.code ∧ (received parsed).token.bytes =
      (if sampleRequest.token.bytes = [] then midBytes sampleRequest.mid
      else sampleRequest.token.bytes) ∧ SameOptions sampleRequest (received parsed) ∧
      (received parsed).payload = sampleRequest.payload) := by
  refine coapSerializeMessageTcp_roundTrip ⟨?_, ?_, ?_, ?_⟩ ⟨by decide, by decide⟩ (by decide)
  · have numbers : ∀ number ∈ sampleRequest.options, number = 27 ∨ number = 12 ∨ number = 11 ∨
        number = 15 := by
      decide
    intro number member
    rcases numbers number member with rfl | rfl | rfl | rfl
    · exact ⟨.block1, rfl, rfl⟩
    · exact ⟨.contentFormat, rfl, rfl⟩
    · exact ⟨.uriPath, rfl, rfl⟩
    · exact ⟨.uriQuery, rfl, rfl⟩
  · exact cleanStrings_of (by decide) (by decide) (by decide) (by decide)
  · exact fun present => absurd present (by decide)
  · exact fun _ => ⟨⟨2, by decide, by decide⟩, by decide⟩

/-- A request with a long host name, whose options take 452 bytes. -/
def longHostRequest : Packet :=
  { coapInitMessage .con coapGet 1 with uriHost := List.replicate 449 0x61, options := {3} }

/-- The writer refuses a host name of more than 448 bytes though its options fit. -/
theorem longHostRequest_refused :
    Expressible longHostRequest ∧
      (serializeOptions longHostRequest ++ payloadMarker longHostRequest).length = 452 ∧
      (tcpMessage longHostRequest).length = 458 ∧
      ¬ ∃ message left parsed, coapSerializeMessageTcp longHostRequest = some (message, left) ∧
        coapParseMessageTcp message = some (.ok parsed) := by
  refine ⟨⟨?_, ?_, fun present => absurd present (by decide),
    fun present => absurd present (by decide)⟩, by decide +kernel, by decide +kernel, ?_⟩
  · have numbers : ∀ number ∈ longHostRequest.options, number = 3 := by decide
    intro number member
    exact ⟨.uriHost, (numbers number member).symm, rfl⟩
  · exact cleanStrings_of (by decide) (by decide) (by decide) (by decide)
  · have refused : coapSerializeMessageTcp longHostRequest =
        some ([], { longHostRequest with token := tcpToken longHostRequest }) := by
      rw [coapSerializeMessageTcp, if_pos (by decide +kernel)]
    rintro ⟨message, left, parsed, written, accepted⟩
    rw [refused] at written
    cases written
    cases accepted

/-! ## How much is written -/

theorem optionExtension_short {value : Nat} (short : value ≤ 12) : optionExtension value = [] := by
  rw [optionExtension, if_neg (by omega), if_neg (by omega)]

/-- A header without an extended delta takes a byte, and one more for long values. -/
theorem coapSetOptionHeader_length {delta length : Nat} (near : delta ≤ 12) (small : length ≤ 268) :
    13 * (coapSetOptionHeader delta length).length ≤ 13 + length := by
  rw [coapSetOptionHeader, optionExtension_short near, nil_append, length_cons, optionExtension,
    if_neg (by omega)]
  split
  · rw [length_singleton]
    omega
  · rw [length_nil]
    omega

/-- What a split string takes: a segment is written with its header in place of its separator. -/
theorem splitLoop_length {number : Nat}
    {array : List UInt8} {splitChar : UInt8} (small : array.length ≤ 268)
    (split : splitChar ≠ 0) (fuel : Nat) {j partStart currentNumber : Nat}
    (near : number - currentNumber ≤ 12) (started : partStart ≤ j) :
    26 * (splitLoop number array splitChar fuel j partStart currentNumber).length ≤
      28 * (array.length + 1 - partStart) := by
  induction fuel generalizing j partStart currentNumber with
  | zero => exact Nat.zero_le _
  | succ fuel ih =>
    rw [splitLoop]
    split
    · split
      · rename_i ends
        have inside : j ≤ array.length := by
          rcases ends with separator | last
          · by_contra past
            rw [getD_eq_getElem?_getD, List.getElem?_eq_none (by omega)] at separator
            exact split separator.symm
          · exact Nat.le_of_eq last
        have later := @ih (j + 2) (j + 1) number (by omega) (by omega)
        have part : ((array.drop partStart).take (j - partStart)).length = j - partStart := by
          rw [length_take, length_drop]
          omega
        have header :=
          @coapSetOptionHeader_length (number - currentNumber) (j - partStart) near (by omega)
        simp only [length_append, part]
        omega
      · exact ih near (by omega)
    · exact Nat.zero_le _

/-- A packet with a token is serialized as it is, where its options fit. -/
theorem coapSerializeMessageTcp_written {packet : Packet} (present : packet.token.bytes.length ≠ 0)
    (narrow : packet.uriHost.length + packet.uriPath.length +
      packet.uriQuery.length ≤ tcpOptionBuffer - 64)
    (fits : (serializeOptions packet ++ payloadMarker packet).length ≤ tcpOptionBuffer) :
    ∃ bytes, bytes ≠ [] ∧ coapSerializeMessageTcp packet = some (bytes, packet) := by
  have kept : { packet with token := tcpToken packet } = packet := by
    rw [tcpToken, if_neg present]
  simp only [coapSerializeMessageTcp, kept, if_neg (Nat.not_lt.mpr narrow),
    if_neg (Nat.not_lt.mpr fits)]
  exact ⟨_, by simp, rfl⟩

end Idrm.Coap
