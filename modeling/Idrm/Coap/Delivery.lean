import Idrm.Coap.OverUdp
import Idrm.Coap.Blockwise

/-!
# Packets over a network

What the receiver of a datagram finds in the packet that was sent, read through the
functions that client and server read it with; and the packets these two write, which
all survive the wire.
-/

namespace Idrm.Coap

open Idrm.Lib List

/-- A packet as it arrives. -/
structure Arrives (sent packet : Packet) : Prop where
  type : packet.type = sent.type
  code : packet.code = sent.code
  mid : packet.mid = sent.mid
  token : packet.token = sent.token
  options : SameOptions sent packet
  payload : packet.payload = sent.payload

/-- A packet that survives the wire. -/
structure Carried (packet : Packet) : Prop where
  expressible : Expressible packet
  fits : FitsUdp packet

/-- What is carried arrives. -/
theorem Carried.arrives {sent : Packet} (carried : Carried sent) : ∃ parsed,
    coapParseMessage (udpMessage sent) = some (.ok parsed) ∧ Arrives sent (received parsed) := by
  obtain ⟨parsed, parses, view⟩ := coapParseMessage_udpMessage carried.expressible carried.fits
  have header := delivered_header sent ⟨1, sent.type, sent.code, sent.mid, sent.token⟩
  refine ⟨parsed, parses, ?_⟩
  rw [view]
  exact ⟨header.type, header.code, header.mid, header.token,
    delivered_sameOptions carried.expressible _, rfl⟩

section Read

variable {sent packet : Packet}

/-- It arrives with its options. -/
theorem Arrives.isOption (arrives : Arrives sent packet) (option : CoapOption) :
    packet.isOption option = sent.isOption option := by
  rw [CoapPacket.isOption, arrives.options.options]
  rfl

theorem Arrives.uriPath (arrives : Arrives sent packet) :
    coapGetHeaderUriPath packet = coapGetHeaderUriPath sent := by
  rw [coapGetHeaderUriPath, coapGetHeaderUriPath, arrives.isOption]
  split
  · exact arrives.options.uriPath ‹_›
  · rfl

theorem Arrives.uriQuery (arrives : Arrives sent packet) :
    coapGetHeaderUriQuery packet = coapGetHeaderUriQuery sent := by
  rw [coapGetHeaderUriQuery, coapGetHeaderUriQuery, arrives.isOption]
  split
  · exact arrives.options.uriQuery ‹_›
  · rfl

/-- It arrives with its url. -/
theorem Arrives.fullUrl (arrives : Arrives sent packet) :
    coapGetFullUrlAlloc packet = coapGetFullUrlAlloc sent := by
  rw [coapGetFullUrlAlloc, coapGetFullUrlAlloc, arrives.uriPath, arrives.uriQuery]

theorem Arrives.size1 (arrives : Arrives sent packet) (size : UInt32) :
    coapGetHeaderSize1 packet size = coapGetHeaderSize1 sent size := by
  rw [coapGetHeaderSize1, coapGetHeaderSize1, arrives.isOption]
  split
  · exact arrives.options.size1 ‹_›
  · rfl

/-- A block arrives with an offset of its own. -/
theorem Arrives.block1 (arrives : Arrives sent packet) :
    coapGetHeaderBlock1 packet = (coapGetHeaderBlock1 sent).map fun block =>
      { block with offset := packet.block1.offset } := by
  rw [coapGetHeaderBlock1, coapGetHeaderBlock1, arrives.isOption]
  split
  · rename_i present
    obtain ⟨num, more, size⟩ := arrives.options.block1 present
    rw [Option.map_some, ← num, ← more, ← size]
  · rfl

/-- It arrives with its block. -/
theorem Arrives.block2 (arrives : Arrives sent packet) :
    coapGetHeaderBlock2 packet = (coapGetHeaderBlock2 sent).map fun block =>
      { block with offset := packet.block2.offset } := by
  rw [coapGetHeaderBlock2, coapGetHeaderBlock2, arrives.isOption]
  split
  · rename_i present
    obtain ⟨num, more, size⟩ := arrives.options.block2 present
    rw [Option.map_some, ← num, ← more, ← size]
  · rfl

end Read

/-! ## Setting options -/

/-- The block size of every transfer here. -/
theorem blockSize_chunk : BlockSize 1024 := ⟨6, by decide, rfl⟩

section Write

variable {packet : Packet}

variable {num : UInt32}

theorem coapSetHeaderBlock1_chunk (small : num.toNat < 2 ^ 20) (more : Bool) (packet : Packet) :
    coapSetHeaderBlock1 num more 1024 packet = CoapPacket.setOption .block1
      { packet with block1 := { packet.block1 with num := num, more := more, size := 1024 } } := by
  have inside : ¬ num > 0x0FFFFF := by
    rw [gt_iff_lt, UInt32.lt_iff_toNat_lt, show (0x0FFFFF : UInt32).toNat = 2 ^ 20 - 1 from rfl]
    omega
  rw [coapSetHeaderBlock1, if_neg (by simp only [inside, or_false]; decide)]

theorem coapSetHeaderBlock2_chunk (small : num.toNat < 2 ^ 20) (more : Bool) (packet : Packet) :
    coapSetHeaderBlock2 num more 1024 packet = CoapPacket.setOption .block2
      { packet with block2 := { packet.block2 with num := num, more := more, size := 1024 } } := by
  have inside : ¬ num > 0x0FFFFF := by
    rw [gt_iff_lt, UInt32.lt_iff_toNat_lt, show (0x0FFFFF : UInt32).toNat = 2 ^ 20 - 1 from rfl]
    omega
  rw [coapSetHeaderBlock2, if_neg (by simp only [inside, or_false]; decide)]

theorem isOption_setBlock1 (small : num.toNat < 2 ^ 20) (more : Bool) (packet : Packet)
    (option : CoapOption) : (coapSetHeaderBlock1 num more 1024 packet).isOption option =
      (decide (option = .block1) || packet.isOption option) := by
  rw [coapSetHeaderBlock1_chunk small, isOption_setOption]
  rfl

theorem isOption_setBlock2 (small : num.toNat < 2 ^ 20) (more : Bool) (packet : Packet)
    (option : CoapOption) : (coapSetHeaderBlock2 num more 1024 packet).isOption option =
      (decide (option = .block2) || packet.isOption option) := by
  rw [coapSetHeaderBlock2_chunk small, isOption_setOption]
  rfl

theorem getBlock1_setBlock1 (small : num.toNat < 2 ^ 20) (more : Bool) (packet : Packet) :
    coapGetHeaderBlock1 (coapSetHeaderBlock1 num more 1024 packet) =
      some ⟨num, more, 1024, packet.block1.offset⟩ := by
  rw [coapGetHeaderBlock1, if_pos (by rw [isOption_setBlock1 small]; rfl),
    coapSetHeaderBlock1_chunk small]
  rfl

theorem getBlock2_setBlock2 (small : num.toNat < 2 ^ 20) (more : Bool) (packet : Packet) :
    coapGetHeaderBlock2 (coapSetHeaderBlock2 num more 1024 packet) =
      some ⟨num, more, 1024, packet.block2.offset⟩ := by
  rw [coapGetHeaderBlock2, if_pos (by rw [isOption_setBlock2 small]; rfl),
    coapSetHeaderBlock2_chunk small]
  rfl

/-- The strings of two packets that are split on the wire. -/
structure SameSplit (packet changed : Packet) : Prop where
  locationPath : changed.locationPath = packet.locationPath
  uriPath : changed.uriPath = packet.uriPath
  uriQuery : changed.uriQuery = packet.uriQuery
  locationQuery : changed.locationQuery = packet.locationQuery

variable {option : CoapOption} {changed : Packet}

/-- Options that are no strings may be added. -/
theorem Expressible.addOption (expressible : Expressible packet)
    (supported : option.supported = true) (notString : option.separator = none)
    (options : ∀ other, changed.isOption other = (decide (other = option) || packet.isOption other))
    (known : ∀ number ∈ changed.options, number = option.number ∨ number ∈ packet.options)
    (split : SameSplit packet changed)
    (block2 : changed.isOption .block2 = true →
      BlockSize changed.block2.size ∧ changed.block2.num.toNat < 2 ^ 20)
    (block1 : changed.isOption .block1 = true →
      BlockSize changed.block1.size ∧ changed.block1.num.toNat < 2 ^ 20) : Expressible changed where
  options := by
    intro number member
    rcases known number member with rfl | member
    · exact ⟨option, rfl, supported⟩
    · exact expressible.options number member
  clean := by
    have string : ∀ {other : CoapOption} {separator : UInt8}, other.separator = some separator →
        changed.isOption other = true → packet.isOption other = true := by
      intro other separator splits present
      have different : other ≠ option := by
        rintro rfl
        rw [notString] at splits
        cases splits
      simpa [options, different] using present
    have clean := expressible.clean
    refine cleanStrings_of ?_ ?_ ?_ ?_
    · intro present
      rw [split.locationPath]
      exact clean .locationPath (string rfl present) _ _ rfl (by decide)
    · intro present
      rw [split.uriPath]
      exact clean .uriPath (string rfl present) _ _ rfl (by decide)
    · intro present
      rw [split.uriQuery]
      exact clean .uriQuery (string rfl present) _ _ rfl (by decide)
    · intro present
      rw [split.locationQuery]
      exact clean .locationQuery (string rfl present) _ _ rfl (by decide)
  block2 := block2
  block1 := block1

theorem mem_setOption_options {number : Nat}
    (member : number ∈ (CoapPacket.setOption option packet).options) :
    number = option.number ∨ number ∈ packet.options :=
  Finset.mem_insert.mp member

theorem Expressible.withBlock1 (expressible : Expressible packet)
    (small : num.toNat < 2 ^ 20) (more : Bool) :
    Expressible (coapSetHeaderBlock1 num more 1024 packet) := by
  rw [coapSetHeaderBlock1_chunk small]
  refine expressible.addOption (by decide : CoapOption.block1.supported = true) rfl
    (isOption_setOption _ · _) (fun _ => mem_setOption_options) ⟨rfl, rfl, rfl, rfl⟩ ?_ ?_
  · intro present
    rw [isOption_setOption] at present
    exact expressible.block2 present
  · intro _
    exact ⟨blockSize_chunk, small⟩

theorem Expressible.withBlock2 (expressible : Expressible packet)
    (small : num.toNat < 2 ^ 20) (more : Bool) :
    Expressible (coapSetHeaderBlock2 num more 1024 packet) := by
  rw [coapSetHeaderBlock2_chunk small]
  refine expressible.addOption (by decide : CoapOption.block2.supported = true) rfl
    (isOption_setOption _ · _) (fun _ => mem_setOption_options) ⟨rfl, rfl, rfl, rfl⟩ ?_ ?_
  · intro _
    exact ⟨blockSize_chunk, small⟩
  · intro present
    rw [isOption_setOption] at present
    exact expressible.block1 present

/-- An option that is neither string nor block may be set. -/
theorem Expressible.withPlain (expressible : Expressible packet)
    (supported : option.supported = true) (notString : option.separator = none)
    (notBlock2 : CoapOption.block2 ≠ option) (notBlock1 : CoapOption.block1 ≠ option)
    (options : changed.options = insert option.number packet.options)
    (split : SameSplit packet changed) (block2 : changed.block2 = packet.block2)
    (block1 : changed.block1 = packet.block1) : Expressible changed := by
  have present :
      ∀ other, changed.isOption other = (decide (other = option) || packet.isOption other) := by
    intro other
    rw [← isOption_setOption, CoapPacket.isOption, options]
    rfl
  refine expressible.addOption supported notString present (fun number member => ?_) split ?_ ?_
  · rw [options] at member
    exact Finset.mem_insert.mp member
  · intro here
    rw [present, decide_eq_false notBlock2, Bool.false_or] at here
    rw [block2]
    exact expressible.block2 here
  · intro here
    rw [present, decide_eq_false notBlock1, Bool.false_or] at here
    rw [block1]
    exact expressible.block1 here

theorem serializeOptions_congr {packet other : Packet} (options : packet.options = other.options)
    (values : ∀ option, optionValue packet option = optionValue other option) :
    serializeOptions packet = serializeOptions other := by
  have line : serializeOption packet = serializeOption other := by
    funext writer option
    rw [serializeOption, serializeOption, values, CoapPacket.isOption, options]
    rfl
  rw [serializeOptions, serializeOptions, line]

/-! ## Responses -/

/-- The options a server's response has. -/
def answerOptions : List CoapOption := [.contentFormat, .block2, .block1, .size2]

/-- A response on its way to becoming a datagram. -/
structure Answer (packet : Packet) : Prop where
  options : ∀ option, packet.isOption option = true → option ∈ answerOptions
  expressible : Expressible packet
  payload : packet.payload.length ≤ restMaxChunkSize

/-- A packet that fits the buffer a response is sent from, whether or not it survives the
wire. -/
structure Brief (packet : Packet) : Prop where
  options : ∀ option, packet.isOption option = true → option ∈ answerOptions
  payload : packet.payload.length ≤ restMaxChunkSize

/-- An answer is brief. -/
theorem Answer.brief (answer : Answer packet) : Brief packet := ⟨answer.options, answer.payload⟩

theorem optionExtension_length (value : Nat) : (optionExtension value).length ≤ 2 := by
  unfold optionExtension
  split
  · simp
  · split <;> simp

theorem coapSerializeIntOption_length (number currentNumber : Nat) (value : UInt32) :
    (coapSerializeIntOption number currentNumber value).length ≤ 9 := by
  have bytes := intOptionBytes_length value
  have delta := optionExtension_length (number - currentNumber)
  have length := optionExtension_length (intOptionBytes value).length
  simp only [coapSerializeIntOption, coapSetOptionHeader, cons_append, length_cons,
    length_append]
  omega

/-- Integer options take little room. -/
theorem Brief.serializeOptions_length (brief : Brief packet) :
    (serializeOptions packet).length ≤ 171 := by
  have line : ∀ (option : CoapOption) (writer : OptionWriter),
      (serializeOption packet writer option).written.length ≤ writer.written.length + 9 := by
    intro option writer
    unfold serializeOption
    split
    · rename_i present
      have among := brief.options option present
      have int : ∃ value, optionValue packet option = .int value := by
        cases option <;> first | exact ⟨_, rfl⟩ | exact absurd among (by decide)
      obtain ⟨value, int⟩ := int
      have bound := coapSerializeIntOption_length option.number writer.currentNumber value
      simp only [int, length_append]
      omega
    · omega
  have lines : ∀ (options : List CoapOption) (writer : OptionWriter),
      (options.foldl (serializeOption packet) writer).written.length ≤
        writer.written.length + 9 * options.length := by
    intro options
    induction options with
    | nil =>
      intro writer
      exact Nat.le_refl _
    | cons option rest ih =>
      intro writer
      have first := line option writer
      have others := ih (serializeOption packet writer option)
      rw [foldl_cons, length_cons]
      omega
  exact lines CoapOption.all ⟨0, []⟩

/-- What is brief fits a datagram. -/
theorem Brief.fits (brief : Brief packet) (code : packet.code ≠ 0) : FitsUdp packet := by
  have options := brief.serializeOptions_length
  have token := packet.token.bounded
  refine ⟨code, ?_, brief.payload⟩
  rw [coapMaxHeaderSize]
  omega

/-- A response fits the buffer it is sent from. -/
theorem Brief.serialized (brief : Brief packet) (code : packet.code ≠ 0) :
    coapSerializeMessage coapMaxPacketSize packet = some (udpMessage packet) := by
  have options := brief.serializeOptions_length
  have token := packet.token.bounded
  have payload : packet.payload.length ≤ 1024 := brief.payload
  have body := @messageBody_length_le packet
  refine coapSerializeMessage_fits (brief.fits code) ?_
  rw [udpMessage_length, show coapMaxPacketSize = 1536 from rfl]
  omega

theorem Answer.serialized (answer : Answer packet) (code : packet.code ≠ 0) :
    coapSerializeMessage coapMaxPacketSize packet = some (udpMessage packet) :=
  answer.brief.serialized code

/-- So an answer is carried. -/
theorem Answer.carried (answer : Answer packet) (code : packet.code ≠ 0) : Carried packet :=
  ⟨answer.expressible, answer.brief.fits code⟩

theorem answer_init (type : CoapMessageType) (code : UInt8) (mid : UInt16) (token : ShortBytes) :
    Answer { coapInitMessage type code mid with token := token } := by
  have none : ∀ option, CoapPacket.isOption { coapInitMessage type code mid with token := token }
    option = false := fun _ => rfl
  refine ⟨fun option present => ?_, ⟨fun number member => ?_, fun option present => ?_,
    fun present => ?_, fun present => ?_⟩, Nat.zero_le _⟩
  · rw [none] at present
    cases present
  · exact (Finset.notMem_empty _ member).elim
  · rw [none] at present
    cases present
  · rw [none] at present
    cases present
  · rw [none] at present
    cases present

theorem Answer.setPayload (answer : Answer packet) (payload : List UInt8) :
    Answer (coapSetPayload payload packet) where
  options := answer.options
  expressible := ⟨answer.expressible.options, answer.expressible.clean, answer.expressible.block2,
    answer.expressible.block1⟩
  payload := by
    rw [coapSetPayload, length_take]
    exact Nat.min_le_left _ _

theorem Answer.setStatusCode (answer : Answer packet) (code : UInt8) :
    Answer (coapSetStatusCode code packet) where
  options := answer.options
  expressible := ⟨answer.expressible.options, answer.expressible.clean, answer.expressible.block2,
    answer.expressible.block1⟩
  payload := answer.payload

theorem Answer.addOption (answer : Answer packet)
    (known : option ∈ answerOptions) (expressible : Expressible changed)
    (options : changed.options = insert option.number packet.options)
    (payload : changed.payload = packet.payload) : Answer changed where
  options := by
    intro other present
    have same : changed.isOption other = (CoapPacket.setOption option packet).isOption other := by
      rw [CoapPacket.isOption, options]
      rfl
    rw [same, isOption_setOption, Bool.or_eq_true, decide_eq_true_eq] at present
    rcases present with rfl | present
    · exact known
    · exact answer.options other present
  expressible := expressible
  payload := payload ▸ answer.payload

theorem Answer.setContentFormat (answer : Answer packet) (format : UInt32) :
    Answer (coapSetHeaderContentFormat format packet) :=
  answer.addOption (by decide : CoapOption.contentFormat ∈ answerOptions)
    (answer.expressible.withPlain
      (by decide : CoapOption.contentFormat.supported = true) rfl (by decide)
      (by decide) rfl ⟨rfl, rfl, rfl, rfl⟩ rfl rfl) rfl rfl

theorem Answer.setSize2 (answer : Answer packet) (size : UInt32) :
    Answer (coapSetHeaderSize2 size packet) :=
  answer.addOption (by decide : CoapOption.size2 ∈ answerOptions)
    (answer.expressible.withPlain (by decide : CoapOption.size2.supported = true) rfl (by decide)
      (by decide) rfl ⟨rfl, rfl, rfl, rfl⟩ rfl rfl) rfl rfl

theorem Answer.setBlock1 (answer : Answer packet) (small : num.toNat < 2 ^ 20) (more : Bool) :
    Answer (coapSetHeaderBlock1 num more 1024 packet) := by
  have expressible := answer.expressible.withBlock1 small more
  rw [coapSetHeaderBlock1_chunk small] at expressible ⊢
  exact answer.addOption (by decide : CoapOption.block1 ∈ answerOptions) expressible rfl rfl

theorem Answer.setBlock2 (answer : Answer packet) (small : num.toNat < 2 ^ 20) (more : Bool) :
    Answer (coapSetHeaderBlock2 num more 1024 packet) := by
  have expressible := answer.expressible.withBlock2 small more
  rw [coapSetHeaderBlock2_chunk small] at expressible ⊢
  exact answer.addOption (by decide : CoapOption.block2 ∈ answerOptions) expressible rfl rfl

end Write

end Idrm.Coap
