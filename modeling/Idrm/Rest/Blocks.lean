import Idrm.Coap.GetPaths
import Idrm.Lib.Window
import Idrm.Rest.Engine

/-!
# Representations in blocks

A resource hands out a representation in one of two ways: it knows blocks, answers from the offset
on and says where the next block starts; or it knows none, sets the whole representation and leaves
the offset. `serve_request` makes the same blocks of both, and a client that asks for one block
after the other gets the representation.
-/

namespace Idrm.Rest

open Idrm.Lib Idrm.Coap Option List

/-- Content that a handler sets, with or without a format. -/
def setContent (format : Option UInt32) (payload : List UInt8) (response : Packet) : Packet :=
  match format with
  | none => coapSetPayload payload response
  | some format => coapSetHeaderContentFormat format (coapSetPayload payload response)

/-- The payload and the offset by which a handler answers for a part of a representation. -/
inductive Answers (content : List UInt8) (size : UInt16) (start : Nat) (offset : Int32) :
    List UInt8 → Int32 → Prop
  | next {payload : List UInt8} (shown : payload.take size.toNat = window start size.toNat content)
      (more : start + size.toNat < content.length) :
      Answers content size start offset payload (offset + size.toUInt32.toInt32)
  | last (ends : content.length ≤ start + size.toNat) :
      Answers content size start offset (window start size.toNat content) (-1)
  | whole (short : content.length ≤ restMaxChunkSize) :
      Answers content size start offset content offset

variable {E : Type}

/-- A handler that hands out a representation, given a buffer with room for a terminator. -/
def Provides (handler : RestfulHandler E) (services : List Service)
    (path content : List UInt8) : Prop :=
  ∀ (request response : Packet) (buffer : List UInt8) (size : UInt16) (offset : Int32) (start : Nat)
    (app : E),
    coapGetHeaderUriPath request = path → offset.toInt = start → 0 < size.toNat →
    size.toNat < buffer.length → start < content.length →
    ∃ format payload newOffset after, handler services request response buffer size offset app =
    some (setContent format payload response, newOffset, after) ∧
    Answers content size start offset payload newOffset

/-! ## One block -/

section Block

variable {packet response request : Packet} {content payload : List UInt8}
  {size : UInt16} {start : Nat}
  {offset newOffset : Int32} {format : Option UInt32} {block : Block}

theorem setContent_payload :
    (setContent format payload response).payload = payload.take restMaxChunkSize := by
  cases format <;> rfl

/-- Content does not touch the header. -/
theorem hasHeader_setContent {header : Header} (has : HasHeader header response)
    (format : Option UInt32) (payload : List UInt8) :
    HasHeader header (setContent format payload response) := by
  obtain ⟨version, type, code, mid, token⟩ := has
  cases format <;> exact ⟨version, type, code, mid, token⟩

/-- A block option does not touch the header. -/
theorem hasHeader_setBlock2 {header : Header}
    (has : HasHeader header packet) (num : UInt32) (more : Bool) (size : UInt16) :
    HasHeader header (coapSetHeaderBlock2 num more size packet) := by
  obtain ⟨version, type, code, mid, token⟩ := has
  rw [coapSetHeaderBlock2]
  split <;> exact ⟨version, type, code, mid, token⟩

theorem answer_setContent (answer : Answer response) (format : Option UInt32)
    (payload : List UInt8) : Answer (setContent format payload response) := by
  cases format with
  | none => exact answer.setPayload payload
  | some format => exact (answer.setPayload payload).setContentFormat format

theorem answer_setBlock2 (answer : Answer packet) {num : UInt32} (small : num.toNat < 2 ^ 20)
    (sized : BlockSize size) (least : 16 ≤ size.toNat) (most : size.toNat ≤ 2048) (more : Bool) :
    Answer (coapSetHeaderBlock2 num more size packet) := by
  rw [coapSetHeaderBlock2_sized small least most]
  refine answer.addOption (by decide : CoapOption.block2 ∈ answerOptions) ?_ rfl rfl
  refine answer.expressible.addOption (by decide : CoapOption.block2.supported = true) rfl
    (isOption_setOption _ · _) (fun _ => mem_setOption_options) ⟨rfl, rfl, rfl, rfl⟩ ?_ ?_
  · intro _
    exact ⟨sized, small⟩
  · intro present
    rw [isOption_setOption] at present
    exact answer.expressible.block1 present

theorem coapSetPayload_self (same : packet.payload = payload)
    (short : payload.length ≤ restMaxChunkSize) : coapSetPayload payload packet = packet := by
  rw [coapSetPayload, take_of_length_le short, ← same]

theorem setBlock2_payload (num : UInt32) (more : Bool) (size : UInt16) (packet : Packet) :
    (coapSetHeaderBlock2 num more size packet).payload = packet.payload := by
  rw [coapSetHeaderBlock2]
  split <;> rfl

/-- A payload is cut down to a block. -/
theorem cutPayload (payload : List UInt8)
    (small : size.toNat ≤ restMaxChunkSize) (same : packet.payload = payload) :
    (if payload.length > size.toNat then coapSetPayload (payload.take size.toNat) packet
      else packet) = coapSetPayload (payload.take size.toNat) packet := by
  split
  · rfl
  · rename_i short
    have whole : payload.take size.toNat = payload := take_of_length_le (Nat.not_lt.mp short)
    rw [whole]
    exact (coapSetPayload_self same ((Nat.not_lt.mp short).trans small)).symm

/-- Where the next block starts is neither where this one does nor the end. -/
theorem nextOffset_toInt (here : offset.toInt = start) (fits : start + size.toNat < 2 ^ 31) :
    (offset + size.toUInt32.toInt32).toInt = start + size.toNat := by
  have step : size.toUInt32.toInt32.toInt = size.toNat := by
    rw [toInt32_toInt, UInt16.toNat_toUInt32]
    rw [UInt16.toNat_toUInt32]
    omega
  rw [Int32.toInt_add, here, step]
  exact Int.bmod_eq_of_le (by omega) (by omega)

/-- A response with one block of a representation. -/
def cutBlock (block : Block) (content : List UInt8) (response : Packet) : Packet :=
  coapSetPayload (window block.offset.toNat block.size.toNat content) (coapSetHeaderBlock2 block.num
    (decide (block.offset.toNat + block.size.toNat < content.length)) block.size response)

theorem answer_cutBlock (answer : Answer response) (arrived : ArrivedBlock block)
    (content : List UInt8) : Answer (cutBlock block content response) :=
  (answer_setBlock2 answer arrived.number arrived.size arrived.sizes.1
    arrived.sizes.2 _).setPayload _

theorem hasHeader_cutBlock {header : Header} (has : HasHeader header response) (block : Block)
    (content : List UInt8) : HasHeader header (cutBlock block content response) :=
  (hasHeader_setBlock2 has _ _ _).withPayload _

theorem cutBlock_payload (chunk : block.size.toNat ≤ restMaxChunkSize)
    (content : List UInt8) (response : Packet) : (cutBlock block content response).payload =
      window block.offset.toNat block.size.toNat content := by
  refine take_of_length_le ?_
  rw [window_length]
  omega

theorem sentBlock2_cutBlock (arrived : ArrivedBlock block) (content : List UInt8)
    (response : Packet) : sentBlock2 (cutBlock block content response) = some
      (block.num, decide (block.offset.toNat + block.size.toNat < content.length), block.size) := by
  have got := getBlock2_setBlock2_sized arrived.number arrived.sizes.1 arrived.sizes.2
    (decide (block.offset.toNat + block.size.toNat < content.length)) response
  exact (congrArg (Option.map fun block : Block => (block.num, block.more, block.size)) got).trans
    rfl

/-- Both kinds of resources are cut into the same blocks. -/
theorem blockResponse_answers (response : Packet) (format : Option UInt32)
    (asks : coapGetHeaderBlock2 request = some block) (arrived : ArrivedBlock block)
    (chunk : block.size.toNat ≤ restMaxChunkSize) (small : content.length < 2 ^ 31)
    (inside : block.offset.toNat < content.length) (answers :
      Answers content block.size block.offset.toNat block.offset.toInt32 payload newOffset) :
    blockResponse request (requestedBlock2 request) newOffset (setContent format payload response) =
      cutBlock block content (setContent format payload response) := by
  have whole : block.chunk = block.size.toNat := Nat.min_eq_left chunk
  have here : block.offset.toInt32.toInt = block.offset.toNat :=
    toInt32_toInt arrived.offset_toNat.2
  have isBlock2 : request.isOption .block2 = true := by
    rw [coapGetHeaderBlock2] at asks
    by_contra absent
    rw [if_neg absent] at asks
    cases asks
  have taken : (setContent format payload response).payload = payload.take restMaxChunkSize :=
    setContent_payload
  rw [requestedBlock2_eq asks, whole, UInt16.ofNat_toNat, blockResponse, if_pos isBlock2, cutBlock]
  simp only [taken]
  have small' : block.offset.toNat < 2 ^ 31 := arrived.offset_toNat.2
  have positive : 0 < block.size.toNat := Nat.lt_of_lt_of_le (by decide) arrived.sizes.1
  have cut := cutPayload (payload.take restMaxChunkSize) chunk ((setBlock2_payload block.num
    (decide (block.offset.toNat + block.size.toNat < content.length)) block.size _).trans taken)
  have shownTake {text : List UInt8} :
      (text.take restMaxChunkSize).take block.size.toNat = text.take block.size.toNat := by
    rw [take_take, Nat.min_eq_left chunk]
  cases answers with
  | next shown more =>
    have next : (block.offset.toInt32 + block.size.toUInt32.toInt32).toInt = block.offset.toNat +
        block.size.toNat :=
      nextOffset_toInt here (by omega)
    have moved : (block.offset.toInt32 + block.size.toUInt32.toInt32).toUInt32 ≠ block.offset := by
      intro same
      have back := congrArg (fun value : UInt32 => value.toInt32.toInt) same
      simp only [Int32.toInt32_toUInt32] at back
      omega
    have goesOn : block.offset.toInt32 + block.size.toUInt32.toInt32 ≠ -1 := by
      intro same
      rw [same, show ((-1 : Int32)).toInt = -1 from rfl] at next
      omega
    rw [if_neg moved]
    simp only [decide_eq_true goesOn, Bool.true_or]
    rw [decide_eq_true more, shownTake, shown] at cut ⊢
    exact cut
  | last ends =>
    have moved : (-1 : Int32).toUInt32 ≠ block.offset := by
      intro same
      rw [← same, show (-1 : Int32).toUInt32.toNat = 2 ^ 32 - 1 from rfl] at small'
      omega
    have noMore : ¬block.offset.toNat + block.size.toNat < content.length := Nat.not_lt.mpr ends
    have fits : ¬((window block.offset.toNat block.size.toNat content).take
        restMaxChunkSize).length > block.size.toNat := by
      rw [length_take, window_length]
      omega
    rw [if_neg moved]
    rw [decide_eq_false noMore, shownTake, take_window (Nat.le_refl _)] at cut
    simp only [decide_eq_false noMore, decide_eq_false fits, ne_eq, not_true_eq_false,
      decide_false, Bool.or_false]
    rw [shownTake, take_window (Nat.le_refl _)]
    exact cut
  | whole short =>
    have rest : (content.drop block.offset.toNat).length = content.length - block.offset.toNat :=
      length_drop
    have more : decide ((content.drop block.offset.toNat).length > block.size.toNat) =
        decide (block.offset.toNat + block.size.toNat < content.length) := by
      rw [rest]
      exact decide_eq_decide.mpr (by omega)
    have part : (content.drop block.offset.toNat).take (min (content.drop block.offset.toNat).length
        block.size.toNat) = window block.offset.toNat block.size.toNat content := by
      rw [window, Nat.min_comm, ← take_take, take_length]
    rw [if_pos (UInt32.toUInt32_toInt32 _)]
    simp only [take_of_length_le short, if_neg (Nat.not_le.mpr inside), more, part]

end Block

/-! ## Serving a block -/

section Serve

variable {services : List (Resource E)} {handler : RestfulHandler E} {path content : List UInt8}
  {request : Packet}
  {engine : Engine E}

/-- The first resource that covers a path has a handler for `GET`. -/
def GetsFrom (services : List (Resource E)) (path : List UInt8)
    (handler : RestfulHandler E) : Prop :=
  ∃ resource, services.find? (fun resource => resource.covers path) = some resource ∧
    resource.getHandler = some handler

/-- An engine that is up, with its resources. -/
structure Runs (services : List (Resource E)) (engine : Engine E) : Prop where
  initialized : engine.initialized = true
  services : engine.restfulServices = services

theorem handlerFor_get {resource : Resource E} (get : request.code = coapGet)
    (has : resource.getHandler = some handler) : resource.handlerFor request = some handler := by
  have method : coapGetRestMethod request = 1 := by
    rw [coapGetRestMethod, get]
    rfl
  rw [Resource.handlerFor, method, has]
  rfl

/-- The response that `coap_init_message` and `coap_set_token` start. -/
def started (type : CoapMessageType) (mid : UInt16) (token : ShortBytes) : Packet :=
  { coapInitMessage type content205 mid with token := token }

theorem answer_started (type : CoapMessageType) (mid : UInt16) (token : ShortBytes) :
    Answer (started type mid token) :=
  answer_init type content205 mid token

theorem hasHeader_started (type : CoapMessageType) (mid : UInt16) (token : ShortBytes) :
    HasHeader ⟨0, type, content205, mid, token⟩ (started type mid token) :=
  ⟨rfl, rfl, rfl, rfl, rfl⟩

/-- A response that fits is sent. -/
theorem sendServed_ok {response : Packet} (answer : Answer response) (code : response.code ≠ 0)
    (left : Packet) (engine : Engine E) : sendServed (.ok response) left engine =
      some (decide (response.code ≠ notImplemented501), udpMessage response, engine) := by
  have nonempty : ¬(udpMessage response).length = 0 := by
    rw [udpMessage_length]
    omega
  simp only [sendServed]
  rw [answer.serialized code, bind_some, if_neg nonempty]

/-- A response starts as an acknowledgement or as a message of its own, with the token of the
request. -/
theorem prepare_spec (request : Packet) (engine : Engine E) : ∃ type mid currentMid, engine.prepare
      request = (started type mid request.token, { engine with currentMid := currentMid }) ∧
      (request.type = .con → type = .ack ∧ mid = request.mid) := by
  have token (response : Packet) (fresh : response.token = ⟨[], by decide⟩) :
      (if request.token.bytes.length ≠ 0 then coapSetToken request.token.bytes response
        else response) = { response with token := request.token } := by
    split
    · rw [coapSetToken, ShortBytes.copy_bytes]
    · rename_i empty
      have same : request.token = ⟨[], by decide⟩ := by
        ext1
        exact length_eq_zero_iff.mp (Classical.not_not.mp empty)
      rw [same, ← fresh]
  rw [Engine.prepare]
  by_cases con : request.type = .con
  · rw [if_pos con]
    refine ⟨.ack, request.mid, engine.currentMid, ?_, fun _ => ⟨rfl, rfl⟩⟩
    exact congrArg (·, engine) (token (coapInitMessage .ack content205 request.mid) rfl)
  · rw [if_neg con]
    refine ⟨.non, engine.currentMid + 1, engine.currentMid + 1, ?_, fun isCon => absurd isCon con⟩
    exact congrArg (·, { engine with currentMid := engine.currentMid + 1 })
      (token (coapInitMessage .non content205 (engine.currentMid + 1)) rfl)

/-- A `GET` for a block of a representation. -/
structure AsksBlock (path : List UInt8) (size : UInt16) (index : Nat)
    (request : Packet) : Prop where
  get : request.code = coapGet
  path : coapGetHeaderUriPath request = path
  noUpload : request.isOption .block1 = false
  block : ∃ block, coapGetHeaderBlock2 request = some block ∧ ArrivedBlock block ∧
    block.num.toNat = index ∧ block.size = size

/-- A datagram that answers with a block of a representation. -/
structure BlockAnswer (content : List UInt8) (size : UInt16) (index : Nat)
    (request answer : Packet) : Prop where
  wire : Answer answer
  code : answer.code = content205
  token : answer.token = request.token
  acknowledges : request.type = .con → answer.type = .ack ∧ answer.mid = request.mid
  payload : answer.payload = window (size.toNat * index) size.toNat content
  block2 : sentBlock2 answer =
    some (UInt32.ofNat index, decide (size.toNat * (index + 1) < content.length), size)

/-- Whatever is in the buffer, the block asked for is served, and the engine runs on. -/
theorem serveRequest_block (runs : Runs services engine) (gets : GetsFrom services path handler)
    (provides : Provides handler (services.map Resource.toService) path content)
    {size : UInt16} {index : Nat} (asks : AsksBlock path size index request) {buffer : List UInt8}
    (chunk : size.toNat ≤ restMaxChunkSize) (room : size.toNat < buffer.length)
    (small : content.length < 2 ^ 31) (inside : size.toNat * index < content.length) :
    ∃ answer after, serveRequest buffer request engine = some (true, udpMessage answer, after) ∧
    BlockAnswer content size index request answer ∧ Runs services after := by
  obtain ⟨resource, found, get⟩ := gets
  obtain ⟨block, asksBlock, arrived, rfl, rfl⟩ := asks.block
  obtain ⟨type, mid, currentMid, prepared, acknowledges⟩ := prepare_spec request engine
  have start : block.offset.toNat = block.size.toNat * block.num.toNat := by
    rw [arrived.offset_toNat.1, Nat.mul_comm]
  have here : block.offset.toInt32.toInt = block.offset.toNat :=
    toInt32_toInt arrived.offset_toNat.2
  have sizes := arrived.sizes
  rw [← start] at inside
  obtain ⟨format, payload, newOffset, app, handled, answers⟩ :=
    provides request (started type mid request.token) buffer block.size block.offset.toInt32
    block.offset.toNat engine.app asks.path here (by omega) room inside
  have whole : block.chunk = block.size.toNat := Nat.min_eq_left chunk
  have asked : requestedBlock2 request = ⟨block.num, block.more, block.size, block.offset⟩ := by
    rw [requestedBlock2_eq asksBlock, whole, UInt16.ofNat_toNat]
  have called : { engine with currentMid := currentMid }.serviceCbk request
      (started type mid request.token) buffer block.size block.offset.toInt32 =
      some (true, setContent format payload (started type mid request.token), newOffset, app) := by
    rw [Engine.serviceCbk, if_pos runs.initialized, runs.services, restInvokeRestfulService,
      asks.path, found]
    simp only [handlerFor_get asks.get get, handled, map_some]
  have isAnswer := answer_cutBlock
    (answer_setContent (answer_started type mid request.token) format payload) arrived content
  have has := hasHeader_cutBlock
    (hasHeader_setContent (hasHeader_started type mid request.token) format payload) block content
  have notRefused : servedResponse request true newOffset
      (setContent format payload (started type mid request.token)) = .ok
      (cutBlock block content (setContent format payload (started type mid request.token))) := by
    have noUpload : ¬request.isOption .block1 = true := by simp [asks.noUpload]
    rw [servedResponse, if_pos rfl, if_neg fun refused => noUpload refused.1,
      blockResponse_answers _ format asksBlock arrived chunk small inside answers]
  refine ⟨cutBlock block content (setContent format payload (started type mid request.token)),
    { engine with currentMid := currentMid, app := app }, ?_,
    ⟨isAnswer, has.code, has.token, ?_, ?_, ?_⟩, runs.1, runs.2⟩
  · have isCode : (cutBlock block content
        (setContent format payload (started type mid request.token))).code ≠ 0 :=
      ne_of_eq_of_ne has.code (by decide : content205 ≠ 0)
    have isServed : (cutBlock block content
        (setContent format payload (started type mid request.token))).code ≠ notImplemented501 :=
      ne_of_eq_of_ne has.code (by decide : content205 ≠ notImplemented501)
    rw [serveRequest, prepared]
    simp only [asked, called, bind_some, notRefused]
    rw [sendServed_ok isAnswer isCode, decide_eq_true isServed]
  · intro con
    rw [has.type, has.mid]
    exact acknowledges con
  · rw [cutBlock_payload chunk, start]
  · rw [sentBlock2_cutBlock arrived, start, Nat.mul_add, Nat.mul_one, UInt32.ofNat_toNat]

/-- A client that sends an engine its request for a block, and takes the block from the datagram
that comes back. -/
def askBlock (buffers : Nat → List UInt8) (requests : Nat → Packet) (index : Nat)
    (engine : Engine E) : Option ((List UInt8 × Bool) × Engine E) :=
  (serveRequest (buffers index) (requests index) engine).bind fun (served, packet, engine) =>
    if served then
      (coapParseMessage packet).bind fun parsed =>
        match parsed with
        | .error _ => none
        | .ok parsed =>
          (coapGetHeaderBlock2 (received parsed)).map fun block =>
            (((received parsed).payload, block.more), engine)
    else none

/-- A client that asks for one block after the other gets the representation. -/
theorem askBlock_fetch (runs : Runs services engine) (gets : GetsFrom services path handler)
    (provides : Provides handler (services.map Resource.toService) path content) {size : UInt16}
    {buffers : Nat → List UInt8} {requests : Nat → Packet} (chunk : size.toNat ≤ restMaxChunkSize)
    (filled : content ≠ []) (small : content.length < 2 ^ 31)
    (room : ∀ index, size.toNat < (buffers index).length) (asks : ∀ index,
      size.toNat * index < content.length → AsksBlock path size index (requests index))
    {fuel : Nat} (enough : content.length ≤ size.toNat * fuel) :
    ∃ after, fetchBlocks (askBlock buffers requests) fuel 0 engine = some (content, after) ∧
    Runs services after := by
  have positive : 0 < content.length := length_pos_iff.mpr filled
  have fuelled : 0 < fuel := by
    rcases Nat.eq_zero_or_pos fuel with rfl | isPositive
    · omega
    · exact isPositive
  refine fetchBlocks_text (fun index state runs inside => ?_) runs enough fuelled
  have inside : size.toNat * index < content.length := by
    rcases inside with inside | rfl
    · exact inside
    · exact positive
  obtain ⟨answer, after, served, block, runsOn⟩ :=
    serveRequest_block runs gets provides (asks index inside) chunk (room index) small inside
  have code : answer.code ≠ 0 := ne_of_eq_of_ne block.code (by decide : content205 ≠ 0)
  obtain ⟨parsed, parses, arrives⟩ := (block.wire.carried code).arrives
  obtain ⟨sent, isSent, fields⟩ := map_eq_some_iff.mp block.block2
  refine ⟨after, ?_, runsOn⟩
  rw [askBlock, served]
  simp only [bind_some, if_true, parses, arrives.block2, isSent, map_some,
    arrives.payload, block.payload]
  rw [(Prod.mk.inj (Prod.mk.inj fields).2).1]

end Serve

end Idrm.Rest
