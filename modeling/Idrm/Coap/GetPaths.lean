import Idrm.Coap.CachedReads

/-!
# The two ways a `GET` is answered

A `GET` is answered from what a handler returns, or from what the store has kept of an
earlier answer. The first way computes with unsigned differences that wrap when the block
asked for starts behind the payload; and it does not say where the last block is.
-/

namespace Idrm.Coap

open Idrm.Lib Option List

/-- A block option as it arrives: its offset is the product of its number and size. -/
structure ArrivedBlock (block : Block) : Prop where
  number : block.num.toNat < 2 ^ 20
  size : BlockSize block.size
  offset : block.offset = block.num * block.size.toUInt32

/-- The length of the blocks that are sent, a chunk at most. -/
def Block.chunk (block : Block) : Nat := min block.size.toNat 1024

section Arrived

variable {block : Block}

theorem ArrivedBlock.sizes (arrived : ArrivedBlock block) :
    16 ≤ block.size.toNat ∧ block.size.toNat ≤ 2048 := by
  obtain ⟨exponent, bound, size⟩ := arrived.size
  have least : 2 ^ 0 ≤ 2 ^ exponent := Nat.pow_le_pow_right (by decide) (Nat.zero_le _)
  have most : 2 ^ exponent ≤ 2 ^ 7 := Nat.pow_le_pow_right (by decide) (by omega)
  omega

theorem ArrivedBlock.offset_toNat (arrived : ArrivedBlock block) :
    block.offset.toNat = block.num.toNat * block.size.toNat ∧ block.offset.toNat < 2 ^ 31 := by
  have number := arrived.number
  have product : block.num.toNat * block.size.toNat ≤ (2 ^ 20 - 1) * 2048 :=
    Nat.mul_le_mul (by omega) arrived.sizes.2
  have value : block.offset.toNat = block.num.toNat * block.size.toNat := by
    rw [arrived.offset, UInt32.toNat_mul, UInt16.toNat_toUInt32]
    exact Nat.mod_eq_of_lt (by omega)
  exact ⟨value, by omega⟩

variable {request : Packet}

theorem requestedBlock2_asked (asks : coapGetHeaderBlock2 request = some block) :
    (requestedBlock2 request).num = block.num ∧ (requestedBlock2 request).more = block.more ∧
      (requestedBlock2 request).offset = block.offset ∧
      (requestedBlock2 request).size.toNat = block.chunk := by
  rw [requestedBlock2, asks]
  refine ⟨rfl, rfl, rfl, ?_⟩
  simp only
  rw [Block.chunk]
  split
  · rename_i below
    exact (Nat.min_eq_left (Nat.le_of_lt below)).symm
  · rename_i notBelow
    exact (Nat.min_eq_right (Nat.not_lt.mp notBelow)).symm

/-- Whether more is behind a block, without the unsigned difference. -/
theorem moreBehind_iff (asks : coapGetHeaderBlock2 request = some block)
    (arrived : ArrivedBlock block)
    {payload : List UInt8} (small : payload.length < 2 ^ 31) : moreBehind request payload = true ↔
    payload.length < block.offset.toNat ∨ block.offset.toNat + block.chunk < payload.length := by
  obtain ⟨_, _, offset, size⟩ := requestedBlock2_asked asks
  have below := arrived.offset_toNat.2
  have length : (UInt32.ofNat payload.length).toNat = payload.length :=
    UInt32.toNat_ofNat_of_lt' (Nat.lt_trans small (by decide))
  have short : block.chunk ≤ 1024 := Nat.min_le_right _ _
  rw [moreBehind, decide_eq_true_eq, gt_iff_lt, UInt32.lt_iff_toNat_lt, UInt16.toNat_toUInt32, size,
    offset, UInt32.toNat_sub, length]
  omega

theorem moreBehind_last (asks : coapGetHeaderBlock2 request = some block)
    (arrived : ArrivedBlock block) {payload : List UInt8}
    (small : payload.length < 2 ^ 31) (starts : block.offset.toNat ≤ payload.length)
    (last : ¬ block.offset.toNat + block.chunk < payload.length) :
    moreBehind request payload = false := by
  refine Bool.eq_false_of_not_eq_true fun more => ?_
  rcases (moreBehind_iff asks arrived small).mp more with before | behind
  · exact absurd before (Nat.not_lt.mpr starts)
  · exact last behind

theorem copyCount (asks : coapGetHeaderBlock2 request = some block) (arrived : ArrivedBlock block)
    {length : Nat} (small : length < 2 ^ 31) :
    (min (UInt32.ofNat length - (requestedBlock2 request).offset)
      (requestedBlock2 request).size.toUInt32).toNat = if block.offset.toNat ≤ length then
    min (length - block.offset.toNat) block.chunk else block.chunk := by
  obtain ⟨_, _, offset, size⟩ := requestedBlock2_asked asks
  have below := arrived.offset_toNat.2
  have total : (UInt32.ofNat length).toNat = length :=
    UInt32.toNat_ofNat_of_lt' (Nat.lt_trans small (by decide))
  have short : block.chunk ≤ 1024 := Nat.min_le_right _ _
  rw [toNat_min, UInt16.toNat_toUInt32, size, offset, UInt32.toNat_sub, total]
  split <;> omega

theorem take_chunk (block : Block) (payload : List UInt8) :
    (payload.take block.chunk).take restMaxChunkSize = payload.take block.chunk := by
  rw [take_take, Nat.min_eq_right]
  exact Nat.min_le_right _ _

end Arrived

/-! ## What is sent from the handler -/

section Answer

variable {block : Block} {request response : Packet} {outPayload : List UInt8}

/-- The condition under which the end of a `GET` stays inside what the handler returned: the
block asked for starts inside, or right behind it; and a last block is not asked for with the
more bit, unless it is the first or the representation is apart from the response. -/
def StaysInside (block : Block) (payload outPayload : List UInt8) : Prop :=
  block.offset.toNat ≤ payload.length ∧ (outPayload = [] → block.offset ≠ 0 →
    payload.length ≤ block.offset.toNat + block.chunk → block.more = false)

/-- The bytes a `GET` is answered with. -/
def answeredBytes (block : Block) (payload : List UInt8) : List UInt8 :=
  (payload.drop block.offset.toNat).take block.chunk

/-- The part of a payload that is copied. -/
def copiedPart (request : Packet) (payload : List UInt8) (response : Packet) : Option Packet :=
  let block := requestedBlock2 request
  let count := (min (UInt32.ofNat payload.length - block.offset) block.size.toUInt32).toNat
  if block.offset.toNat + count ≤ payload.length then
    some (coapSetPayload ((payload.drop block.offset.toNat).take count) response)
  else none

/-- The response, when more is behind the block. -/
def announced (request : Packet) (payload : List UInt8) (response : Packet) : Packet :=
  coapSetHeaderSize2 (UInt32.ofNat payload.length)
    (coapSetHeaderBlock2 (requestedBlock2 request).num true (requestedBlock2 request).size response)

theorem getAnswer_more (more : moreBehind request (returnedPayload response outPayload) = true)
    (filled : returnedPayload response outPayload ≠ []) :
    getAnswer request response outPayload =
      copiedPart request (returnedPayload response outPayload)
        (announced request (returnedPayload response outPayload) response) := by
  have kept : (if outPayload.length = 0 then response.payload else outPayload) =
      returnedPayload response outPayload :=
    rfl
  have length : (returnedPayload response outPayload).length ≠ 0 :=
    fun empty => filled (length_eq_zero_iff.mp empty)
  rw [getAnswer]
  simp only [more, true_and, kept, if_true, if_pos length]
  rfl

/-- A payload of its own that ends in the block asked for. -/
theorem getAnswer_own (last : moreBehind request (returnedPayload response outPayload) = false)
    (own : outPayload ≠ []) :
    getAnswer request response outPayload = copiedPart request outPayload response := by
  have length : outPayload.length ≠ 0 := fun empty => own (length_eq_zero_iff.mp empty)
  rw [getAnswer]
  simp only [last, Bool.false_eq_true, false_and, if_false, if_pos length]
  rfl

/-- A payload in the response that ends in the block asked for. -/
theorem getAnswer_set (last : moreBehind request (returnedPayload response []) = false) :
    getAnswer request response [] =
      if (requestedBlock2 request).offset ≠ 0 then
        if (requestedBlock2 request).more then none
        else
          let count :=
  (UInt32.ofNat response.payload.length - (requestedBlock2 request).offset).toNat
          if (requestedBlock2 request).offset.toNat + min restMaxChunkSize count ≤
            response.payload.length then
            some (coapSetPayload
              ((response.payload.drop (requestedBlock2 request).offset.toNat).take count) response)
          else none
      else some response := by
  have empty : ¬ ([] : List UInt8).length ≠ 0 := fun filled => filled rfl
  rw [getAnswer]
  simp only [last, Bool.false_eq_true, false_and, if_false, if_neg empty, false_or]

/-- An empty payload, asked for from behind its end. -/
theorem getAnswer_empty (more : moreBehind request (returnedPayload response outPayload) = true)
    (empty : returnedPayload response outPayload = [])
    (later : (requestedBlock2 request).offset ≠ 0) :
    getAnswer request response outPayload = none := by
  have kept : (if outPayload.length = 0 then response.payload else outPayload) = [] := empty
  have length : ¬ ([] : List UInt8).length ≠ 0 := fun filled => filled rfl
  rw [getAnswer]
  simp only [more, true_and, kept, if_true, if_neg length, if_pos later, true_or]

/-- What an answer has of the response and of the block asked for. -/
structure HandlerAnswer (block : Block) (payload : List UInt8)
    (response answer : Packet) : Prop where
  code : answer.code = response.code
  bytes : answer.payload = answeredBytes block payload
  block2 : coapGetHeaderBlock2 answer =
    if block.offset.toNat + block.chunk < payload.length then
      some ⟨block.num, true, UInt16.ofNat block.chunk, response.block2.offset⟩
    else coapGetHeaderBlock2 response

theorem announced_code (request : Packet) (payload : List UInt8) (response : Packet) :
    (announced request payload response).code = response.code := by
  unfold announced coapSetHeaderSize2 coapSetHeaderBlock2
  split <;> rfl

theorem announced_block2 (asks : coapGetHeaderBlock2 request = some block)
    (arrived : ArrivedBlock block) (payload : List UInt8) (response : Packet) :
    coapGetHeaderBlock2 (announced request payload response) =
      some ⟨block.num, true, UInt16.ofNat block.chunk, response.block2.offset⟩ := by
  obtain ⟨num, _, _, chunk⟩ := requestedBlock2_asked asks
  have sizes := arrived.sizes
  have bounds : 16 ≤ (requestedBlock2 request).size.toNat ∧
      (requestedBlock2 request).size.toNat ≤ 2048 := by
    rw [chunk, Block.chunk]
    omega
  have same : (requestedBlock2 request).size = UInt16.ofNat block.chunk := by
    rw [← chunk, UInt16.ofNat_toNat]
  rw [announced, getBlock2_setSize2, num,
    getBlock2_setBlock2_sized arrived.number bounds.1 bounds.2, same]

variable {payload : List UInt8}

/-- The copy of a block that starts inside the payload. -/
theorem copiedPart_inside (asks : coapGetHeaderBlock2 request = some block)
    (arrived : ArrivedBlock block) (small : payload.length < 2 ^ 31)
    (starts : block.offset.toNat ≤ payload.length) (response : Packet) : copiedPart request payload
      response = some { response with payload := answeredBytes block payload } := by
  obtain ⟨_, _, offset, _⟩ := requestedBlock2_asked asks
  have count := copyCount asks arrived small
  rw [if_pos starts, offset] at count
  have copied : (payload.drop block.offset.toNat).take
      (min (payload.length - block.offset.toNat) block.chunk) = answeredBytes block payload := by
    rw [answeredBytes, ← length_drop, Nat.min_comm, ← take_eq_take_min]
  rw [copiedPart]
  simp only [offset, count, copied]
  rw [if_pos (by omega), coapSetPayload, answeredBytes, take_chunk]

/-- The copy of a block behind the payload leaves it. -/
theorem copiedPart_outside (asks : coapGetHeaderBlock2 request = some block)
    (arrived : ArrivedBlock block) (small : payload.length < 2 ^ 31)
    (behind : payload.length < block.offset.toNat)
    (response : Packet) : copiedPart request payload response = none := by
  obtain ⟨_, _, offset, _⟩ := requestedBlock2_asked asks
  have count := copyCount asks arrived small
  rw [if_neg (Nat.not_le.mpr behind), offset] at count
  rw [copiedPart]
  simp only [offset, count]
  rw [if_neg (by omega)]

/-- A packet that is sent with the bytes of the block asked for. -/
theorem HandlerAnswer.filled {sent : Packet} (code : sent.code = response.code)
    (block2 : coapGetHeaderBlock2 sent =
      if block.offset.toNat + block.chunk < payload.length then
        some ⟨block.num, true, UInt16.ofNat block.chunk, response.block2.offset⟩
      else coapGetHeaderBlock2 response) :
    HandlerAnswer block payload response { sent with payload := answeredBytes block payload } :=
  ⟨code, rfl, block2⟩

/-- More is behind the block asked for. -/
theorem getAnswer_room (asks : coapGetHeaderBlock2 request = some block)
    (arrived : ArrivedBlock block) (small : (returnedPayload response outPayload).length < 2 ^ 31)
    (room : block.offset.toNat + block.chunk < (returnedPayload response outPayload).length) :
    ∃ answer, getAnswer request response outPayload = some answer ∧
    HandlerAnswer block (returnedPayload response outPayload) response answer := by
  have more := (moreBehind_iff asks arrived small).mpr (.inr room)
  have filled : returnedPayload response outPayload ≠ [] := by
    intro empty
    rw [empty] at room
    cases room
  have starts : block.offset.toNat ≤ (returnedPayload response outPayload).length := by omega
  rw [getAnswer_more more filled, copiedPart_inside asks arrived small starts]
  have sent := announced_block2 asks arrived (returnedPayload response outPayload) response
  have answer :=
    HandlerAnswer.filled (announced_code request (returnedPayload response outPayload) response)
    (sent.trans (if_pos room).symm)
  exact ⟨_, rfl, answer⟩

/-- A payload in the response ends in the block asked for, and is moved to its front. -/
theorem getAnswer_rest (asks : coapGetHeaderBlock2 request = some block)
    (arrived : ArrivedBlock block) (small : response.payload.length < 2 ^ 31)
    (starts : block.offset.toNat ≤ response.payload.length)
    (unmarked : block.offset ≠ 0 → block.more = false)
    (last : ¬ block.offset.toNat + block.chunk < response.payload.length) :
    ∃ answer, getAnswer request response [] = some answer ∧
    HandlerAnswer block response.payload response answer := by
  obtain ⟨_, marked, offset, _⟩ := requestedBlock2_asked asks
  have below := arrived.offset_toNat.2
  have short : block.chunk ≤ 1024 := Nat.min_le_right _ _
  rw [getAnswer_set (moreBehind_last asks arrived small starts last), offset, marked]
  by_cases first : block.offset = 0
  · rw [if_neg (not_not.mpr first)]
    refine ⟨response, rfl, rfl, ?_, (if_neg last).symm⟩
    rw [first, UInt32.toNat_zero] at last
    rw [answeredBytes, first, UInt32.toNat_zero, drop_zero, take_of_length_le (by omega)]
  · have total : (UInt32.ofNat response.payload.length - block.offset).toNat =
        response.payload.length - block.offset.toNat := by
      rw [UInt32.toNat_sub, UInt32.toNat_ofNat_of_lt' (Nat.lt_trans small (by decide))]
      omega
    have rest : (response.payload.drop block.offset.toNat).length ≤ block.chunk := by
      rw [length_drop]
      omega
    rw [if_pos first, unmarked first, if_neg Bool.false_ne_true]
    simp only [total]
    rw [if_pos (by rw [restMaxChunkSize]; omega)]
    refine ⟨_, rfl, rfl, ?_, (if_neg last).symm⟩
    rw [answeredBytes, take_of_length_le rest, coapSetPayload]
    simp only
    have whole : (response.payload.drop block.offset.toNat).take
      (response.payload.length - block.offset.toNat) = response.payload.drop block.offset.toNat :=
      take_of_length_le (by rw [length_drop])
    rw [whole]
    exact take_of_length_le (Nat.le_trans rest short)

theorem getAnswer_inside (asks : coapGetHeaderBlock2 request = some block)
    (arrived : ArrivedBlock block) (small : (returnedPayload response outPayload).length < 2 ^ 31)
    (inside : StaysInside block (returnedPayload response outPayload) outPayload) :
    ∃ answer, getAnswer request response outPayload = some answer ∧
    HandlerAnswer block (returnedPayload response outPayload) response answer := by
  obtain ⟨starts, unmarked⟩ := inside
  by_cases room : block.offset.toNat + block.chunk < (returnedPayload response outPayload).length
  · exact getAnswer_room asks arrived small room
  by_cases own : outPayload = []
  · subst own
    exact getAnswer_rest asks arrived small starts
      (fun later => unmarked rfl later (Nat.not_lt.mp room)) room
  · have source : returnedPayload response outPayload = outPayload :=
      if_neg fun empty => own (length_eq_zero_iff.mp empty)
    rw [getAnswer_own (moreBehind_last asks arrived small starts room) own]
    rw [source] at small starts room ⊢
    rw [copiedPart_inside asks arrived small starts]
    exact ⟨_, rfl, HandlerAnswer.filled rfl (if_neg room).symm⟩

theorem getAnswer_outside (asks : coapGetHeaderBlock2 request = some block)
    (arrived : ArrivedBlock block) (small : (returnedPayload response outPayload).length < 2 ^ 31)
    (outside : ¬ StaysInside block (returnedPayload response outPayload) outPayload) :
    getAnswer request response outPayload = none := by
  obtain ⟨_, marked, offset, _⟩ := requestedBlock2_asked asks
  have behind := moreBehind_iff asks arrived small
  by_cases starts : block.offset.toNat ≤ (returnedPayload response outPayload).length
  · -- the last block of a payload in the response, asked for with the more bit
    have marks : ¬ (outPayload = [] → block.offset ≠ 0 →
        (returnedPayload response outPayload).length ≤ block.offset.toNat + block.chunk →
        block.more = false) :=
      fun clear => outside ⟨starts, clear⟩
    obtain ⟨own, marks⟩ := Classical.not_imp.mp marks
    obtain ⟨later, marks⟩ := Classical.not_imp.mp marks
    obtain ⟨last, more⟩ := Classical.not_imp.mp marks
    subst own
    have ends := moreBehind_last asks arrived small starts (Nat.not_lt.mpr last)
    rw [getAnswer_set ends, offset, marked, if_pos later,
      if_pos (Bool.eq_true_of_not_eq_false more)]
  · have beyond := Nat.lt_of_not_le starts
    have more := behind.mpr (.inl beyond)
    by_cases empty : returnedPayload response outPayload = []
    · refine getAnswer_empty more empty ?_
      intro zero
      rw [← offset, zero] at beyond
      exact absurd beyond (Nat.not_lt_zero _)
    · rw [getAnswer_more more empty, copiedPart_outside asks arrived small beyond]

end Answer

/-! ## The response to a `GET` -/

section Response

variable {A E : Type} [DecidableEq A] {source : A} {request : Packet} {server : ServerContext A E}
  {handler : Handler E}

/-- The response `coap_request_handler` sends to a `GET` that is answered from the store or by
a resource handler; without one where the code leaves the payload or fails its assertion. -/
def getResponse (now : UInt32) (source : A) (request : Packet) (server : ServerContext A E) :
    Option Packet :=
  let (response, server) := prepareResponse request server
  (checkBlockwiseTransferGet now source request response server.blockwise).bind
    fun (check, answer, _) =>
    match check with
    | .notBlockwise =>
      let (status, answer, outPayload, _) := coapHandleRequestInternal request answer server
      getAnswer request (coapSetStatusCode status answer) outPayload
    | _ => some answer

/-- A request that a handler answers with a status that is sent. -/
structure Answered (server : ServerContext A E) (request : Packet)
    (handler : Handler E) : Prop where
  serves : Serves server request handler
  get : request.code = coapGet
  implemented : (handler request server.app).1.status ≠ notImplemented501
  responds : (handler request server.app).1.status ≠ manualResponse

theorem serveRequest_answer (answered : Answered server request handler) (now : UInt32) (source : A)
    (response : Packet) :
    serveRequest now source request response server =
      respondGet now source request (answerOf (handler request server.app).1 response)
        (handler request server.app).1.outPayload (server.called request handler) := by
  have out : takesOutPayload request.code = true := by
    rw [answered.get]
    rfl
  rw [serveRequest, coapHandleRequestInternal_serves answered.serves]
  simp only [if_neg answered.implemented, if_neg answered.responds,
    if_pos answered.get, out, if_true]
  rw [if_pos answered.implemented]
  rfl

omit [DecidableEq A] in
theorem ServerContext.send_txData {message : Packet} {after : ServerContext A E}
    (sends : server.send source message = some after) :
    ∃ packet, coapSerializeMessage coapMaxPacketSize message = some packet ∧
      after.txData = server.txData ++ if packet.length > 0 then [(source, packet)] else [] := by
  rw [ServerContext.send] at sends
  obtain ⟨packet, serialized, rfl⟩ := map_eq_some_iff.mp sends
  refine ⟨packet, serialized, ?_⟩
  split
  · rfl
  · rw [append_nil]

theorem ServerContext.keep_txData (now : UInt32) (source : A) (request answer : Packet)
    (payload outPayload : List UInt8) (server : ServerContext A E) :
    (server.keep now source request answer payload outPayload).txData = server.txData := by
  rw [ServerContext.keep]
  split
  · split <;> rfl
  · rfl

/-- What a server sends to a `GET` is its response. -/
theorem coapRequestHandler_getResponse (answered : Answered server request handler) {now : UInt32}
    {next : ServerContext A E}
    (handles : coapRequestHandler now source request server = some next) :
    ∃ answer packet, getResponse now source request server = some answer ∧
    coapSerializeMessage coapMaxPacketSize answer = some packet ∧
    next.txData = server.txData ++ if packet.length > 0 then [(source, packet)] else [] := by
  obtain ⟨mid, prepared⟩ := prepareResponse_server request server
  rw [getResponse]
  rw [coapRequestHandler] at handles
  generalize prepareResponse request server = pair at handles prepared
  obtain ⟨response, ready⟩ := pair
  simp only at handles prepared ⊢
  subst prepared
  rw [if_pos answered.get] at handles
  obtain ⟨⟨check, answer, store⟩, checked, served⟩ := bind_eq_some_iff.mp handles
  rw [checked, bind_some]
  simp only at served ⊢
  split at served
  · have still : Answered (({ server with currentMid := mid } : ServerContext A E).withStore store)
        request handler :=
      ⟨⟨answered.serves.some_path, answered.serves.short, answered.serves.found⟩, answered.get,
        answered.implemented, answered.responds⟩
    have called : Serves ({ server with currentMid := mid } : ServerContext A E) request handler :=
      ⟨answered.serves.some_path, answered.serves.short, answered.serves.found⟩
    have out : takesOutPayload request.code = true := by
      rw [answered.get]
      rfl
    have served := (serveRequest_answer still now source answer).symm.trans served
    rw [respondGet_eq] at served
    obtain ⟨sentAnswer, answers, sends⟩ := bind_eq_some_iff.mp served
    obtain ⟨sent, delivers, rfl⟩ := map_eq_some_iff.mp sends
    obtain ⟨packet, serialized, tx⟩ := ServerContext.send_txData delivers
    refine ⟨sentAnswer, packet, ?_, serialized, ?_⟩
    · rw [coapHandleRequestInternal_serves called]
      simp only [out, if_true]
      exact answers
    · rw [ServerContext.keep_txData, tx]
      rfl
  · obtain ⟨packet, serialized, tx⟩ := ServerContext.send_txData served
    refine ⟨answer, packet, ?_, serialized, tx⟩
    rename_i other
    cases check with
    | notBlockwise => exact absurd rfl other
    | invalid => rfl
    | fromCache => rfl

/-! ## From the handler -/

/-- Nothing is kept of what a request asks for. -/
def Uncached (source : A) (request : Packet) (store : BlockStore A) : Prop :=
  ∀ url, coapGetFullUrlAlloc request = some url → findBlock source url true store = none

theorem checkBlockwiseTransferGet_uncached {store : BlockStore A}
    (uncached : Uncached source request store) (now : UInt32) (response : Packet) :
    checkBlockwiseTransferGet now source request response store =
      some (.notBlockwise, response, store) := by
  rw [checkBlockwiseTransferGet]
  cases full : coapGetFullUrlAlloc request with
  | none => rfl
  | some url =>
    simp only
    rw [uncached url full]

theorem returnedPayload_answerOf (result : HandlerResult) (response : Packet) :
    returnedPayload (answerOf result response) result.outPayload = result.representation := by
  have payload : (answerOf result response).payload = result.payload.take restMaxChunkSize := by
    unfold answerOf applyResult
    cases result.contentFormat with
    | none => rfl
    | some format => rfl
  rw [returnedPayload, HandlerResult.representation, payload]

theorem getResponse_handler (answered : Answered server request handler)
    (uncached : Uncached source request server.blockwise) (now : UInt32) :
    getResponse now source request server =
      getAnswer request (answerOf (handler request server.app).1 (prepareResponse request server).1)
        (handler request server.app).1.outPayload := by
  obtain ⟨mid, prepared⟩ := prepareResponse_server request server
  have called : Serves ({ server with currentMid := mid } : ServerContext A E) request handler :=
    ⟨answered.serves.some_path, answered.serves.short, answered.serves.found⟩
  have out : takesOutPayload request.code = true := by
    rw [answered.get]
    rfl
  rw [getResponse]
  generalize prepareResponse request server = pair at prepared
  obtain ⟨response, ready⟩ := pair
  simp only at prepared ⊢
  subst prepared
  rw [checkBlockwiseTransferGet_uncached uncached, bind_some,
    coapHandleRequestInternal_serves called]
  simp only [out, if_true]
  rfl

variable {block : Block}

/-- A `GET` answered by a handler is answered with a part of what the handler returned, and
without the assertion failing, exactly if the block asked for starts in it, or right behind
it, and is not the last block of a payload in the response with the more bit set. -/
theorem getResponse_inside_iff (answered : Answered server request handler)
    (uncached : Uncached source request server.blockwise)
    (asks : coapGetHeaderBlock2 request = some block) (arrived : ArrivedBlock block)
    (small : (handler request server.app).1.representation.length < 2 ^ 31) (now : UInt32) :
    (∃ answer first last, getResponse now source request server = some answer ∧ first ≤ last ∧
      last ≤ (handler request server.app).1.representation.length ∧
      answer.payload = ((handler request server.app).1.representation.take last).drop first) ↔
    block.offset.toNat ≤ (handler request server.app).1.representation.length ∧
    ((handler request server.app).1.outPayload = [] → block.offset ≠ 0 →
      (handler request server.app).1.representation.length ≤ block.offset.toNat + block.chunk →
      block.more = false) := by
  have returned :=
    returnedPayload_answerOf (handler request server.app).1 (prepareResponse request server).1
  rw [getResponse_handler answered uncached now]
  generalize (handler request server.app).1 = result at *
  rw [← returned] at small ⊢
  constructor
  · rintro ⟨answer, first, last, answers, _⟩
    by_contra outside
    rw [getAnswer_outside asks arrived small outside] at answers
    cases answers
  · intro inside
    obtain ⟨answer, answers, part⟩ := getAnswer_inside asks arrived small inside
    refine ⟨answer, block.offset.toNat, min (block.offset.toNat + block.chunk) _, answers, ?_,
      Nat.min_le_right _ _, ?_⟩
    · exact Nat.le_min.mpr ⟨Nat.le_add_right _ _, inside.1⟩
    · rw [part.bytes, answeredBytes, take_drop, ← take_eq_take_min, Nat.add_comm]

/-- A handler that returns twenty bytes. -/
def twentyBytes : Handler Unit := fun _ _ => (⟨content205, [], none, List.replicate 20 7⟩, ())

/-- A server with it, and a store. -/
def twentyServer (store : BlockStore Bool) : ServerContext Bool Unit :=
  ⟨store, [⟨.ofBytes [0x61], some twentyBytes, none, none, none⟩], none, true, 1, (), [], []⟩

/-- A request for a block of the twenty bytes, as it arrives. -/
def askTwenty (block : Block) : Packet :=
  CoapPacket.setOption .block2
    { coapSetHeaderUriPath (.ofBytes [0x61]) (coapInitMessage .con coapGet 1) with
    block2 := block }

theorem askTwenty_answered (block : Block) (store : BlockStore Bool) :
    Answered (twentyServer store) (askTwenty block) twentyBytes where
  serves := ⟨(by decide : ([0x61] : List UInt8) ≠ []),
    (by decide : ([0x61] : List UInt8).length < 256), rfl⟩
  get := rfl
  implemented := (by decide : content205 ≠ notImplemented501)
  responds := (by decide : content205 ≠ manualResponse)

/-- The second block of sixteen bytes. -/
def secondBlock : Block := ⟨1, false, 16, 16⟩

theorem secondBlock_arrived : ArrivedBlock secondBlock := ⟨by decide, ⟨0, by decide, rfl⟩, rfl⟩

theorem getResponse_inside_twentyBytes : ∃ answer first last,
    getResponse 5 false (askTwenty secondBlock) (twentyServer []) = some answer ∧ first ≤ last ∧
    last ≤ (twentyBytes (askTwenty secondBlock) ()).1.representation.length ∧ answer.payload =
      ((twentyBytes (askTwenty secondBlock) ()).1.representation.take last).drop first :=
  (getResponse_inside_iff (askTwenty_answered secondBlock [])
    (fun _ _ => rfl) rfl secondBlock_arrived (by decide) 5).mpr ⟨by decide, fun _ _ _ => rfl⟩

/-- The hundredth block of the twenty bytes is read from behind them. -/
theorem getResponse_leaves :
    ¬ ∀ (block : Block) (server : ServerContext Bool Unit) (request : Packet)
      (handler : Handler Unit) (now : UInt32),
    Answered server request handler → Uncached false request server.blockwise →
    coapGetHeaderBlock2 request = some block → ArrivedBlock block →
    (handler request server.app).1.representation.length < 2 ^ 31 →
    ∃ answer first last, getResponse now false request server = some answer ∧ first ≤ last ∧
    last ≤ (handler request server.app).1.representation.length ∧
    answer.payload = ((handler request server.app).1.representation.take last).drop first := by
  intro claimed
  obtain ⟨answer, _, _, answers, _⟩ := claimed ⟨100, false, 16, 1600⟩ (twentyServer [])
    (askTwenty ⟨100, false, 16, 1600⟩) twentyBytes 5 (askTwenty_answered _ []) (fun _ _ => rfl) rfl
    ⟨by decide, ⟨0, by decide, rfl⟩, rfl⟩ (by decide)
  have left : getResponse 5 false (askTwenty ⟨100, false, 16, 1600⟩)
    (twentyServer []) = none := by decide +kernel
  rw [left] at answers
  cases answers

/-! ## From the store -/

/-- A Block2 option as it is sent. -/
def sentBlock2 (packet : Packet) : Option (UInt32 × Bool × UInt16) :=
  (coapGetHeaderBlock2 packet).map fun block => (block.num, block.more, block.size)

/-- Two responses with the same code, payload and Block2 option. -/
structure SameAnswer (one other : Packet) : Prop where
  code : one.code = other.code
  payload : one.payload = other.payload
  block2 : sentBlock2 one = sentBlock2 other

theorem requestedBlock2_eq (asks : coapGetHeaderBlock2 request = some block) :
    requestedBlock2 request = ⟨block.num, block.more, UInt16.ofNat block.chunk, block.offset⟩ := by
  obtain ⟨num, more, offset, size⟩ := requestedBlock2_asked asks
  have same : (requestedBlock2 request).size = UInt16.ofNat block.chunk := by
    rw [← size, UInt16.ofNat_toNat]
  rw [← num, ← more, ← offset, ← same]

theorem ArrivedBlock.chunk_bounds (arrived : ArrivedBlock block) :
    16 ≤ block.chunk ∧ block.chunk ≤ 1024 ∧ block.chunk ≤ block.size.toNat ∧
      (UInt16.ofNat block.chunk).toNat = block.chunk := by
  have sizes := arrived.sizes
  have short : block.chunk ≤ 1024 := Nat.min_le_right _ _
  have least : 16 ≤ block.chunk := Nat.le_min.mpr ⟨sizes.1, by decide⟩
  exact ⟨least, short, Nat.min_le_left _ _,
    UInt16.toNat_ofNat_of_lt' (Nat.lt_of_le_of_lt short (by decide))⟩

/-- What the store answers with: a block of the representation, or a refusal. -/
structure StoreAnswer (block : Block) (representation : List UInt8) (answer : Packet) : Prop where
  inside : block.chunk * block.num.toNat < representation.length → answer.code = content205 ∧
    answer.payload = sliceAt block.chunk representation block.num.toNat ∧
    sentBlock2 answer = some (block.num,
    decide (block.chunk * (block.num.toNat + 1) < representation.length), UInt16.ofNat block.chunk)
  beyond : representation.length ≤ block.chunk * block.num.toNat →
    answer.code = requestEntityTooLarge413 ∧ answer.payload = [] ∧ sentBlock2 answer = none

/-- A block that the store answers with, as it is asked for. -/
theorem AnswersSlice.stored {representation : List UInt8} {answer : GetCheck × Packet}
    (slice : AnswersSlice representation (UInt16.ofNat block.chunk) block.num.toNat answer)
    (arrived : ArrivedBlock block)
    (inside : block.chunk * block.num.toNat < representation.length) :
    StoreAnswer block representation answer.2 := by
  obtain ⟨least, _, _, size⟩ := arrived.chunk_bounds
  obtain ⟨offset, option⟩ := slice.block2 arrived.number
  have payload := slice.payload
  rw [size] at option payload
  refine ⟨fun _ => ⟨slice.code, payload, ?_⟩, fun beyond => absurd inside (Nat.not_lt.mpr beyond)⟩
  rw [sentBlock2, option, map_some, UInt32.ofNat_toNat]
  simp only [lt_slicesOf (by omega : 0 < block.chunk)]

theorem getResponse_cached {url : CString} {representation : List UInt8}
    (cached : Cached source url representation server.blockwise)
    (full : coapGetFullUrlAlloc request = some url)
    (asks : coapGetHeaderBlock2 request = some block) (arrived : ArrivedBlock block)
    (now : UInt32) : ∃ answer, getResponse now source request server = some answer ∧
    StoreAnswer block representation answer := by
  obtain ⟨mid, prepared⟩ := prepareResponse_server request server
  obtain ⟨type, id, token, fresh⟩ := prepareResponse_form request server
  obtain ⟨least, short, _, size⟩ := arrived.chunk_bounds
  rw [getResponse]
  generalize prepareResponse request server = pair at prepared fresh
  obtain ⟨response, ready⟩ := pair
  simp only at prepared fresh ⊢
  subst prepared fresh
  have asked := requestedBlock2_eq asks
  by_cases inside : block.chunk * block.num.toNat < representation.length
  · have slice := (lt_slicesOf (by omega : 0 < block.chunk)).mpr inside
    obtain ⟨format, next, _, reads⟩ :=
      checkBlockwiseTransferGet_inside cached full asked (by rw [size]; exact least)
      (by rw [size]; exact slice) now { coapInitMessage type content205 id with token := token }
    have slice : AnswersSlice representation (UInt16.ofNat block.chunk) block.num.toNat
        (.fromCache, _) :=
      sliceAnswer_slice rfl (by rw [size]; exact least) (by rw [size]; exact short) format
        { coapInitMessage type content205 id with token := token }
    rw [reads]
    exact ⟨_, rfl, slice.stored arrived inside⟩
  · have beyond := Nat.not_lt.mp inside
    have slice : slicesOf block.chunk representation.length ≤ block.num.toNat := by
      refine Nat.not_lt.mp fun below => inside ?_
      exact (lt_slicesOf (by omega : 0 < block.chunk)).mp below
    have refuses := checkBlockwiseTransferGet_beyond cached full asked (by rw [size]; exact least)
      (by rw [size]; exact slice) now { coapInitMessage type content205 id with token := token }
    rw [refuses]
    exact ⟨_, rfl, fun within => absurd within inside, fun _ => ⟨rfl, rfl, rfl⟩⟩

/-! ## Both ways -/

/-- When the two ways agree. The block is followed by more, the handler has answered with
2.05, and the block is at the same place for both, or the bytes happen to be the same; or the
handler itself refuses with 4.13, and the block starts right behind its payload. -/
def PathsAgree (block : Block) (result : HandlerResult) : Prop :=
  (block.offset.toNat + block.chunk < result.representation.length ∧ result.status = content205 ∧
    answeredBytes block result.representation =
    sliceAt block.chunk result.representation block.num.toNat) ∨
  (block.offset.toNat = result.representation.length ∧ block.size.toNat ≤ 1024 ∧
    result.status = requestEntityTooLarge413 ∧ (result.outPayload = [] → block.more = false))

/-- Where the ways agree, the handler's answer stays inside of what the handler returned. -/
theorem PathsAgree.staysInside {result : HandlerResult} (agree : PathsAgree block result) :
    StaysInside block result.representation result.outPayload := by
  rcases agree with ⟨room, _, _⟩ | ⟨ends, _, _, unmarked⟩
  · exact ⟨by omega, fun _ _ last => absurd room (Nat.not_lt.mpr last)⟩
  · exact ⟨Nat.le_of_eq ends, fun own _ _ => unmarked own⟩

/-- The answer of the handler and that of the store, next to each other. -/
theorem sameAnswer_iff {result : HandlerResult} {response one other : Packet}
    (arrived : ArrivedBlock block) (long : block.chunk < result.representation.length)
    (stays : StaysInside block result.representation result.outPayload)
    (plain : coapGetHeaderBlock2 response = none) (status : response.code = result.status)
    (handled : HandlerAnswer block result.representation response one)
    (stored : StoreAnswer block result.representation other) : SameAnswer one other ↔
    PathsAgree block result := by
  obtain ⟨starts, unmarked⟩ := stays
  obtain ⟨least, short, most, _⟩ := arrived.chunk_bounds
  have offset := arrived.offset_toNat.1
  have earlier : block.chunk * block.num.toNat ≤ block.offset.toNat := by
    rw [offset, Nat.mul_comm]
    exact Nat.mul_le_mul_left _ most
  by_cases room : block.offset.toNat + block.chunk < result.representation.length
  · -- both have the block, and both say that more is behind it
    have inside : block.chunk * block.num.toNat < result.representation.length := by omega
    have followed : block.chunk * (block.num.toNat + 1) < result.representation.length := by
      rw [Nat.mul_add]
      omega
    obtain ⟨code, bytes, option⟩ := stored.inside inside
    have block2 := handled.block2
    rw [if_pos room] at block2
    constructor
    · intro same
      refine .inl ⟨room, ?_, ?_⟩
      · rw [← status, ← handled.code, same.code, code]
      · rw [← handled.bytes, same.payload, bytes]
    · rintro (⟨_, content, sameBytes⟩ | ⟨ends, _, _, _⟩)
      · refine ⟨?_, ?_, ?_⟩
        · rw [handled.code, status, content, code]
        · rw [handled.bytes, sameBytes, bytes]
        · rw [option, sentBlock2, block2, decide_eq_true followed]
          rfl
      · omega
  · -- the handler's answer has no option
    have absent : sentBlock2 one = none := by
      rw [sentBlock2, handled.block2, if_neg room, plain]
      rfl
    by_cases inside : block.chunk * block.num.toNat < result.representation.length
    · refine iff_of_false (fun same => ?_) ?_
      · have option := (stored.inside inside).2.2
        rw [← same.block2, absent] at option
        cases option
      · rintro (⟨more, _, _⟩ | ⟨ends, chunk, _, _⟩)
        · exact room more
        · have whole : block.chunk = block.size.toNat := Nat.min_eq_left chunk
          rw [whole, Nat.mul_comm, ← offset] at inside
          omega
    · have beyond := Nat.not_lt.mp inside
      obtain ⟨code, bytes, option⟩ := stored.beyond beyond
      have ends : block.offset.toNat = result.representation.length := by omega
      have nothing : one.payload = [] := by
        rw [handled.bytes, answeredBytes, drop_of_length_le (Nat.le_of_eq ends.symm), take_nil]
      have chunk : block.size.toNat ≤ 1024 := by
        by_contra large
        have whole : block.chunk = 1024 := Nat.min_eq_right (by omega)
        have sizes := arrived.sizes
        obtain ⟨exponent, bound, size⟩ := arrived.size
        have double : block.size.toNat = 2048 := by
          by_contra different
          have lower : exponent ≤ 6 := by
            by_contra high
            have seven : exponent = 7 := by omega
            rw [seven] at size
            exact different size
          have power : 2 ^ exponent ≤ 2 ^ 6 := Nat.pow_le_pow_right (by decide) lower
          omega
        rw [offset, double] at ends
        rw [whole] at beyond
        omega
      constructor
      · intro same
        refine .inr ⟨ends, chunk, ?_, fun own => unmarked own ?_ (by omega)⟩
        · rw [← status, ← handled.code, same.code, code]
        · intro zero
          rw [zero, UInt32.toNat_zero] at ends
          omega
      · rintro (⟨more, _, _⟩ | ⟨_, _, refused, _⟩)
        · exact absurd more room
        · refine ⟨?_, ?_, ?_⟩
          · rw [handled.code, status, refused, code]
          · rw [nothing, bytes]
          · rw [absent, option]

/-- A `GET` for a block of a representation that is longer than the block is answered alike
from the handler and from the store, exactly if the ways agree on the block. -/
theorem getResponse_paths_iff {empty kept : BlockStore A}
    {url : CString} (answered : Answered server request handler)
    (full : coapGetFullUrlAlloc request = some url) (uncached : Uncached source request empty)
    (cached : Cached source url (handler request server.app).1.representation kept)
    (asks : coapGetHeaderBlock2 request = some block) (arrived : ArrivedBlock block)
    (long : block.chunk < (handler request server.app).1.representation.length) (now : UInt32) :
    (∃ one other, getResponse now source request (server.withStore empty) = some one ∧
      getResponse now source request (server.withStore kept) = some other ∧ SameAnswer one other) ↔
    PathsAgree block (handler request server.app).1 := by
  have still : Answered (server.withStore empty) request handler :=
    ⟨⟨answered.serves.some_path, answered.serves.short, answered.serves.found⟩, answered.get,
      answered.implemented, answered.responds⟩
  have small : (handler request server.app).1.representation.length < 2 ^ 31 := by
    obtain ⟨node, _, _, _, length⟩ := cached
    have bound := node.bufferSize.toInt_lt
    omega
  have inStore : Cached source url (handler request server.app).1.representation
      (server.withStore kept).blockwise :=
    cached
  obtain ⟨other, fromStore, stored⟩ := getResponse_cached inStore full asks arrived now
  have fromHandler := getResponse_handler still uncached now
  obtain ⟨type, id, token, fresh⟩ := prepareResponse_form request (server.withStore empty)
  rw [fresh] at fromHandler
  change getResponse now source request (server.withStore empty) = getAnswer request (answerOf
    (handler request server.app).1 { coapInitMessage type content205 id with token := token })
    (handler request server.app).1.outPayload at fromHandler
  generalize (handler request server.app).1 = result at *
  have returned :=
    returnedPayload_answerOf result { coapInitMessage type content205 id with token := token }
  by_cases stays : StaysInside block result.representation result.outPayload
  · obtain ⟨one, answers, handled⟩ := getAnswer_inside asks arrived (by rw [returned]; exact small)
      (by rw [returned]; exact stays)
    rw [returned] at handled
    rw [answers] at fromHandler
    have plain : coapGetHeaderBlock2
      (answerOf result { coapInitMessage type content205 id with token := token }) = none :=
      (answerOf_same result _).block2
    have agreement := sameAnswer_iff arrived long stays plain rfl handled stored
    rw [fromHandler, fromStore]
    constructor
    · rintro ⟨_, _, here, there, same⟩
      cases here
      cases there
      exact agreement.mp same
    · exact fun agree => ⟨one, other, rfl, rfl, agreement.mpr agree⟩
  · rw [fromHandler, getAnswer_outside asks arrived (by rw [returned]; exact small)
      (by rw [returned]; exact stays)]
    refine iff_of_false ?_ fun agree => stays agree.staysInside
    rintro ⟨_, _, here, _⟩
    cases here

theorem getResponse_paths_firstBlock : ∃ one other,
    getResponse 5 false (askTwenty ⟨0, false, 16, 0⟩) ((twentyServer []).withStore []) = some one ∧
    getResponse 5 false (askTwenty ⟨0, false, 16, 0⟩) ((twentyServer []).withStore
      (storeWith (List.replicate 20 7))) = some other ∧ SameAnswer one other :=
  (getResponse_paths_iff (askTwenty_answered ⟨0, false, 16, 0⟩ []) (by decide +kernel)
    (fun _ _ => rfl)
    (storeWith_cached (by decide)) rfl ⟨by decide, ⟨0, by decide, rfl⟩, rfl⟩ (by decide) 5).mpr
      (.inl ⟨by decide, rfl, by decide⟩)

/-- The last block of the twenty bytes has no Block2 option when it comes from the handler. -/
theorem getResponse_paths_differ :
    ¬ ∀ (block : Block) (server : ServerContext Bool Unit) (request : Packet)
      (handler : Handler Unit) (now : UInt32) (kept : BlockStore Bool) (url : CString),
      Answered server request handler → coapGetFullUrlAlloc request = some url →
      Cached false url (handler request server.app).1.representation kept →
      coapGetHeaderBlock2 request = some block → ArrivedBlock block →
      block.chunk < (handler request server.app).1.representation.length →
      ∃ one other, getResponse now false request (server.withStore []) = some one ∧
      getResponse now false request (server.withStore kept) = some other ∧
      SameAnswer one other := by
  intro claimed
  obtain ⟨one, other, fromHandler, fromStore, same⟩ :=
    claimed secondBlock (twentyServer []) (askTwenty secondBlock) twentyBytes 5
    (storeWith (List.replicate 20 7)) (.ofBytes [0x61]) (askTwenty_answered secondBlock [])
    (by decide +kernel) (storeWith_cached (by decide)) rfl secondBlock_arrived (by decide)
  have plain : (getResponse 5 false (askTwenty secondBlock) ((twentyServer []).withStore [])).map
    sentBlock2 = some none := by decide +kernel
  have numbered : (getResponse 5 false (askTwenty secondBlock)
      ((twentyServer []).withStore (storeWith (List.replicate 20 7)))).map sentBlock2 =
        some (some (1, false, 16)) := by decide +kernel
  rw [fromHandler, map_some] at plain
  rw [fromStore, map_some] at numbered
  rw [same.block2, numbered] at plain
  cases plain

end Response

end Idrm.Coap
