import Idrm.Coap.Serving

/-!
# The server's side of an upload

A server that has taken the first blocks of a payload holds a buffer of the announced
size with these blocks at its start. Every block fills in the next part, and the last
one, which may be empty, hands the payload over.
-/

namespace Idrm.Coap

open Idrm.Lib List
open Option hiding or_self

/-! ## Blocks -/

/-- The number of the last block of an upload: what is behind the whole blocks. -/
def lastBlock (payload : List UInt8) : Nat := payload.length / 1024

/-- The buffer of an upload with its first blocks. -/
def filled (payload : List UInt8) (count : Nat) : List UInt8 :=
  payload.take (1024 * count) ++ List.replicate (payload.length - 1024 * count) 0

/-- The next block goes behind the ones that are there. -/
theorem copyInto_filled {payload : List UInt8}
    {index : Nat} (inside : 1024 * index ≤ payload.length) : copyInto (filled payload index)
    (1024 * index : Nat) (chunkAt payload index) = some (filled payload (index + 1)) := by
  have front : (payload.take (1024 * index)).length = 1024 * index := by
    rw [length_take, Nat.min_eq_left inside]
  have length := chunkAt_length payload index
  have room : 1024 * index + (chunkAt payload index).length ≤ (filled payload index).length := by
    rw [filled, length_append, front, length_replicate]
    omega
  have behind : (filled payload index).drop (1024 * index + (chunkAt payload index).length) =
      List.replicate (payload.length - 1024 * (index + 1)) 0 := by
    have left : payload.length - 1024 * index - (1024 * index + (chunkAt payload index).length -
        1024 * index) = payload.length - 1024 * (index + 1) := by
      omega
    rw [filled, drop_append, front, drop_of_length_le (by omega), nil_append,
      drop_replicate, left]
  have kept : (filled payload index).take (1024 * index) = payload.take (1024 * index) := by
    rw [filled, take_append_of_le_length (by omega), take_of_length_le (by omega)]
  rw [copyInto, if_neg (by omega), Int.toNat_natCast, storeAll_inside _ _ _ room, behind, kept,
    take_chunkAt, filled]

/-- Behind the last block, the buffer holds the payload. -/
theorem filled_last (payload : List UInt8) : filled payload (lastBlock payload + 1) = payload := by
  have beyond : payload.length ≤ 1024 * (lastBlock payload + 1) := by
    rw [lastBlock]
    omega
  rw [filled, take_of_length_le beyond, Nat.sub_eq_zero_of_le beyond, replicate_zero, append_nil]

theorem blockOffset_ofNat {index : Nat} (small : 1024 * index < 2 ^ 31) :
    blockOffset (UInt32.ofNat index) 1024 = (1024 * index : Nat) := by
  have product : UInt32.ofNat index * (1024 : UInt16).toUInt32 = UInt32.ofNat (1024 * index) := by
    rw [Nat.mul_comm, UInt32.ofNat_mul]
    rfl
  rw [blockOffset, product, toInt_ofNat small]

/-! ## Taking a block -/

/-- A request with a block of an upload; the first one announces the size. -/
structure PutBlock (payload : List UInt8) (url : CString) (index : Nat)
    (request : Packet) : Prop where
  block : ∃ offset, coapGetHeaderBlock1 request =
    some ⟨UInt32.ofNat index, decide (index < lastBlock payload), 1024, offset⟩
  url : coapGetFullUrlAlloc request = some url
  bytes : request.payload = chunkAt payload index
  size : index = 0 → coapGetHeaderSize1 request (1024 * 16) = UInt32.ofNat payload.length

/-- The node of an upload behind a block. -/
def uploadNode (payload : List UInt8) (url : CString) (lastAccess : UInt32)
    (index : Nat) : BlockNode where
  url := url
  buffer := filled payload (index + 1)
  bufferSize := (UInt32.ofNat payload.length).toInt32
  blockNum := UInt32.ofNat index
  contentFmt := 0
  lastAccess := lastAccess
  isGet := false

/-- The response to a block that is not the last. -/
def continued (index : Nat) (response : Packet) : Packet :=
  coapSetStatusCode continue231 (coapSetHeaderBlock1 (UInt32.ofNat index) true 1024 response)

theorem continued_acknowledges {index : Nat} (small : (UInt32.ofNat index).toNat < 2 ^ 20)
    (request : Packet) : (continued index (acknowledgement request)).type = .ack ∧
    (continued index (acknowledgement request)).mid = request.mid := by
  rw [continued, coapSetHeaderBlock1_chunk small]
  exact ⟨rfl, rfl⟩

section Check

variable {A : Type} [DecidableEq A] {payload : List UInt8} {url : CString} {request : Packet}
  {store rest : BlockStore A} {source : A}

theorem acceptPutBlock_more {response : Packet} {block : Block} {node : BlockNode} {offset : Int}
    {buffer : List UInt8}
    (more : block.more = true) (copied : copyInto node.buffer offset request.payload = some buffer)
    (now : UInt32) (size : UInt16) :
    acceptPutBlock now source request response block size node offset store = some (.uncompleted,
      coapSetStatusCode continue231 (coapSetHeaderBlock1 block.num true size response), addBlock
      source { node with buffer := buffer, lastAccess := now, blockNum := block.num } store) := by
  rw [acceptPutBlock, copied, map_some, if_neg (by rw [more]; decide), more]

theorem acceptPutBlock_last {response : Packet} {block : Block} {node : BlockNode} {offset : Int}
    {buffer : List UInt8} (last : block.more = false)
    (copied : copyInto node.buffer offset request.payload = some buffer)
    (now : UInt32) (size : UInt16) :
    acceptPutBlock now source request response block size node offset store =
      some (.completed (buffer.take ((offset.toNat + request.payload.length) % 65536)),
      coapSetHeaderBlock1 block.num false size response, store) := by
  rw [acceptPutBlock, copied, map_some, if_pos last, last]

/-- The first block of an upload opens a node. -/
theorem checkBlockwiseTransferPut_first (block : PutBlock payload url 0 request)
    (several : 0 < lastBlock payload) (absent : findBlock source url false store = none)
    (now : UInt32) (response : Packet) (small : payload.length < 65536) :
    checkBlockwiseTransferPut now source request response store = some (.uncompleted,
      continued 0 response, addBlock source (uploadNode payload url now 0) store) := by
  obtain ⟨offset, option⟩ := block.block
  have size : (UInt32.ofNat payload.length).toNat = payload.length :=
    UInt32.toNat_ofNat_of_lt' (Nat.lt_trans small (by decide))
  have copied :
      copyInto (List.replicate payload.length 0) 0 request.payload = some (filled payload 1) := by
    have empty : filled payload 0 = List.replicate payload.length 0 := by
      rw [filled, Nat.mul_zero, take_zero, nil_append, Nat.sub_zero]
    rw [← empty, block.bytes]
    exact copyInto_filled (Nat.zero_le _)
  have zero : UInt32.ofNat 0 = 0 := rfl
  rw [checkBlockwiseTransferPut, option]
  simp only [decide_eq_true several, reduceCtorEq, false_and, if_false, block.url, absent, zero,
    ne_eq, not_true_eq_false, or_self, block.size rfl, size]
  exact acceptPutBlock_more rfl copied now 1024

/-- The blocks behind it go to the node. -/
theorem checkBlockwiseTransferPut_later {index : Nat}
    (block : PutBlock payload url (index + 1) request)
    (inside : index + 1 ≤ lastBlock payload) (small : payload.length < 65536) {lastAccess : UInt32}
    (found : findBlock source url false store = some (uploadNode payload url lastAccess index,
      rest)) (now : UInt32) (response : Packet) :
    checkBlockwiseTransferPut now source request response store =
      if index + 1 < lastBlock payload then
        some (.uncompleted, continued (index + 1) response,
          addBlock source (uploadNode payload url now (index + 1)) rest)
        else some (.completed payload,
          coapSetHeaderBlock1 (UInt32.ofNat (index + 1)) false 1024 response, rest) := by
  obtain ⟨offset, option⟩ := block.block
  have whole : 1024 * (index + 1) ≤ payload.length := by
    rw [lastBlock] at inside
    omega
  have number : UInt32.ofNat (index + 1) = UInt32.ofNat index + 1 := UInt32.ofNat_add _ _
  have notFirst : UInt32.ofNat (index + 1) ≠ 0 := by
    intro zero
    have value := congrArg UInt32.toNat zero
    rw [UInt32.toNat_ofNat_of_lt' (by change index + 1 < 4294967296; omega)] at value
    cases value
  have bytes : request.payload.length = min 1024 (payload.length - 1024 * (index + 1)) := by
    rw [block.bytes, chunkAt_length]
  have copied : copyInto (uploadNode payload url lastAccess index).buffer (1024 * (index + 1) : Nat)
      request.payload = some (filled payload (index + 1 + 1)) := by
    rw [block.bytes]
    exact copyInto_filled whole
  have fits : ¬ ((1024 * (index + 1) : Nat) + (request.payload.length : Int) >
      (uploadNode payload url lastAccess index).bufferSize.toInt) := by
    rw [uploadNode, toInt_ofNat (by omega), bytes]
    omega
  have next : ¬ (UInt32.ofNat (index + 1) ≠ (uploadNode payload url lastAccess index).blockNum ∧
      UInt32.ofNat (index + 1) ≠ (uploadNode payload url lastAccess index).blockNum + 1) :=
    fun both => both.2 number
  have chunk : (if (1024 : UInt16) < 1024 then (1024 : UInt16) else 1024) = 1024 := rfl
  rw [checkBlockwiseTransferPut, option]
  simp only [notFirst, and_false, if_false, block.url, found, chunk]
  rw [if_neg next, blockOffset_ofNat (by omega), if_neg fits]
  by_cases more : index + 1 < lastBlock payload
  · rw [if_pos more, acceptPutBlock_more (decide_eq_true more) copied]
    rfl
  · have last : index + 1 = lastBlock payload := by omega
    have total : (((1024 * (index + 1) : Nat) : Int).toNat + request.payload.length) %
        65536 = payload.length := by
      rw [Int.toNat_natCast, bytes, last, lastBlock]
      omega
    rw [if_neg more, acceptPutBlock_last (decide_eq_false more) copied, total, last, filled_last,
      take_length]

/-- A later block of an upload the server does not have is refused. -/
theorem checkBlockwiseTransferPut_unknown {index : Nat}
    (block : PutBlock payload url index request) (later : index ≠ 0)
    (small : index < 2 ^ 32) (absent : findBlock source url false store = none) (now : UInt32)
    (response : Packet) : checkBlockwiseTransferPut now source request response store =
      some (.invalid, coapSetStatusCode badOption402 response, store) := by
  obtain ⟨offset, option⟩ := block.block
  have number : UInt32.ofNat index ≠ 0 := by
    intro zero
    have value := congrArg UInt32.toNat zero
    rw [UInt32.toNat_ofNat_of_lt' small] at value
    exact later value
  rw [checkBlockwiseTransferPut, option]
  simp only [number, and_false, if_false, block.url, absent, ne_eq, not_false_eq_true,
    true_or, if_true]

end Check

/-! ## Answering an upload -/

/-- A handler that accepts every upload. -/
def Accepts {E : Type} (handler : Handler E) : Prop :=
  ∀ request app, (handler request app).1.status = changed204 ∨
    (handler request app).1.status = created201

section Handle

variable {A E : Type} [DecidableEq A] {request response : Packet} {server : ServerContext A E}
  {store : BlockStore A} {source : A} {handler : Handler E} {payload : List UInt8} {now : UInt32}

theorem Accepts.status (accepts : Accepts handler) (request : Packet) (app : E) :
    (handler request app).1.status ≠ notImplemented501 ∧
      (handler request app).1.status ≠ manualResponse ∧ (handler request app).1.status ≠ 0 := by
  rcases accepts request app with status | status <;> rw [status] <;> decide

theorem coapRequestHandler_put (confirmable : Confirmable request) (put : request.code = coapPut) :
    coapRequestHandler now source request server =
      (checkBlockwiseTransferPut now source request (acknowledgement request) server.blockwise).bind
        fun (check, response, store) =>
          match check with
          | .notBlockwise => serveRequest now source request response (server.withStore store)
          | .completed payload =>
            serveRequest now source { request with payload := payload } response
              (server.withStore store)
          | _ => (server.withStore store).send source response := by
  have notGet : request.code ≠ coapGet := by
    rw [put]
    decide
  rw [coapRequestHandler, prepareResponse_con confirmable.con confirmable.token]
  simp only [if_neg notGet, if_pos (.inr put : request.code = coapPost ∨ request.code = coapPut)]
  rfl

/-- A block of an upload the server does not have is answered without the handler. -/
theorem coapRequestHandler_unknown (confirmable : Confirmable request)
    (put : request.code = coapPut) (check :
      checkBlockwiseTransferPut now source request (acknowledgement request) server.blockwise =
      some (.invalid, coapSetStatusCode badOption402 (acknowledgement request), store)) :
    coapRequestHandler now source request server = some ((server.withStore store).sent source
      (coapSetStatusCode badOption402 (acknowledgement request))) := by
  rw [coapRequestHandler_put confirmable put, check, bind_some]
  exact ServerContext.send_answer ((answer_acknowledgement request).setStatusCode _)
    (by decide : badOption402 ≠ 0) source

/-- A block that is not the last is answered with `2.31`. -/
theorem coapRequestHandler_continues (confirmable : Confirmable request)
    (put : request.code = coapPut) {index : Nat} (small : index < 65536)
    (check : checkBlockwiseTransferPut now source request (acknowledgement request)
      server.blockwise = some (.uncompleted, continued index (acknowledgement request), store)) :
    coapRequestHandler now source request server =
      some ((server.withStore store).sent source (continued index (acknowledgement request))) := by
  rw [coapRequestHandler_put confirmable put, check, bind_some]
  refine ServerContext.send_answer ?_ (by decide : continue231 ≠ 0) source
  refine ((answer_acknowledgement request).setBlock1 ?_ true).setStatusCode _
  rw [UInt32.toNat_ofNat_of_lt' (Nat.lt_trans small (by decide))]
  omega

/-- The last block is answered by the handler, which gets the payload. -/
theorem coapRequestHandler_completes (confirmable : Confirmable request)
    (put : request.code = coapPut)
    (serves : Serves server request handler) (accepts : Accepts handler) (answer : Answer response)
    (check : checkBlockwiseTransferPut now source request
      (acknowledgement request) server.blockwise = some (.completed payload, response, store)) :
    coapRequestHandler now source request server = some
      (((server.withStore store).called { request with payload := payload } handler).sent source
        (answerOf (handler { request with payload := payload } server.app).1 response)) := by
  obtain ⟨implemented, responds, status⟩ :=
    accepts.status { request with payload := payload } server.app
  have notGet : request.code ≠ coapGet := by
    rw [put]
    decide
  have still : Serves (server.withStore store) { request with payload := payload } handler :=
    ⟨serves.some_path, serves.short, serves.found⟩
  rw [coapRequestHandler_put confirmable put, check, bind_some]
  exact serveRequest_put still notGet answer implemented responds status now source

/-- A request without blocks is answered by the handler. -/
theorem coapRequestHandler_plain (confirmable : Confirmable request) (put : request.code = coapPut)
    (serves : Serves server request handler) (accepts : Accepts handler)
    (plain : coapGetHeaderBlock1 request = none) :
    coapRequestHandler now source request server =
      some ((server.called request handler).sent source
        (answerOf (handler request server.app).1 (acknowledgement request))) := by
  obtain ⟨implemented, responds, status⟩ := accepts.status request server.app
  have notGet : request.code ≠ coapGet := by
    rw [put]
    decide
  have unchanged : server.withStore server.blockwise = server := rfl
  rw [coapRequestHandler_put confirmable put, checkBlockwiseTransferPut, plain]
  simp only [bind_some, unchanged]
  exact serveRequest_put serves notGet (answer_acknowledgement request) implemented responds
    status now source

end Handle

end Idrm.Coap
