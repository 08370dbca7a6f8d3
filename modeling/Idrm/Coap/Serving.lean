import Idrm.Coap.Delivery
import Idrm.Coap.RequestHandler

/-!
# What a server does with one request

The store gives back what was put into it last, a prepared response is an
acknowledgement with the request's message id and token, and a handler that is found is
called once.
-/

namespace Idrm.Coap

open Idrm.Lib List

/-! ## Blocks -/

/-- A block of a payload. -/
def chunkAt (payload : List UInt8) (index : Nat) : List UInt8 :=
  (payload.drop (1024 * index)).take 1024

theorem chunkAt_length (payload : List UInt8) (index : Nat) :
    (chunkAt payload index).length = min 1024 (payload.length - 1024 * index) := by
  rw [chunkAt, length_take, length_drop]

theorem chunkAt_take (payload : List UInt8) (index : Nat) :
    (chunkAt payload index).take restMaxChunkSize = chunkAt payload index := by
  rw [take_of_length_le]
  rw [chunkAt_length]
  exact Nat.min_le_left _ _

theorem take_chunkAt (payload : List UInt8) (index : Nat) :
    payload.take (1024 * index) ++ chunkAt payload index = payload.take (1024 * (index + 1)) := by
  rw [chunkAt, Nat.mul_add, take_add]

theorem toInt_ofNat {size : Nat} (small : size < 2 ^ 31) :
    (UInt32.ofNat size).toInt32.toInt = size := by
  change (BitVec.ofNat 32 size).toInt = size
  rw [BitVec.toInt_ofNat']
  exact Int.bmod_eq_of_le (by omega) (by omega)

/-! ## The store -/

section Store

variable {A : Type} [DecidableEq A] {source : A} {url : CString} {isGet : Bool} {node : BlockNode}

/-- A store in which a peer is known, if only without nodes. -/
def withPeer (source : A) (store : BlockStore A) : BlockStore A :=
  if store.any fun entry => entry.1 = source then store else (source, []) :: store

variable {store : BlockStore A}

theorem pushNode_none (unknown : store.any (fun entry => entry.1 = source) = false) :
    pushNode source node store = none := by
  induction store with
  | nil => rfl
  | cons entry rest ih =>
    rw [any_cons, Bool.or_eq_false_iff, decide_eq_false_iff_not] at unknown
    rw [pushNode, if_neg (Ne.symm unknown.1), ih unknown.2, Option.map_none]

/-- A node put to a known peer is found first, and the store is what it was without it. -/
theorem pushNode_known (known : store.any (fun entry => entry.1 = source) = true)
    (sameUrl : node.url = url) (sameKind : node.isGet = isGet) :
    ∃ pushed, pushNode source node store = some pushed ∧
      findBlock source url isGet pushed = some (node, store) := by
  induction store with
  | nil => cases known
  | cons entry rest ih =>
    obtain ⟨peer, nodes⟩ := entry
    rw [pushNode]
    by_cases same : source = peer
    · refine ⟨_, if_pos same, ?_⟩
      rw [findBlock, if_pos same, takeNode, if_pos ⟨sameKind.symm, sameUrl⟩]
    · rw [any_cons, decide_eq_false (Ne.symm same), Bool.false_or] at known
      obtain ⟨pushed, pushes, finds⟩ := ih known
      rw [if_neg same, pushes]
      refine ⟨_, rfl, ?_⟩
      rw [findBlock, if_neg same, finds]
      rfl

/-- The node added last is found, and what is left is the store it was added to. -/
theorem findBlock_addBlock (store : BlockStore A) (sameUrl : node.url = url)
    (sameKind : node.isGet = isGet) : findBlock source url isGet (addBlock source node store) =
      some (node, withPeer source store) := by
  unfold addBlock withPeer
  split
  · rename_i known
    obtain ⟨pushed, pushes, finds⟩ := pushNode_known known sameUrl sameKind
    rw [pushes, Option.getD_some, finds]
  · rename_i unknown
    rw [pushNode_none (Bool.eq_false_of_not_eq_true unknown), Option.getD_none, findBlock,
      if_pos rfl, takeNode, if_pos ⟨sameKind.symm, sameUrl⟩]

/-- Where a peer has no node for a url, it has none after it is known. -/
theorem findBlock_withPeer (absent : findBlock source url isGet store = none) :
    findBlock source url isGet (withPeer source store) = none := by
  unfold withPeer
  split
  · exact absent
  · rw [findBlock, if_pos rfl, takeNode, absent]
    rfl

theorem addBlock_withPeer (store : BlockStore A) :
    addBlock source node (withPeer source store) = addBlock source node store := by
  unfold withPeer
  split
  · rfl
  · rename_i unknown
    have empty : pushNode source node ((source, []) :: store) = some ((source, [node]) :: store) :=
      if_pos rfl
    rw [addBlock, addBlock, pushNode_none (Bool.eq_false_of_not_eq_true unknown), empty]
    rfl

end Store

/-! ## Responses -/

/-- A request to which a server answers with an acknowledgement. -/
structure Confirmable (request : Packet) : Prop where
  con : request.type = .con
  token : request.token.bytes.length ≠ 0

section Respond

variable {A E : Type} {request response : Packet} {server : ServerContext A E}

/-- What a response to a confirmable request starts from. -/
def acknowledgement (request : Packet) : Packet :=
  { coapInitMessage .ack content205 request.mid with token := request.token }

theorem answer_acknowledgement (request : Packet) : Answer (acknowledgement request) :=
  answer_init .ack content205 request.mid request.token

theorem prepareResponse_con (con : request.type = .con) (token : request.token.bytes.length ≠ 0) :
    prepareResponse request server = (acknowledgement request, server) := by
  rw [prepareResponse, if_pos con]
  simp only [if_pos token, coapSetToken, ShortBytes.copy_bytes]
  rfl

theorem prepareResponse_server (request : Packet) (server : ServerContext A E) :
    ∃ mid, (prepareResponse request server).2 = { server with currentMid := mid } := by
  rw [prepareResponse]
  by_cases con : request.type = .con
  · rw [if_pos con]
    exact ⟨server.currentMid, rfl⟩
  · rw [if_neg con]
    exact ⟨server.currentMid + 1, rfl⟩

/-- A prepared response has a token at most. -/
theorem prepareResponse_form (request : Packet) (server : ServerContext A E) :
    ∃ type mid token, (prepareResponse request server).1 =
      { coapInitMessage type content205 mid with token := token } := by
  rw [prepareResponse]
  by_cases con : request.type = .con
  · rw [if_pos con]
    simp only
    split
    · exact ⟨.ack, request.mid, _, rfl⟩
    · exact ⟨.ack, request.mid, _, rfl⟩
  · rw [if_neg con]
    simp only
    split
    · exact ⟨.non, server.currentMid + 1, _, rfl⟩
    · exact ⟨.non, server.currentMid + 1, _, rfl⟩

/-- A server with its store changed. -/
def ServerContext.withStore (store : BlockStore A) (server : ServerContext A E) :
    ServerContext A E :=
  { server with blockwise := store }

/-- A server that has sent a datagram. -/
def ServerContext.sent (source : A) (message : Packet) (server : ServerContext A E) :
    ServerContext A E :=
  { server with txData := server.txData ++ [(source, udpMessage message)] }

theorem ServerContext.send_answer (answer : Answer response) (code : response.code ≠ 0)
    (source : A) : server.send source response = some (server.sent source response) := by
  have filled : (udpMessage response).length > 0 := by
    rw [udpMessage_length]
    omega
  rw [ServerContext.send, answer.serialized code, Option.map_some, if_pos filled]
  rfl

theorem ServerContext.sent_delivered {server : ServerContext A E}
    (idle : server.txData = []) (source : A)
    (message : Packet) : { server.sent source message with txData := [] } = server := by
  cases server
  cases idle
  rfl

/-! ## Handlers -/

/-- A request that reaches a handler of a server. -/
structure Serves (server : ServerContext A E) (request : Packet) (handler : Handler E) : Prop where
  some_path : coapGetHeaderUriPath request ≠ []
  short : (coapGetHeaderUriPath request).length < 256
  found : findHandler (.ofBytes (coapGetHeaderUriPath request)) request.code
    server.resources = some handler

theorem Serves.fullUrl {handler : Handler E} (serves : Serves server request handler) :
    ∃ url, coapGetFullUrlAlloc request = some url := by
  have filled := length_pos_iff.mpr serves.some_path
  rw [coapGetFullUrlAlloc]
  simp only [if_neg (Nat.pos_iff_ne_zero.mp filled)]
  split
  · exact ⟨_, rfl⟩
  · exact ⟨_, rfl⟩

/-- A server behind the call of a handler. -/
def ServerContext.called (request : Packet) (handler : Handler E) (server : ServerContext A E) :
    ServerContext A E :=
  { server with
    app := (handler request server.app).2
    handled := server.handled ++ [request] }

/-- The response of a handler. -/
def answerOf (result : HandlerResult) (response : Packet) : Packet :=
  coapSetStatusCode result.status (applyResult result response)

theorem Answer.applyResult (answer : Answer response) (result : HandlerResult) :
    Answer (applyResult result response) := by
  unfold Idrm.Coap.applyResult
  cases result.contentFormat with
  | none => exact answer.setPayload result.payload
  | some format => exact (answer.setPayload result.payload).setContentFormat format

theorem Answer.answerOf (answer : Answer response) (result : HandlerResult) :
    Answer (answerOf result response) :=
  (answer.applyResult result).setStatusCode result.status

/-- What a response has of a handler's result. -/
structure ResultOf (result : HandlerResult) (response : Packet) : Prop where
  code : response.code = result.status
  payload : response.payload = result.payload.take restMaxChunkSize
  contentFormat : (if response.isOption .contentFormat then some response.contentFormat else none) =
    result.contentFormat

/-- What a response keeps of what it was made from. -/
structure SameExchange (response answer : Packet) : Prop where
  type : answer.type = response.type
  mid : answer.mid = response.mid
  token : answer.token = response.token
  block1 : coapGetHeaderBlock1 answer = coapGetHeaderBlock1 response
  block2 : coapGetHeaderBlock2 answer = coapGetHeaderBlock2 response

theorem getBlock1_setContentFormat (format : UInt32) (packet : Packet) : coapGetHeaderBlock1
      (coapSetHeaderContentFormat format packet) = coapGetHeaderBlock1 packet := by
  have present :
      (coapSetHeaderContentFormat format packet).isOption .block1 = packet.isOption .block1 :=
    isOption_setOption .contentFormat .block1 _
  simp only [coapGetHeaderBlock1, present]
  rfl

theorem getBlock2_setContentFormat (format : UInt32) (packet : Packet) : coapGetHeaderBlock2
      (coapSetHeaderContentFormat format packet) = coapGetHeaderBlock2 packet := by
  have present :
      (coapSetHeaderContentFormat format packet).isOption .block2 = packet.isOption .block2 :=
    isOption_setOption .contentFormat .block2 _
  simp only [coapGetHeaderBlock2, present]
  rfl

theorem answerOf_same (result : HandlerResult) (response : Packet) :
    SameExchange response (answerOf result response) := by
  unfold answerOf Idrm.Coap.applyResult
  cases result.contentFormat with
  | none => exact ⟨rfl, rfl, rfl, rfl, rfl⟩
  | some format =>
    exact ⟨rfl, rfl, rfl, getBlock1_setContentFormat format _, getBlock2_setContentFormat format _⟩

theorem resultOf_answerOf (result : HandlerResult)
    (fresh : response.isOption .contentFormat = false) :
    ResultOf result (answerOf result response) := by
  unfold answerOf Idrm.Coap.applyResult
  cases format : result.contentFormat with
  | none =>
    refine ⟨rfl, rfl, ?_⟩
    rw [format]
    exact if_neg (Bool.eq_false_iff.mp fresh)
  | some value =>
    refine ⟨rfl, rfl, ?_⟩
    rw [format]
    exact if_pos (isOption_setOption .contentFormat .contentFormat _)

theorem ResultOf.arrives {result : HandlerResult} {sent packet : Packet}
    (resultOf : ResultOf result sent) (arrives : Arrives sent packet) : ResultOf result packet where
  code := arrives.code.trans resultOf.code
  payload := arrives.payload.trans resultOf.payload
  contentFormat := by
    rw [← resultOf.contentFormat, arrives.isOption]
    split
    · rw [arrives.options.contentFormat ‹_›]
    · rfl

variable {handler : Handler E}

theorem coapHandleRequestInternal_serves (serves : Serves server request handler) :
    coapHandleRequestInternal request response server =
      ((handler request server.app).1.status, applyResult (handler request server.app).1 response,
        if takesOutPayload request.code then (handler request server.app).1.outPayload else [],
        server.called request handler) := by
  have path := serves.short
  have filled := length_pos_iff.mpr serves.some_path
  rw [coapHandleRequestInternal]
  simp only [serves.found]
  rw [if_neg (by omega)]
  rfl

/-- Everything but a `GET` is answered with what the handler sets. -/
theorem serveRequest_put [DecidableEq A] (serves : Serves server request handler)
    (code : request.code ≠ coapGet) (answer : Answer response)
    (implemented : (handler request server.app).1.status ≠ notImplemented501)
    (responds : (handler request server.app).1.status ≠ manualResponse)
    (filled : (handler request server.app).1.status ≠ 0) (now : UInt32) (source : A) :
    serveRequest now source request response server = some ((server.called request handler).sent
      source (answerOf (handler request server.app).1 response)) := by
  rw [serveRequest, coapHandleRequestInternal_serves serves]
  simp only [if_neg implemented, if_neg responds, if_neg code]
  rw [if_pos implemented]
  exact ServerContext.send_answer (answer.answerOf _) filled source

end Respond

end Idrm.Coap
