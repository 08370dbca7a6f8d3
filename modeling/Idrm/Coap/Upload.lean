import Idrm.Coap.UploadClient

/-!
# Uploads from end to end

A client that puts a payload and a server whose handler accepts it: whatever its length,
the handler is called once with the whole payload, and the client's callback once with
the handler's response. A payload of more than a block goes out block by block; when it
ends with a whole block, an empty one follows.
-/

namespace Idrm.Coap

open Idrm.Lib List

section Upload

variable {A U E : Type} [DecidableEq A]

/-- What an upload comes to: the handler and the user's callback were called once, and
neither side holds anything of it. A server keeps at most the peer's empty entry. -/
structure Uploaded (network : Network A U) (base : Link A U E) (request : Packet) (callback : U)
    (handler : Handler E) (link : Link A U E) : Prop where
  delivered : link.client.txData = [] ∧ link.server.txData = []
  transactions : link.client.transactions = base.client.transactions
  requests : link.client.ongoingRequests = base.client.ongoingRequests
  states : link.client.env.states = base.client.env.states
  store : link.server.blockwise = base.server.blockwise ∨
    link.server.blockwise = withPeer network.clientAddr base.server.blockwise
  called : ∃ served response,
    link.server.handled = base.server.handled ++ [served] ∧ served.payload = request.payload ∧
    served.code = request.code ∧ coapGetHeaderUriPath served = coapGetHeaderUriPath request ∧
    link.server.app = (handler served base.server.app).2 ∧
    link.client.env.called = base.client.env.called ++ [(callback, some response)] ∧
    ResultOf (handler served base.server.app).1 response

/-- A server to which an upload is new, and whose handler accepts it. -/
structure ReadyServer (server : ServerContext A E) (source : A) (request : Packet)
    (handler : Handler E) : Prop where
  serves : Serves server request handler
  accepts : Accepts handler
  absent : ∀ url, coapGetFullUrlAlloc request = some url →
    findBlock source url false server.blockwise = none

/-- What a server holds of an upload before a block arrives. -/
def StoredBlocks (source : A) (base : BlockStore A) (payload : List UInt8) (url : CString) :
    Nat → BlockStore A → Prop
  | 0, store => store = base
  | index + 1, store => ∃ lastAccess,
      store = addBlock source (uploadNode payload url lastAccess index) base

section Server

variable {source : A} {base store : BlockStore A} {payload : List UInt8}
  {url : CString} {index : Nat}
  {request : Packet}

/-- A block that is not the last is kept. -/
theorem StoredBlocks.continues (stored : StoredBlocks source base payload url index store)
    (block : PutBlock payload url index request) (inside : index < lastBlock payload)
    (small : payload.length < 65536)
    (absent : findBlock source url false base = none) (now : UInt32)
    (response : Packet) : ∃ next, StoredBlocks source base payload url (index + 1) next ∧
    checkBlockwiseTransferPut now source request response store =
      some (.uncompleted, continued index response, next) := by
  cases index with
  | zero =>
    have same : store = base := stored
    refine ⟨_, ⟨now, rfl⟩, ?_⟩
    rw [same, checkBlockwiseTransferPut_first block inside absent now response small]
  | succ before =>
    obtain ⟨lastAccess, same⟩ := stored
    refine ⟨_, ⟨now, rfl⟩, ?_⟩
    rw [same, checkBlockwiseTransferPut_later block (Nat.le_of_lt inside) small
      (findBlock_addBlock base rfl rfl) now response, if_pos inside, addBlock_withPeer]

/-- The last block completes the payload and empties the store of it. -/
theorem StoredBlocks.completes
      (stored : StoredBlocks source base payload url (lastBlock payload) store)
    (block : PutBlock payload url (lastBlock payload) request) (several : 0 < lastBlock payload)
    (small : payload.length < 65536) (now : UInt32) (response : Packet) :
    checkBlockwiseTransferPut now source request response store = some (.completed payload,
      coapSetHeaderBlock1 (UInt32.ofNat (lastBlock payload)) false 1024 response,
      withPeer source base) := by
  obtain ⟨before, last⟩ := Nat.exists_eq_succ_of_ne_zero (Nat.pos_iff_ne_zero.mp several)
  rw [last] at stored block
  obtain ⟨lastAccess, same⟩ := stored
  rw [same, checkBlockwiseTransferPut_later block (Nat.le_of_eq last.symm) small
    (findBlock_addBlock base rfl rfl) now response, if_neg (by omega), last]

end Server

section Rounds

variable {network : Network A U} {base link : Link A U E} {request : Packet} {callback : U}
  {handler : Handler E}
  {url : CString} {index : Nat}

/-- The block of a long upload that is on its way to the server. -/
def UploadRound (network : Network A U) (base : Link A U E) (request : Packet) (callback : U)
    (url : CString) (index : Nat) (link : Link A U E) : Prop :=
  ∃ store, StoredBlocks network.clientAddr base.server.blockwise request.payload url index store ∧
    link = ⟨launched network.serverAddr (uploadBlock base.client request index)
    (.put base.client.nextPtr) (uploadReady base.client request callback index),
    base.server.withStore store⟩

/-- The server keeps a block that is not the last, and acknowledges it. -/
theorem StoredBlocks.keeps {store : BlockStore A} {packet : Packet}
    (stored : StoredBlocks network.clientAddr base.server.blockwise request.payload url index store)
    (uploadable : Uploadable request) (long : restMaxChunkSize < request.payload.length)
    (server : ReadyServer base.server network.clientAddr request handler)
    (full : coapGetFullUrlAlloc request = some url)
    (inside : index < lastBlock request.payload) (now : UInt32)
    (arrives : Arrives (uploadBlock base.client request index) packet) : ∃ next,
    StoredBlocks network.clientAddr base.server.blockwise request.payload url (index + 1) next ∧
    coapRequestHandler now network.clientAddr packet (base.server.withStore store) =
      some ((base.server.withStore next).sent network.clientAddr
      (continued index (acknowledgement packet))) := by
  obtain ⟨number, bound⟩ := index_small uploadable.length (Nat.le_of_lt inside)
  obtain ⟨confirmable, put, mid, -, isBlock⟩ :=
    uploadBlock_arrives uploadable long (Nat.le_of_lt inside) arrives
  obtain ⟨next, storedNext, check⟩ := stored.continues (isBlock url full) inside uploadable.length
    (server.absent url full) now (acknowledgement packet)
  exact ⟨next, storedNext, coapRequestHandler_continues confirmable put (by omega) check⟩

/-- An acknowledgement of a block survives the wire, and is no request. -/
theorem continued_carried (small : index < 64) (packet : Packet) :
    Carried (continued index (acknowledgement packet)) ∧
    isRequest (continued index (acknowledgement packet)) = false := by
  have number : (UInt32.ofNat index).toNat < 2 ^ 20 := by
    rw [UInt32.toNat_ofNat_of_lt' (Nat.lt_trans small (by decide))]
    omega
  have answer : Answer (continued index (acknowledgement packet)) :=
    ((answer_acknowledgement packet).setBlock1 number true).setStatusCode _
  exact ⟨answer.carried (by decide : continue231 ≠ 0), rfl⟩

omit [DecidableEq A] in
/-- With the acknowledgement of a block the client goes on to the next one. -/
theorem continued_advances {packet response : Packet} (uploadable : Uploadable request)
    (long : restMaxChunkSize < request.payload.length)
    (client : ReadyClient base.client (lastBlock request.payload))
    (inside : index < lastBlock request.payload)
    (arrives : Arrives (uploadBlock base.client request index) packet)
    (back : Arrives (continued index (acknowledgement packet)) response) :
    coapHandleResponse (runRequestCallback network.stops) network.serverAddr response
      (uploadWaiting network.serverAddr base.client request callback index) =
      some (launched network.serverAddr (uploadBlock base.client request (index + 1))
        (.put base.client.nextPtr) (uploadReady base.client request callback (index + 1))) := by
  obtain ⟨number, bound⟩ := index_small uploadable.length (Nat.le_of_lt inside)
  have small : (UInt32.ofNat index).toNat < 2 ^ 20 := by omega
  have option : coapGetHeaderBlock1 (continued index (acknowledgement packet)) = _ :=
    getBlock1_setBlock1 small true (acknowledgement packet)
  obtain ⟨type, responseMid⟩ := continued_acknowledges small packet
  have answers : Answers (uploadBlock base.client request index) response :=
    ⟨(back.mid.trans responseMid).trans arrives.mid, back.type.trans type,
      fun zero => (by decide : continue231 ≠ 0) (back.code.symm.trans zero)⟩
  have backOption := back.block1
  rw [option, Option.map_some] at backOption
  exact upload_continues uploadable long client inside answers back.code backOption rfl rfl
    network.stops network.serverAddr

/-- The acknowledgement of a block of a long upload that is on its way to the client. -/
def UploadAcknowledged (network : Network A U) (base : Link A U E) (request : Packet) (callback : U)
    (url : CString) (index : Nat) (link : Link A U E) : Prop :=
  ∃ store packet, StoredBlocks network.clientAddr base.server.blockwise request.payload url
    (index + 1) store ∧ Arrives (uploadBlock base.client request index) packet ∧
    link = ⟨uploadWaiting network.serverAddr base.client request callback index,
    (base.server.withStore store).sent network.clientAddr
    (continued index (acknowledgement packet))⟩

/-- The server takes the block and acknowledges it. -/
theorem UploadRound.acknowledged (uploadable : Uploadable request)
    (long : restMaxChunkSize < request.payload.length)
    (server : ReadyServer base.server network.clientAddr request handler)
    (idle : base.server.txData = [])
    (full : coapGetFullUrlAlloc request = some url) (inside : index < lastBlock request.payload)
    (round : UploadRound network base request callback url index link) :
    Inevitably network.Step (UploadAcknowledged network base request callback url index) link := by
  obtain ⟨store, stored, rfl⟩ := round
  obtain ⟨block, carried, -⟩ :=
    @uploadBlock_message A U base.client request index uploadable long (Nat.le_of_lt inside)
  refine Network.server_next carried (uploadBlock_isRequest uploadable block) rfl idle
    fun now packet arrives => ?_
  obtain ⟨next, storedNext, handled⟩ := stored.keeps uploadable long server full inside now arrives
  exact ⟨_, handled, .here ⟨next, packet, storedNext, arrives, rfl⟩⟩

/-- The client takes the acknowledgement and sends the next block. -/
theorem UploadAcknowledged.advances (uploadable : Uploadable request)
    (long : restMaxChunkSize < request.payload.length)
    (client : ReadyClient base.client (lastBlock request.payload)) (idle : base.server.txData = [])
    (inside : index < lastBlock request.payload)
    (acknowledged : UploadAcknowledged network base request callback url index link) :
    Inevitably network.Step (UploadRound network base request callback url (index + 1)) link := by
  obtain ⟨store, packet, stored, arrives, rfl⟩ := acknowledged
  obtain ⟨-, bound⟩ := index_small uploadable.length (Nat.le_of_lt inside)
  obtain ⟨answer, noRequest⟩ := continued_carried bound packet
  refine Network.client_next answer noRequest ?_ rfl fun response back => ?_
  · exact congrArg (· ++ _) idle
  refine ⟨_, continued_advances uploadable long client inside arrives back,
    .here ⟨store, stored, ?_⟩⟩
  exact congrArg (Link.mk _)
    (@ServerContext.sent_delivered A E (base.server.withStore store) idle _ _)

/-- A round takes one block to the server and its acknowledgement back. -/
theorem UploadRound.advances (uploadable : Uploadable request)
    (long : restMaxChunkSize < request.payload.length)
    (client : ReadyClient base.client (lastBlock request.payload))
    (server : ReadyServer base.server network.clientAddr request handler)
    (idle : base.server.txData = [])
    (full : coapGetFullUrlAlloc request = some url) (inside : index < lastBlock request.payload)
    (round : UploadRound network base request callback url index link) :
    Inevitably network.Step (UploadRound network base request callback url (index + 1)) link :=
  (round.acknowledged uploadable long server idle full inside).trans fun _ acknowledged =>
    acknowledged.advances uploadable long client idle inside

/-- What an accepting handler answers is no request. -/
theorem Accepts.isRequest (accepts : Accepts handler) (served response : Packet) (app : E) :
    isRequest (answerOf (handler served app).1 response) = false := by
  have code : (answerOf (handler served app).1 response).code = (handler served app).1.status := rfl
  rw [Idrm.Coap.isRequest, code]
  rcases accepts served app with status | status <;> rw [status] <;> rfl

/-- What an answer to a packet is made from. -/
structure PreparedFor (packet prepared : Packet) : Prop where
  answer : Answer prepared
  fresh : prepared.isOption .contentFormat = false
  type : prepared.type = .ack
  mid : prepared.mid = packet.mid
  token : prepared.token = packet.token

theorem prepared_acknowledgement (packet : Packet) : PreparedFor packet (acknowledgement packet) :=
  ⟨answer_acknowledgement packet, rfl, rfl, rfl, rfl⟩

/-- What a server prepares for the last block. -/
def lastPrepared (payload : List UInt8) (packet : Packet) : Packet :=
  coapSetHeaderBlock1 (UInt32.ofNat (lastBlock payload)) false 1024 (acknowledgement packet)

theorem prepared_last {payload : List UInt8} (small : lastBlock payload < 64) (packet : Packet) :
    PreparedFor packet (lastPrepared payload packet) ∧
    coapGetHeaderBlock1 (lastPrepared payload packet) = some ⟨UInt32.ofNat (lastBlock payload),
      false, 1024, (acknowledgement packet).block1.offset⟩ := by
  have number : (UInt32.ofNat (lastBlock payload)).toNat < 2 ^ 20 := by
    rw [UInt32.toNat_ofNat_of_lt' (Nat.lt_trans small (by decide))]
    omega
  refine ⟨⟨(answer_acknowledgement packet).setBlock1 number false, ?_, ?_, ?_, ?_⟩,
    getBlock1_setBlock1 number false _⟩
  · rw [lastPrepared, isOption_setBlock1 number]
    rfl
  all_goals
    rw [lastPrepared, coapSetHeaderBlock1_chunk number]
    rfl

/-- The response of an accepting handler answers the message the packet came as. -/
theorem PreparedFor.answers {packet prepared message served response : Packet}
    {app : E} (prepares : PreparedFor packet prepared)
    (accepts : Accepts handler) (mid : packet.mid = message.mid)
    (back : Arrives (answerOf (handler served app).1 prepared) response) :
    Answers message response ∧ (response.code = changed204 ∨ response.code = created201) := by
  have same := answerOf_same (handler served app).1 prepared
  refine ⟨⟨?_, (back.type.trans same.type).trans prepares.type, ?_⟩, ?_⟩
  · rw [back.mid, same.mid, prepares.mid, mid]
  · rw [back.code]
    exact (accepts.status _ _).2.2
  · rw [back.code]
    exact accepts _ _

/-- The handler's response is on its way to a client that waits for it. -/
theorem answered_uploaded {waiting : ClientContext A U}
    {store : BlockStore A} {packet served prepared : Packet}
    (server : ReadyServer base.server network.clientAddr request handler)
    (idle : base.server.txData = []) (noneSent : waiting.txData = [])
    (prepares : PreparedFor packet prepared) (whole : served.payload = request.payload)
    (code : served.code = request.code)
    (path : coapGetHeaderUriPath served = coapGetHeaderUriPath request)
    (emptied : store = base.server.blockwise ∨
      store = withPeer network.clientAddr base.server.blockwise)
    (ends : ∀ response, Arrives (answerOf (handler served base.server.app).1 prepared) response →
      ∃ nextPtr mid, coapHandleResponse (runRequestCallback network.stops) network.serverAddr
      response waiting = some (uploadDone base.client callback nextPtr mid response)) :
    Inevitably network.Step (Uploaded network base request callback handler)
      ⟨waiting, ((base.server.withStore store).called served handler).sent network.clientAddr
      (answerOf (handler served base.server.app).1 prepared)⟩ := by
  obtain ⟨-, -, status⟩ := server.accepts.status served base.server.app
  refine Network.client_next ((prepares.answer.answerOf _).carried status)
    (server.accepts.isRequest _ _ _) ?_ noneSent fun response arrives => ?_
  · exact congrArg (· ++ _) idle
  obtain ⟨nextPtr, mid, handled⟩ := ends response arrives
  refine ⟨_, handled, .here ⟨⟨rfl, rfl⟩, rfl, rfl, rfl, emptied, served, response, rfl, whole, code,
    path, rfl, rfl, ?_⟩⟩
  exact (resultOf_answerOf _ prepares.fresh).arrives arrives

/-- The server answers the last block with what the handler makes of the whole payload. -/
theorem StoredBlocks.calls {store : BlockStore A} {packet : Packet}
    (stored : StoredBlocks network.clientAddr base.server.blockwise request.payload url
      (lastBlock request.payload) store)
    (uploadable : Uploadable request) (long : restMaxChunkSize < request.payload.length)
    (server : ReadyServer base.server network.clientAddr request handler)
    (full : coapGetFullUrlAlloc request = some url) (now : UInt32)
    (arrives : Arrives (uploadBlock base.client request (lastBlock request.payload)) packet) :
    coapRequestHandler now network.clientAddr packet (base.server.withStore store) =
      some (((base.server.withStore (withPeer network.clientAddr base.server.blockwise)).called
      { packet with payload := request.payload } handler).sent network.clientAddr
          (answerOf (handler { packet with payload := request.payload } base.server.app).1
            (lastPrepared request.payload packet))) := by
  obtain ⟨-, bound⟩ := index_small uploadable.length (Nat.le_refl (lastBlock request.payload))
  have several : 0 < lastBlock request.payload := by
    rw [restMaxChunkSize] at long
    rw [lastBlock]
    omega
  obtain ⟨confirmable, put, -, path, isBlock⟩ :=
    uploadBlock_arrives uploadable long (Nat.le_refl _) arrives
  have serves : Serves (base.server.withStore store) packet handler := by
    refine ⟨path ▸ server.serves.some_path, path ▸ server.serves.short, ?_⟩
    rw [path, put, ← uploadable.put]
    exact server.serves.found
  exact coapRequestHandler_completes confirmable put serves server.accepts
    (prepared_last bound packet).1.answer
    (stored.completes (isBlock url full) several uploadable.length now (acknowledgement packet))

omit [DecidableEq A] in
/-- With that answer the client's upload is over, whatever is still on its way. -/
theorem lastAnswer_completes {packet served response : Packet} {app : E}
    (uploadable : Uploadable request) (long : restMaxChunkSize < request.payload.length)
    (client : ReadyClient base.client (lastBlock request.payload)) (accepts : Accepts handler)
    (arrives : Arrives (uploadBlock base.client request (lastBlock request.payload)) packet) (back :
      Arrives (answerOf (handler served app).1 (lastPrepared request.payload packet)) response)
    (sent : List (A × List UInt8)) :
    coapHandleResponse (runRequestCallback network.stops) network.serverAddr response
      ((uploadWaiting network.serverAddr base.client request callback
      (lastBlock request.payload)).withSent sent) =
      some ((uploadDone base.client callback
        (base.client.nextPtr + 1 + 2 * lastBlock request.payload + 2)
        (transferMid base.client (lastBlock request.payload)) response).withSent sent) := by
  obtain ⟨-, bound⟩ := index_small uploadable.length (Nat.le_refl (lastBlock request.payload))
  obtain ⟨prepares, block⟩ := prepared_last bound packet
  obtain ⟨answers, code⟩ := prepares.answers accepts arrives.mid back
  have option := back.block1
  rw [(answerOf_same _ _).block1, block, Option.map_some] at option
  exact upload_completes_sent uploadable long client answers code option rfl network.stops
    network.serverAddr sent

/-- The last round takes the last block to the server and the handler's response back. -/
theorem UploadRound.completes (uploadable : Uploadable request)
    (long : restMaxChunkSize < request.payload.length)
    (client : ReadyClient base.client (lastBlock request.payload))
    (server : ReadyServer base.server network.clientAddr request handler)
    (idle : base.server.txData = []) (full : coapGetFullUrlAlloc request = some url)
    (round : UploadRound network base request callback url (lastBlock request.payload) link) :
    Inevitably network.Step (Uploaded network base request callback handler) link := by
  obtain ⟨store, stored, rfl⟩ := round
  obtain ⟨block, carried, -⟩ :=
    @uploadBlock_message A U base.client request _ uploadable long (Nat.le_refl _)
  obtain ⟨-, bound⟩ := index_small uploadable.length (Nat.le_refl (lastBlock request.payload))
  refine Network.server_next carried (uploadBlock_isRequest uploadable block) rfl idle
    fun now packet arrives => ?_
  obtain ⟨-, put, -, path, -⟩ := uploadBlock_arrives uploadable long (Nat.le_refl _) arrives
  refine ⟨_, stored.calls uploadable long server full now arrives, ?_⟩
  refine answered_uploaded server idle rfl (prepared_last bound packet).1 rfl
    (put.trans uploadable.put.symm) path (.inr rfl) fun response back => ?_
  exact ⟨_, _, lastAnswer_completes uploadable long client server.accepts arrives back []⟩

/-- The server answers the message of a short upload with what the handler makes of it. -/
theorem short_called {packet : Packet} (uploadable : Uploadable request)
    (server : ReadyServer base.server network.clientAddr request handler)
    (short : request.payload.length ≤ restMaxChunkSize)
    (now : UInt32) (arrives : Arrives (shortMessage base.client request) packet) :
    coapRequestHandler now network.clientAddr packet base.server =
      some ((base.server.called packet handler).sent network.clientAddr
      (answerOf (handler packet base.server.app).1 (acknowledgement packet))) := by
  obtain ⟨-, sendable⟩ := @shortMessage_carried A U base.client request uploadable short
  have confirmable : Confirmable packet :=
    ⟨arrives.type.trans sendable.con, by rw [arrives.token]; exact sendable.token⟩
  have put : packet.code = coapPut := arrives.code.trans uploadable.put
  have path : coapGetHeaderUriPath packet = coapGetHeaderUriPath request := arrives.uriPath
  have plain : coapGetHeaderBlock1 packet = none := by
    have absent : coapGetHeaderBlock1 (shortMessage base.client request) = none :=
      if_neg (Bool.eq_false_iff.mp uploadable.plain)
    rw [arrives.block1, absent, Option.map_none]
  have serves : Serves base.server packet handler := by
    refine ⟨path ▸ server.serves.some_path, path ▸ server.serves.short, ?_⟩
    rw [path, put, ← uploadable.put]
    exact server.serves.found
  exact coapRequestHandler_plain confirmable put serves server.accepts plain

omit [DecidableEq A] in
theorem shortMessage_isRequest (uploadable : Uploadable request) :
    isRequest (shortMessage base.client request) = true := by
  rw [isRequest, shortMessage, uploadable.put]
  rfl

omit [DecidableEq A] in
/-- With that answer the client's short upload is over. -/
theorem shortAnswer_completes {packet served response : Packet}
    {app : E} (uploadable : Uploadable request)
    {messages : Nat} (client : ReadyClient base.client messages) (accepts : Accepts handler)
    (arrives : Arrives (shortMessage base.client request) packet)
    (back : Arrives (answerOf (handler served app).1 (acknowledgement packet)) response)
    (sent : List (A × List UInt8)) :
    coapHandleResponse (runRequestCallback network.stops) network.serverAddr response
      ((waitingFor network.serverAddr (shortMessage base.client request) (.user (some callback))
      (shortReady base.client)).withSent sent) =
      some ((uploadDone base.client callback (base.client.nextPtr + 2)
        (transferMid base.client 0) response).withSent sent) := by
  obtain ⟨answers, -⟩ := (prepared_acknowledgement packet).answers accepts arrives.mid back
  exact short_completes_sent uploadable client answers network.stops network.serverAddr sent

/-- A short upload takes its message to the server and the handler's response back. -/
theorem short_uploaded (uploadable : Uploadable request)
    (short : request.payload.length ≤ restMaxChunkSize)
    {messages : Nat} (client : ReadyClient base.client messages)
    (server : ReadyServer base.server network.clientAddr request handler)
    (idle : base.server.txData = []) :
    Inevitably network.Step (Uploaded network base request callback handler)
      ⟨launched network.serverAddr (shortMessage base.client request) (.user (some callback))
      (shortReady base.client), base.server⟩ := by
  obtain ⟨carried, -⟩ := @shortMessage_carried A U base.client request uploadable short
  refine Network.server_next carried (shortMessage_isRequest uploadable) rfl idle
    fun now packet arrives => ?_
  refine ⟨_, short_called uploadable server short now arrives, ?_⟩
  refine @answered_uploaded A U E _ network base request callback handler _ base.server.blockwise
    packet packet _ server idle rfl (prepared_acknowledgement packet) arrives.payload
    (arrives.code.trans rfl) arrives.uriPath (.inl rfl) fun response back => ?_
  exact ⟨_, _, shortAnswer_completes uploadable client server.accepts arrives back []⟩

/-- Whatever its length, an upload comes to one call of the handler with its payload and
one call of the user's callback with the handler's response, and leaves nothing behind. -/
theorem coapNonblockingPut_uploaded (uploadable : Uploadable request)
    (client : ReadyClient base.client (lastBlock request.payload))
    (server : ReadyServer base.server network.clientAddr request handler)
    (idle : base.client.txData = [] ∧ base.server.txData = []) : ∃ started,
    coapNonblockingPut network.serverAddr request (some callback) base.client = some started ∧
    Inevitably network.Step (Uploaded network base request callback handler)
      ⟨started, base.server⟩ := by
  by_cases short : request.payload.length ≤ restMaxChunkSize
  · exact ⟨_, coapNonblockingPut_short uploadable short client idle.1,
      short_uploaded uploadable short client server idle.2⟩
  · have long : restMaxChunkSize < request.payload.length := by omega
    obtain ⟨url, full⟩ := server.serves.fullUrl
    refine ⟨_, coapNonblockingPut_long uploadable long client idle.1, ?_⟩
    have first : UploadRound network base request callback url 0
        ⟨launched network.serverAddr (uploadBlock base.client request 0) (.put base.client.nextPtr)
          (uploadReady base.client request callback 0), base.server⟩ := ⟨_, rfl, rfl⟩
    have last := Inevitably.rounds (fun index inside link round =>
      round.advances uploadable long client server idle.2 full inside) first
    exact last.trans fun link round => round.completes uploadable long client server idle.2 full

end Rounds

end Upload

/-! ## Two uploads -/

/-- A client at one address and a server at another. -/
def sampleNetwork : Network Bool Unit := ⟨false, true, fun _ => false⟩

/-- A handler that accepts every payload. -/
def sampleHandler : Handler Unit := fun _ _ => (⟨changed204, [], none, []⟩, ())

/-- A client and a server with one resource, before anything was sent. -/
def sampleLink : Link Bool Unit Unit where
  client := coapContextNew ⟨0, [], []⟩
  server :=
    { blockwise := []
      resources := [⟨.ofBytes [0x61], none, some sampleHandler, none, none⟩]
      requestHandler := none
      responseOnNotFound := false
      currentMid := 0
      app := ()
      handled := []
      txData := [] }

/-- A request for that resource, not confirmable, with a token. -/
def sampleUpload (payload : List UInt8) : Packet :=
  { coapInitMessage .non coapPut 0 with
    token := .copy [1], uriPath := [0x61], options := {11}, payload := payload }

theorem sampleUpload_expressible (payload : List UInt8) : Expressible (sampleUpload payload) := by
  have numbers : ∀ number ∈ ({11} : Finset Nat), number = 11 := by decide
  refine ⟨fun number member => ⟨.uriPath, (numbers number member).symm, rfl⟩, ?_, fun present => ?_,
    fun present => ?_⟩
  · exact cleanStrings_of (fun present => by cases present)
      (fun _ => (by decide : NoEmptySegment slash [0x61]))
      (fun present => by cases present) (fun present => by cases present)
  · cases present
  · cases present

theorem sampleLink_server (payload : List UInt8) : ReadyServer sampleLink.server
      sampleNetwork.clientAddr (sampleUpload payload) sampleHandler where
  serves := ⟨(by decide : ([0x61] : List UInt8) ≠ []),
    (by decide : ([0x61] : List UInt8).length < 256), rfl⟩
  accepts := fun _ _ => .inl rfl
  absent := fun _ _ => rfl

/-- A payload of exactly two blocks. -/
def twoBlocks : List UInt8 := List.replicate 2048 7

theorem sampleUpload_uploadable : Uploadable (sampleUpload twoBlocks) where
  put := rfl
  token := (by decide : ([1] : List UInt8).length ≠ 0)
  confirmable := fun short => absurd short (by decide +kernel)
  plain := rfl
  once := rfl
  expressible := sampleUpload_expressible _
  length := by decide +kernel
  header := by decide +kernel

theorem sampleLink_client (messages : Nat) : ReadyClient sampleLink.client messages where
  allocated := ⟨fun _ member => absurd member not_mem_nil,
    fun _ member => absurd member not_mem_nil⟩
  states := fun _ member => absurd member not_mem_nil
  retries := by decide
  mids := fun _ member => absurd member not_mem_nil

theorem coapNonblockingPut_twoBlocks : ∃ started, coapNonblockingPut sampleNetwork.serverAddr
      (sampleUpload twoBlocks) (some ()) sampleLink.client = some started ∧
      Inevitably sampleNetwork.Step
        (Uploaded sampleNetwork sampleLink (sampleUpload twoBlocks) () sampleHandler)
        ⟨started, sampleLink.server⟩ :=
  coapNonblockingPut_uploaded sampleUpload_uploadable (sampleLink_client _)
    (sampleLink_server _) ⟨rfl, rfl⟩

/-- A short request that is not confirmable is sent and not waited for: its callback is
never called. -/
theorem coapNonblockingPut_unconfirmed : ∃ started, coapNonblockingPut sampleNetwork.serverAddr
      (sampleUpload [7]) (some ()) sampleLink.client = some started ∧
      ¬ Inevitably sampleNetwork.Step
        (Uploaded sampleNetwork sampleLink (sampleUpload [7]) () sampleHandler)
        ⟨started, sampleLink.server⟩ := by
  have started : (coapNonblockingPut sampleNetwork.serverAddr (sampleUpload [7])
      (some ()) sampleLink.client).map (fun client => (client.transactions.length,
      client.ongoingRequests.length, client.env.called.length)) = some (0, 0, 0) := by
    decide +kernel
  obtain ⟨client, starts, nothing⟩ := Option.map_eq_some_iff.mp started
  simp only [Prod.mk.injEq, length_eq_zero_iff] at nothing
  obtain ⟨transactions, requests, called⟩ := nothing
  refine ⟨client, starts, fun inevitable => ?_⟩
  obtain ⟨final, runs, uploaded⟩ := inevitable.reached
  have waitless : Waitless client := ⟨transactions, requests⟩
  obtain ⟨-, env⟩ := Waitless.run waitless runs
  obtain ⟨served, response, -, -, -, -, -, once, -⟩ := uploaded.called
  rw [env, called] at once
  cases once

end Idrm.Coap
