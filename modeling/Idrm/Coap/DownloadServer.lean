import Idrm.Coap.Serving

/-!
# The server's side of a download

The first block of a representation comes from the handler and the others from the
store, where the representation is kept once it has more than a block. Both hand out the
same blocks and mark all but the last one as followed by more.
-/

namespace Idrm.Coap

open Idrm.Lib List
open Option hiding or_self

/-- The number of the last block of a representation; an empty one has a block too. -/
def lastChunk (representation : List UInt8) : Nat := (representation.length - 1) / 1024

/-- What a response tells about the blocks behind it. -/
def moreBlocks (response : Packet) : Bool := ((coapGetHeaderBlock2 response).getD .zero).more

/-! ## Blocks from the store -/

section Store

variable {A : Type} [DecidableEq A] {source : A} {url : CString} {isGet : Bool}
  {change : BlockNode → BlockNode}

theorem takeNode_modifyNode (keepsUrl : ∀ node, (change node).url = node.url)
    (keepsKind : ∀ node, (change node).isGet = node.isGet) {nodes rest : List BlockNode}
    {node : BlockNode} (taken : takeNode url isGet nodes = some (node, rest)) :
    ∃ changed, modifyNode url isGet change nodes = some changed ∧
    takeNode url isGet changed = some (change node, rest) := by
  induction nodes generalizing rest with
  | nil => cases taken
  | cons first others ih =>
    rw [takeNode] at taken
    rw [modifyNode]
    split at taken
    · rename_i here
      cases taken
      refine ⟨_, if_pos here, ?_⟩
      rw [takeNode, keepsUrl, keepsKind, if_pos here]
    · rename_i elsewhere
      obtain ⟨⟨found, left⟩, finds, same⟩ := map_eq_some_iff.mp taken
      cases same
      obtain ⟨changed, modifies, takes⟩ := ih finds
      rw [if_neg elsewhere, modifies]
      refine ⟨_, rfl, ?_⟩
      rw [takeNode, if_neg elsewhere, takes]
      rfl

theorem takeNode_none_modifyNode {nodes : List BlockNode}
    (absent : takeNode url isGet nodes = none) : modifyNode url isGet change nodes = none := by
  induction nodes with
  | nil => rfl
  | cons first others ih =>
    rw [takeNode] at absent
    split at absent
    · cases absent
    · rename_i elsewhere
      rw [modifyNode, if_neg elsewhere, ih (map_eq_none_iff.mp absent), map_none]

/-- The node that was changed is the one that is found. -/
theorem findBlock_modifyBlock (keepsUrl : ∀ node, (change node).url = node.url)
    (keepsKind : ∀ node, (change node).isGet = node.isGet) {store rest : BlockStore A}
    {node : BlockNode} (found : findBlock source url isGet store = some (node, rest)) : findBlock
      source url isGet (modifyBlock source url isGet change store) = some (change node, rest) := by
  induction store generalizing rest with
  | nil => cases found
  | cons entry others ih =>
    obtain ⟨peer, nodes⟩ := entry
    rw [findBlock] at found
    rw [modifyBlock]
    by_cases same : source = peer
    · rw [if_pos same] at found ⊢
      cases taken : takeNode url isGet nodes with
      | some pair =>
        rw [taken] at found
        cases found
        obtain ⟨changed, modifies, takes⟩ := takeNode_modifyNode keepsUrl keepsKind taken
        rw [modifies]
        simp only
        rw [findBlock, if_pos same, takes]
      | none =>
        rw [taken] at found
        obtain ⟨⟨here, left⟩, finds, equal⟩ := map_eq_some_iff.mp found
        cases equal
        rw [takeNode_none_modifyNode taken]
        simp only
        rw [findBlock, if_pos same, taken, ih finds]
        rfl
    · rw [if_neg same] at found ⊢
      obtain ⟨⟨here, left⟩, finds, equal⟩ := map_eq_some_iff.mp found
      cases equal
      simp only
      rw [findBlock, if_neg same, ih finds]
      rfl

/-- A representation a server keeps for a peer. -/
def Cached (source : A) (url : CString) (representation : List UInt8)
    (store : BlockStore A) : Prop :=
  ∃ node rest, findBlock source url true store = some (node, rest) ∧ node.buffer = representation ∧
    node.bufferSize.toInt = representation.length

/-- The response with a block from the store. -/
def cachedAnswer (representation : List UInt8) (index : Nat) (format : UInt32)
    (response : Packet) : Packet :=
  coapSetHeaderContentFormat format (coapSetStatusCode content205
    (coapSetPayload (chunkAt representation index) (coapSetHeaderBlock2 (UInt32.ofNat index)
    (decide (index < lastChunk representation)) 1024 response)))

theorem toUInt32_ofInt (count : Nat) : (Int32.ofInt count).toUInt32 = UInt32.ofNat count :=
  congrArg UInt32.ofBitVec (BitVec.ofInt_natCast 32 count)

/-- The number of blocks, as it is computed from the length. -/
theorem blockCount {length : Nat} (filled : 0 < length) :
    (if (length : Int).tmod (1024 : Nat) ≠ 0 then (length : Int).tdiv (1024 : Nat) + 1
      else (length : Int).tdiv (1024 : Nat)) = ((length - 1) / 1024 + 1 : Nat) := by
  rw [← Int.ofNat_tdiv, ← Int.ofNat_tmod]
  split <;> omega

theorem toUInt32_ofInt_pred (count : Nat) :
    (Int32.ofInt (count + 1 : Nat) - 1).toUInt32 = UInt32.ofNat count := by
  have split : (Int32.ofInt (count + 1 : Nat) - 1).toUInt32 =
    (Int32.ofInt (count + 1 : Nat)).toUInt32 - 1 := rfl
  rw [split, toUInt32_ofInt, UInt32.ofNat_add]
  exact UInt32.add_sub_cancel _ _

/-- The number of bytes in a block, as it is computed from the length. -/
theorem chunkBytes {representation : List UInt8} {index : Nat} (filled : 0 < representation.length)
    (inside : index ≤ lastChunk representation) :
    (if (representation.length : Int).tmod (1024 : Nat) ≠ 0 ∧ index = lastChunk representation
      then (representation.length : Int).tmod (1024 : Nat) else (1024 : Nat)).toNat =
        (chunkAt representation index).length := by
  rw [chunkAt_length, ← Int.ofNat_tmod]
  rw [lastChunk] at inside ⊢
  split <;> omega

/-- A block of a representation that is kept comes from the store. -/
theorem checkBlockwiseTransferGet_cached {representation : List UInt8}
    {store : BlockStore A} {request : Packet}
    {index : Nat} {offset : UInt32} (cached : Cached source url representation store)
    (full : coapGetFullUrlAlloc request = some url)
    (asks : coapGetHeaderBlock2 request = some ⟨UInt32.ofNat index, false, 1024, offset⟩)
    (inside : index ≤ lastChunk representation) (filled : 0 < representation.length)
    (small : lastChunk representation < 2 ^ 20) (now : UInt32) (response : Packet) :
    ∃ format next, Cached source url representation next ∧
    checkBlockwiseTransferGet now source request response store =
      some (.fromCache, cachedAnswer representation index format response, next) := by
  obtain ⟨node, rest, found, buffer, size⟩ := cached
  have asked : requestedBlock2 request = ⟨UInt32.ofNat index, false, 1024, offset⟩ := by
    rw [requestedBlock2, asks]
    rfl
  have chunk : ((1024 : UInt16).toNat : Int) = (1024 : Nat) := rfl
  have whole : (if (representation.length : Int).tmod (1024 : Nat) ≠ 0 then (representation.length :
      Int).tdiv (1024 : Nat) + 1 else (representation.length : Int).tdiv (1024 : Nat)) =
      (lastChunk representation + 1 : Nat) :=
    blockCount filled
  have number : (UInt32.ofNat index).toNat = index :=
    UInt32.toNat_ofNat_of_lt' (Nat.lt_of_le_of_lt inside (Nat.lt_trans small (by decide)))
  have lastNumber : (UInt32.ofNat (lastChunk representation)).toNat = lastChunk representation :=
    UInt32.toNat_ofNat_of_lt' (Nat.lt_trans small (by decide))
  have count : (UInt32.ofNat (lastChunk representation + 1)).toNat = lastChunk representation + 1 :=
    UInt32.toNat_ofNat_of_lt' (Nat.lt_of_le_of_lt small (by decide))
  have exists_block : ¬ UInt32.ofNat index ≥ UInt32.ofNat (lastChunk representation + 1) := by
    rw [ge_iff_le, UInt32.le_iff_toNat_le, number, count]
    omega
  have start : (UInt32.ofNat index * (1024 : UInt16).toUInt32).toNat = 1024 * index := by
    rw [UInt32.toNat_mul, number]
    change index * 1024 % 2 ^ 32 = 1024 * index
    omega
  have isLast :
      UInt32.ofNat index = (Int32.ofInt (lastChunk representation + 1 : Nat) - 1).toUInt32 ↔
      index = lastChunk representation := by
    rw [toUInt32_ofInt_pred, ← UInt32.toNat_inj, number, lastNumber]
  have more : decide (UInt32.ofNat index + 1 < UInt32.ofNat (lastChunk representation + 1)) =
      decide (index < lastChunk representation) := by
    have next : (UInt32.ofNat index + 1).toNat = index + 1 := by
      rw [UInt32.toNat_add, number]
      change (index + 1) % 2 ^ 32 = index + 1
      omega
    rw [decide_eq_decide, UInt32.lt_iff_toNat_lt, next, count]
    omega
  have bytes := chunkBytes filled inside
  have fits : 1024 * index + (chunkAt representation index).length ≤ node.buffer.length := by
    rw [chunkAt_length, buffer]
    rw [lastChunk] at inside
    omega
  have copied : (node.buffer.drop (1024 * index)).take (chunkAt representation index).length =
      chunkAt representation index := by
    rw [buffer, chunkAt, length_take, ← take_eq_take_min]
  rw [checkBlockwiseTransferGet, full]
  simp only [found, asked, chunk, size, whole, toUInt32_ofInt, if_neg exists_block, start, isLast,
    bytes, more, if_pos fits, copied]
  exact ⟨node.contentFmt.toUInt32, modifyBlock source url true
      (fun node => { node with lastAccess := now, blockNum := UInt32.ofNat index }) store,
    ⟨_, rest, findBlock_modifyBlock (by intro; rfl) (by intro; rfl) found, buffer, size⟩, rfl⟩

end Store

/-! ## Responses with a block -/

/-- A response with a block of a representation, made from another packet. -/
structure BlockAnswer (representation : List UInt8) (index : Nat)
    (response answer : Packet) : Prop where
  sendable : Answer answer
  type : answer.type = response.type
  mid : answer.mid = response.mid
  code : isRequest answer = false ∧ answer.code ≠ 0
  payload : answer.payload = chunkAt representation index
  num : ((coapGetHeaderBlock2 answer).getD .zero).num = UInt32.ofNat index
  more : moreBlocks answer = decide (index < lastChunk representation)

theorem getBlock2_setSize2 (size : UInt32) (packet : Packet) :
    coapGetHeaderBlock2 (coapSetHeaderSize2 size packet) = coapGetHeaderBlock2 packet := by
  have present : (coapSetHeaderSize2 size packet).isOption .block2 = packet.isOption .block2 :=
    isOption_setOption .size2 .block2 _
  simp only [coapGetHeaderBlock2, present]
  rfl

theorem blockAnswer_cached {representation : List UInt8} {index : Nat} {response : Packet}
    (answer : Answer response) (small : (UInt32.ofNat index).toNat < 2 ^ 20) (format : UInt32) :
    BlockAnswer representation index response
      (cachedAnswer representation index format response) := by
  have block : coapGetHeaderBlock2 (cachedAnswer representation index format response) =
      some ⟨UInt32.ofNat index, decide (index < lastChunk representation), 1024,
      response.block2.offset⟩ :=
    (getBlock2_setContentFormat format _).trans
      (getBlock2_setBlock2 small (decide (index < lastChunk representation)) response)
  refine ⟨(((answer.setBlock2 small _).setPayload _).setStatusCode _).setContentFormat format, ?_,
    ?_, ⟨rfl, ?_⟩, chunkAt_take representation index, ?_, ?_⟩
  · rw [cachedAnswer, coapSetHeaderBlock2_chunk small]
    rfl
  · rw [cachedAnswer, coapSetHeaderBlock2_chunk small]
    rfl
  · exact (by decide : content205 ≠ 0)
  · rw [block]
    rfl
  · rw [moreBlocks, block]
    rfl

/-! ## Blocks from the handler -/

/-- What a handler hands out: a representation of its own, or the payload it has set. -/
def HandlerResult.representation (result : HandlerResult) : List UInt8 :=
  if result.outPayload.length = 0 then result.payload.take restMaxChunkSize else result.outPayload

/-- A handler that answers every request with a representation of so many blocks. -/
structure Represents {E : Type} (handler : Handler E) (blocks : Nat) : Prop where
  implemented : ∀ request app, (handler request app).1.status ≠ notImplemented501
  responds : ∀ request app, (handler request app).1.status ≠ manualResponse
  response : ∀ request app, coapDelete < (handler request app).1.status
  blocks : ∀ request app, lastChunk (handler request app).1.representation ≤ blocks

section Handler

variable {A E : Type} [DecidableEq A] {source : A} {url : CString} {request response : Packet}
  {server : ServerContext A E} {result : HandlerResult}

theorem requestedBlock2_default (plain : coapGetHeaderBlock2 request = none) :
    requestedBlock2 request = ⟨0, false, 1024, 0⟩ := by
  rw [requestedBlock2, plain]

theorem toNat_ofNat_sub_zero {length : Nat} (small : length < 2 ^ 32) :
    (UInt32.ofNat length - 0).toNat = length := by
  rw [UInt32.sub_zero]
  exact UInt32.toNat_ofNat_of_lt' small

theorem toNat_min (one other : UInt32) : (min one other).toNat = min one.toNat other.toNat := by
  change (if one ≤ other then one else other).toNat = _
  split
  · rename_i below
    rw [Nat.min_eq_left (UInt32.le_iff_toNat_le.mp below)]
  · rename_i above
    rw [UInt32.le_iff_toNat_le] at above
    omega

/-- A representation of one block is sent and not kept. -/
theorem respondGet_single (plain : coapGetHeaderBlock2 request = none)
    (payload : response.payload = result.payload.take restMaxChunkSize)
    (single : lastChunk result.representation = 0) (now : UInt32) :
    respondGet now source request response result.outPayload server =
      server.send source (coapSetPayload result.representation response) := by
  have length : result.representation.length ≤ 1024 := by
    rw [lastChunk] at single
    omega
  have total :
      (UInt32.ofNat result.representation.length - 0).toNat = result.representation.length :=
    toNat_ofNat_sub_zero (by omega)
  have whole : ¬ UInt32.ofNat result.representation.length - 0 > (1024 : UInt16).toUInt32 := by
    rw [gt_iff_lt, UInt32.lt_iff_toNat_lt, total]
    change ¬ 1024 < result.representation.length
    omega
  have same : ∀ answer : Option (ServerContext A E), answer.map (fun server => server) = answer :=
    fun answer => map_id'
  rw [respondGet, requestedBlock2_default plain]
  by_cases own : result.outPayload.length = 0
  · have isPayload : result.representation = response.payload := by
      rw [HandlerResult.representation, if_pos own, payload]
    have unchanged : coapSetPayload result.representation response = response := by
      rw [coapSetPayload, isPayload, take_of_length_le (by rw [← isPayload]; exact length)]
    rw [unchanged]
    rw [isPayload] at whole
    simp only [own, if_true, whole, false_and, if_false, ne_eq, not_true_eq_false,
      Bool.false_eq_true, or_self, same]
  · have isOwn : result.representation = result.outPayload := by
      rw [HandlerResult.representation, if_neg own]
    rw [isOwn] at whole total length ⊢
    have count : (min (UInt32.ofNat result.outPayload.length - 0) (1024 : UInt16).toUInt32).toNat =
        result.outPayload.length := by
      rw [toNat_min, total]
      exact Nat.min_eq_left length
    simp only [own, if_false, whole, false_and, ne_eq, not_false_eq_true, if_true,
      Bool.false_eq_true, or_self,
      same, count, UInt32.toNat_zero, Nat.zero_add, Nat.le_refl, drop_zero, take_length]

/-- A representation of several blocks is kept, and its first block sent. -/
theorem respondGet_several (plain : coapGetHeaderBlock2 request = none)
    (full : coapGetFullUrlAlloc request = some url) (several : 0 < lastChunk result.representation)
    (small : lastChunk result.representation < 2 ^ 20)
    (absent : findBlock source url true server.blockwise = none) (now : UInt32) :
    ∃ store, Cached source url result.representation store ∧
    respondGet now source request response result.outPayload server =
      (server.send source (coapSetPayload (chunkAt result.representation 0) (coapSetHeaderSize2
      (UInt32.ofNat result.representation.length) (coapSetHeaderBlock2 0 true 1024 response)))).map
      fun server => { server with blockwise := store } := by
  have own : result.outPayload.length ≠ 0 := by
    intro empty
    rw [HandlerResult.representation, if_pos empty, lastChunk, length_take,
      restMaxChunkSize] at several
    omega
  have isOwn : result.representation = result.outPayload := by
    rw [HandlerResult.representation, if_neg own]
  rw [isOwn] at several small ⊢
  have bounds : 1024 < result.outPayload.length ∧ result.outPayload.length ≤ 2 ^ 30 := by
    rw [lastChunk] at several small
    omega
  have total : (UInt32.ofNat result.outPayload.length - 0).toNat = result.outPayload.length :=
    toNat_ofNat_sub_zero (by omega)
  have more : UInt32.ofNat result.outPayload.length - 0 > (1024 : UInt16).toUInt32 := by
    rw [gt_iff_lt, UInt32.lt_iff_toNat_lt, total]
    exact bounds.1
  have count :
      (min (UInt32.ofNat result.outPayload.length - 0) (1024 : UInt16).toUInt32).toNat = 1024 := by
    rw [toNat_min, total]
    exact Nat.min_eq_right (Nat.le_of_lt bounds.1)
  have size : (Int32.ofNat result.outPayload.length).toInt = result.outPayload.length :=
    toInt_ofNat (by omega)
  have inside : 0 + 1024 ≤ result.outPayload.length := by omega
  have keeps : ∀ {message : Packet} {sent : ServerContext A E},
      server.send source message = some sent → sent.blockwise = server.blockwise := by
    intro message sent sends
    obtain ⟨packet, -, rfl⟩ := map_eq_some_iff.mp sends
    split <;> rfl
  generalize answers : coapSetPayload (chunkAt result.outPayload 0) (coapSetHeaderSize2
    (UInt32.ofNat result.outPayload.length) (coapSetHeaderBlock2 0 true 1024 response)) = answer
  refine ⟨addBlock source ⟨url, result.outPayload, Int32.ofNat result.outPayload.length, 0,
    answer.contentFormat.toUInt16, now, true⟩ server.blockwise,
    ⟨_, _, findBlock_addBlock server.blockwise rfl rfl, rfl, size⟩, ?_⟩
  rw [respondGet, requestedBlock2_default plain]
  simp only [own, if_false, more, and_false, if_true, ne_eq, not_false_eq_true, count,
    UInt32.toNat_zero, if_pos inside, true_or, full]
  refine (congrArg (fun answer => Option.map _ (server.send source answer)) answers).trans ?_
  cases sends : server.send source answer with
  | none => rfl
  | some sent =>
    rw [map_some, map_some, setResBlockwise, keeps sends, absent]
    exact congrArg some (by rw [← answers]; rfl)

variable {handler : Handler E}

theorem Represents.code {blocks : Nat} (represents : Represents handler blocks) (served : Packet)
    (app : E) {answer : Packet} (code : answer.code = (handler served app).1.status) :
    isRequest answer = false ∧ answer.code ≠ 0 := by
  have above := represents.response served app
  rw [← code, UInt8.lt_iff_toNat_lt] at above
  refine ⟨?_, fun zero => ?_⟩
  · rw [isRequest, Bool.and_eq_false_iff]
    right
    rw [decide_eq_false_iff_not, UInt8.le_iff_toNat_le]
    omega
  · rw [zero] at above
    exact absurd above (by decide)

/-- A `GET` that is not answered from the store is answered with what the handler hands
out. -/
theorem serveRequest_get {blocks : Nat} (serves : Serves server request handler)
    (get : request.code = coapGet) (represents : Represents handler blocks) (now : UInt32) :
    serveRequest now source request response server =
      respondGet now source request (answerOf (handler request server.app).1 response)
        (handler request server.app).1.outPayload (server.called request handler) := by
  have implemented := represents.implemented request server.app
  have responds := represents.responds request server.app
  rw [serveRequest, coapHandleRequestInternal_serves serves]
  simp only [if_neg implemented, if_neg responds, if_pos get]
  rw [if_pos implemented, get]
  rfl

/-- The first request of a download calls the handler and gets the first block. -/
theorem coapRequestHandler_first {blocks : Nat} (confirmable : Confirmable request)
    (get : request.code = coapGet) (plain : coapGetHeaderBlock2 request = none)
    (full : coapGetFullUrlAlloc request = some url) (serves : Serves server request handler)
    (represents : Represents handler blocks) (small : blocks < 2 ^ 20)
    (absent : findBlock source url true server.blockwise = none) (now : UInt32) :
    ∃ answer store, coapRequestHandler now source request server =
        some (((server.called request handler).withStore store).sent source answer) ∧
      BlockAnswer (handler request server.app).1.representation 0 (acknowledgement request) answer ∧
      (0 < lastChunk (handler request server.app).1.representation →
        Cached source url (handler request server.app).1.representation store) := by
  have check : checkBlockwiseTransferGet now source request (acknowledgement request)
      server.blockwise = some (.notBlockwise, acknowledgement request, server.blockwise) := by
    rw [checkBlockwiseTransferGet, full]
    simp only [absent]
  have served : coapRequestHandler now source request server = respondGet now source request
      (answerOf (handler request server.app).1 (acknowledgement request))
      (handler request server.app).1.outPayload (server.called request handler) := by
    rw [coapRequestHandler, prepareResponse_con confirmable.con confirmable.token]
    simp only [if_pos get, check, bind_some]
    exact serveRequest_get serves get represents now
  have blockBound := Nat.lt_of_le_of_lt (represents.blocks request server.app) small
  generalize results : (handler request server.app).1 = result at served blockBound ⊢
  have answer : Answer (answerOf result (acknowledgement request)) :=
    (answer_acknowledgement request).answerOf result
  have same := answerOf_same result (acknowledgement request)
  have noBlock : coapGetHeaderBlock2 (answerOf result (acknowledgement request)) = none :=
    same.block2
  have fresh : (acknowledgement request).isOption .contentFormat = false := rfl
  have payload := (resultOf_answerOf result fresh).payload
  have code : ∀ message : Packet, message.code = result.status →
      isRequest message = false ∧ message.code ≠ 0 := by
    rw [← results]
    exact fun message => represents.code request server.app
  by_cases single : lastChunk result.representation = 0
  · have block : BlockAnswer result.representation 0 (acknowledgement request)
        (coapSetPayload result.representation (answerOf result (acknowledgement request))) := by
      refine ⟨answer.setPayload _, same.type, same.mid, code _ rfl, rfl, ?_, ?_⟩
      · exact congrArg (fun block : Option Block => (block.getD .zero).num) noBlock
      · rw [decide_eq_false (by omega)]
        exact congrArg (fun block : Option Block => (block.getD .zero).more) noBlock
    refine ⟨_, (server.called request handler).blockwise, ?_, block, fun several => by omega⟩
    rw [served, respondGet_single plain payload single now]
    exact ServerContext.send_answer block.sendable block.code.2 source
  · obtain ⟨store, cached, responds⟩ := @respondGet_several A E _ source url request
      (answerOf result (acknowledgement request))
      (server.called request handler) result plain full (by omega)
      blockBound absent now
    have block : BlockAnswer result.representation 0 (acknowledgement request)
        (coapSetPayload (chunkAt result.representation 0) (coapSetHeaderSize2
          (UInt32.ofNat result.representation.length) (coapSetHeaderBlock2 0 true 1024
            (answerOf result (acknowledgement request))))) := by
      have zero : (0 : UInt32).toNat < 2 ^ 20 := by decide
      have option := (getBlock2_setSize2 (UInt32.ofNat result.representation.length) _).trans
        (getBlock2_setBlock2 zero true (answerOf result (acknowledgement request)))
      refine ⟨((answer.setBlock2 zero true).setSize2 _).setPayload _, same.type, same.mid,
        code _ rfl, chunkAt_take _ _, ?_, ?_⟩
      · exact congrArg (fun block : Option Block => (block.getD .zero).num) option
      · rw [decide_eq_true (by omega)]
        exact congrArg (fun block : Option Block => (block.getD .zero).more) option
    refine ⟨_, store, ?_, block, fun _ => cached⟩
    rw [served, responds, ServerContext.send_answer block.sendable block.code.2 source]
    rfl

/-- The later requests of a download get their blocks from the store. -/
theorem coapRequestHandler_cached {representation : List UInt8} {index : Nat} {offset : UInt32}
    (confirmable : Confirmable request) (get : request.code = coapGet)
    (cached : Cached source url representation server.blockwise)
    (full : coapGetFullUrlAlloc request = some url)
    (asks : coapGetHeaderBlock2 request = some ⟨UInt32.ofNat index, false, 1024, offset⟩)
    (inside : index ≤ lastChunk representation) (filled : 0 < representation.length)
    (small : lastChunk representation < 2 ^ 20) (now : UInt32) :
    ∃ answer store, coapRequestHandler now source request server =
      some ((server.withStore store).sent source answer) ∧
      BlockAnswer representation index (acknowledgement request) answer ∧
      Cached source url representation store := by
  obtain ⟨format, next, still, check⟩ := checkBlockwiseTransferGet_cached cached full asks inside
    filled small now (acknowledgement request)
  have number : (UInt32.ofNat index).toNat < 2 ^ 20 := by
    rw [UInt32.toNat_ofNat']
    omega
  have block : BlockAnswer representation index _ _ :=
    blockAnswer_cached (answer_acknowledgement request) number format
  refine ⟨_, next, ?_, block, still⟩
  rw [coapRequestHandler, prepareResponse_con confirmable.con confirmable.token]
  simp only [if_pos get, check, bind_some]
  exact ServerContext.send_answer block.sendable block.code.2 source

end Handler

end Idrm.Coap
