import Idrm.Coap.Link
import Idrm.Coap.UploadServer

/-!
# The client's side of an upload

The messages of an upload are made from one request: each has a block of its payload,
and the first announces the length. The client sends one on every acknowledgement,
until the response to the last one ends the upload and leaves nothing behind.
-/

namespace Idrm.Coap

open Idrm.Lib Option List

/-! ## The messages of an upload -/

/-- The message with a block of a long upload. -/
def uploadMessage (request : Packet) (index : Nat) : Packet :=
  if index = 0 then firstPutBlock request
  else coapSetHeaderBlock1 (UInt32.ofNat index) (decide (index < lastBlock request.payload)) 1024
    (coapSetPayload (chunkAt request.payload index) request)

/-- The messages of an upload. -/
def putMessage (request : Packet) (index : Nat) : Packet :=
  if request.payload.length ≤ restMaxChunkSize then request
  else uploadMessage { request with type := .con } index

/-- A request that can be put: the server is to know its options, and every message made
from it has room for its header. Without more than a block it is sent as it is, and has
to be confirmable. -/
structure Uploadable (request : Packet) : Prop where
  put : request.code = coapPut
  token : request.token.bytes.length ≠ 0
  confirmable : request.payload.length ≤ restMaxChunkSize → request.type = .con
  plain : request.isOption .block1 = false
  once : request.isOption .observe = false
  expressible : Expressible request
  length : request.payload.length < 65536
  header : ∀ index ≤ lastBlock request.payload, 4 + request.token.bytes.length +
    (serializeOptions (putMessage request index)).length ≤ coapMaxHeaderSize

section Messages

variable {request : Packet} {index : Nat}

/-- Message id and type of a request go to its messages. -/
theorem uploadMessage_with (request : Packet) (mid : UInt16) (type : CoapMessageType)
    (index : Nat) : uploadMessage { request with mid := mid, type := type } index =
      { uploadMessage request index with mid := mid, type := type } := by
  unfold uploadMessage firstPutBlock coapSetHeaderBlock1
  split
  · split <;> rfl
  · simp only
    split <;> rfl

theorem index_small (length : request.payload.length < 65536)
    (inside : index ≤ lastBlock request.payload) :
    (UInt32.ofNat index).toNat = index ∧ index < 64 := by
  have bound : index < 64 := by
    rw [lastBlock] at inside
    omega
  exact ⟨UInt32.toNat_ofNat_of_lt' (Nat.lt_trans bound (by decide)), bound⟩

/-- What a block's message has of the request, and what it has of its own. -/
structure BlockMessage (request : Packet) (index : Nat) (message : Packet) : Prop where
  type : message.type = request.type
  code : message.code = request.code
  mid : message.mid = request.mid
  token : message.token = request.token
  payload : message.payload = chunkAt request.payload index
  others : ∀ option, option ≠ .block1 → option ≠ .size1 →
    message.isOption option = request.isOption option
  uriPath : message.uriPath = request.uriPath
  uriQuery : message.uriQuery = request.uriQuery
  block : ∃ offset, coapGetHeaderBlock1 message =
    some ⟨UInt32.ofNat index, decide (index < lastBlock request.payload), 1024, offset⟩
  size : index = 0 → coapGetHeaderSize1 message (1024 * 16) = UInt32.ofNat request.payload.length

theorem firstPutBlock_block (several : 0 < lastBlock request.payload) :
    BlockMessage request 0 (firstPutBlock request) := by
  have option : ∀ option, (firstPutBlock request).isOption option =
      (decide (option = .size1) || (decide (option = .block1) || request.isOption option)) := by
    intro option
    rw [← isOption_setBlock1 (by decide : (0 : UInt32).toNat < 2 ^ 20) true request,
      ← isOption_setOption]
    rfl
  have block : coapGetHeaderBlock1 (firstPutBlock request) =
      coapGetHeaderBlock1 (coapSetHeaderBlock1 0 true 1024 request) := by
    rw [coapGetHeaderBlock1, coapGetHeaderBlock1, option, isOption_setBlock1 (by decide)]
    rfl
  have size : coapGetHeaderSize1 (firstPutBlock request)
      (1024 * 16) = UInt32.ofNat request.payload.length := by
    rw [coapGetHeaderSize1, option]
    rfl
  refine ⟨rfl, rfl, rfl, rfl, rfl, fun other notBlock notSize => ?_, rfl, rfl,
    ⟨request.block1.offset, ?_⟩, fun _ => size⟩
  · rw [option, decide_eq_false notSize, decide_eq_false notBlock, Bool.false_or, Bool.false_or]
  · rw [block, getBlock1_setBlock1 (by decide), decide_eq_true several]
    rfl

theorem laterPutBlock_block (small : (UInt32.ofNat index).toNat < 2 ^ 20) (later : index ≠ 0) :
    BlockMessage request index
      (coapSetHeaderBlock1 (UInt32.ofNat index) (decide (index < lastBlock request.payload)) 1024
        (coapSetPayload (chunkAt request.payload index) request)) := by
  have options := isOption_setBlock1 small (decide (index < lastBlock request.payload))
    (coapSetPayload (chunkAt request.payload index) request)
  have block := getBlock1_setBlock1 small (decide (index < lastBlock request.payload))
    (coapSetPayload (chunkAt request.payload index) request)
  rw [coapSetHeaderBlock1_chunk small] at options block ⊢
  refine ⟨rfl, rfl, rfl, rfl, chunkAt_take request.payload index, fun other notBlock _ => ?_, rfl,
    rfl, ⟨request.block1.offset, block⟩, fun first => absurd first later⟩
  rw [options, decide_eq_false notBlock, Bool.false_or]
  rfl

theorem uploadMessage_block (several : 0 < lastBlock request.payload)
    (length : request.payload.length < 65536) (inside : index ≤ lastBlock request.payload) :
    BlockMessage request index (uploadMessage request index) := by
  obtain ⟨value, bound⟩ := index_small length inside
  unfold uploadMessage
  split
  · rename_i first
    subst first
    exact firstPutBlock_block several
  · rename_i later
    exact laterPutBlock_block (by omega) later

theorem BlockMessage.paths {message : Packet} (block : BlockMessage request index message) :
    coapGetHeaderUriPath message = coapGetHeaderUriPath request ∧
      coapGetFullUrlAlloc message = coapGetFullUrlAlloc request := by
  have path : coapGetHeaderUriPath message = coapGetHeaderUriPath request := by
    rw [coapGetHeaderUriPath, coapGetHeaderUriPath,
      block.others .uriPath (by decide) (by decide), block.uriPath]
  have query : coapGetHeaderUriQuery message = coapGetHeaderUriQuery request := by
    rw [coapGetHeaderUriQuery, coapGetHeaderUriQuery,
      block.others .uriQuery (by decide) (by decide), block.uriQuery]
  exact ⟨path, by rw [coapGetFullUrlAlloc, coapGetFullUrlAlloc, path, query]⟩

/-- A block's message arrives as a block of the upload. -/
theorem BlockMessage.putBlock {message packet : Packet} (block : BlockMessage request index message)
    (arrives : Arrives message packet)
    {url : CString} (full : coapGetFullUrlAlloc request = some url) :
    PutBlock request.payload url index packet where
  block := by
    obtain ⟨offset, option⟩ := block.block
    refine ⟨packet.block1.offset, ?_⟩
    rw [arrives.block1, option]
    rfl
  url := by rw [arrives.fullUrl, block.paths.2, full]
  bytes := arrives.payload.trans block.payload
  size := fun first => (arrives.size1 _).trans (block.size first)

theorem expressible_uploadMessage (expressible : Expressible request)
    (length : request.payload.length < 65536) (inside : index ≤ lastBlock request.payload) :
    Expressible (uploadMessage request index) := by
  obtain ⟨value, bound⟩ := index_small length inside
  unfold uploadMessage
  split
  · have block := expressible.withBlock1 (by decide : (0 : UInt32).toNat < 2 ^ 20) true
    have sized : Expressible (coapSetHeaderSize1 (UInt32.ofNat request.payload.length)
        (coapSetHeaderBlock1 0 true 1024 request)) :=
      block.withPlain (by decide : CoapOption.size1.supported = true) rfl
        (by decide) (by decide) rfl
        ⟨rfl, rfl, rfl, rfl⟩ rfl rfl
    exact ⟨sized.options, sized.clean, sized.block2, sized.block1⟩
  · have same : Expressible (coapSetPayload (chunkAt request.payload index) request) :=
      ⟨expressible.options, expressible.clean, expressible.block2, expressible.block1⟩
    exact same.withBlock1 (by omega) _

/-- The messages of a long upload, with their message ids, survive the wire. -/
theorem Uploadable.message (uploadable : Uploadable request)
    (several : restMaxChunkSize < request.payload.length)
    (inside : index ≤ lastBlock request.payload) (mid : UInt16) :
    Carried (uploadMessage { request with mid := mid, type := .con } index) ∧
      Sendable (uploadMessage { request with mid := mid, type := .con } index) := by
  have more : 0 < lastBlock request.payload := by
    rw [restMaxChunkSize] at several
    rw [lastBlock]
    omega
  have block : BlockMessage { request with mid := mid, type := .con } index _ :=
    uploadMessage_block more uploadable.length inside
  have expressible :
      Expressible (uploadMessage { request with mid := mid, type := .con } index) := by
    have same := expressible_uploadMessage uploadable.expressible uploadable.length inside
    rw [uploadMessage_with]
    exact ⟨same.options, same.clean, same.block2, same.block1⟩
  have header : 4 + request.token.bytes.length +
      (serializeOptions (uploadMessage { request with mid := mid, type := .con } index)).length ≤
        coapMaxHeaderSize := by
    have room := uploadable.header index inside
    rw [putMessage, if_neg (by omega)] at room
    have same : serializeOptions (uploadMessage { request with mid := mid, type := .con } index) =
        serializeOptions (uploadMessage { request with type := .con } index) := by
      rw [uploadMessage_with request mid .con index]
      rw [show uploadMessage { request with type := .con } index = _ from
        uploadMessage_with request request.mid .con index]
      refine serializeOptions_congr rfl fun option => ?_
      cases option <;> rfl
    rw [same]
    exact room
  have fits : FitsUdp (uploadMessage { request with mid := mid, type := .con } index) := by
    refine ⟨?_, ?_, ?_⟩
    · rw [block.code, uploadable.put]
      decide
    · rw [block.token]
      exact header
    · rw [block.payload, chunkAt_length]
      exact Nat.min_le_left _ _
  exact ⟨⟨expressible, fits⟩, ⟨block.type, by rw [block.token]; exact uploadable.token, fits⟩⟩

end Messages

/-! ## The client's side -/

section Client

variable {A U : Type} {ctx : ClientContext A U} {others : List (RequestState U)}
  {state old : RequestState U}
  {addr : A} {message last response : Packet} {callback : ClientCallback U} {index : Nat}

/-- The block behind the ones that were acknowledged. -/
theorem nextPutBlock_message (num : state.blockNum = UInt32.ofNat index)
    (size : state.blockSize = 1024)
    (length : state.request.payload.length < 65536) (later : index ≠ 0)
    (inside : index ≤ lastBlock state.request.payload) :
    nextPutBlock state = some (uploadMessage state.request index) := by
  have whole : 1024 * index ≤ state.request.payload.length := by
    rw [lastBlock] at inside
    omega
  have start : state.blockNum * state.blockSize.toUInt32 = UInt32.ofNat (1024 * index) := by
    rw [num, size, Nat.mul_comm, UInt32.ofNat_mul]
    rfl
  have startValue : (UInt32.ofNat (1024 * index)).toNat = 1024 * index :=
    UInt32.toNat_ofNat_of_lt' (Nat.lt_of_le_of_lt whole (Nat.lt_trans length (by decide)))
  have total : (UInt32.ofNat state.request.payload.length).toNat = state.request.payload.length :=
    UInt32.toNat_ofNat_of_lt' (Nat.lt_trans length (by decide))
  have left : (UInt32.ofNat state.request.payload.length - UInt32.ofNat (1024 * index)).toNat =
      state.request.payload.length - 1024 * index := by
    rw [UInt32.toNat_sub_of_le, total, startValue]
    rw [UInt32.le_iff_toNat_le, total, startValue]
    exact whole
  have more : (¬ state.blockSize.toUInt32 >
      UInt32.ofNat state.request.payload.length - UInt32.ofNat (1024 * index)) ↔
      index < lastBlock state.request.payload := by
    rw [gt_iff_lt, UInt32.lt_iff_toNat_lt, left, size, lastBlock]
    change ¬ state.request.payload.length - 1024 * index < 1024 ↔ _
    omega
  unfold nextPutBlock
  rw [start]
  simp only [startValue, left, more]
  by_cases wholeBlock : index < lastBlock state.request.payload
  · have room : 1024 * index + 1024 ≤ state.request.payload.length := by
      rw [lastBlock] at wholeBlock
      omega
    rw [if_pos wholeBlock, size, uploadMessage, if_neg later, num, chunkAt]
    exact if_pos room
  · have tail : (state.request.payload.drop (1024 * index)).take
        (state.request.payload.length - 1024 * index) = chunkAt state.request.payload index := by
      rw [chunkAt, take_of_length_le (by rw [length_drop]), take_of_length_le]
      rw [length_drop]
      rw [lastBlock] at wholeBlock
      omega
    rw [if_neg wholeBlock, tail, size, uploadMessage, if_neg later, num]
    exact if_pos (by omega)

theorem sendPutBlock_launched (allocated : Allocated ctx) (retries : 0 < ctx.defaultRetransCnt)
    (holds : HoldsState ctx others old) (same : state.ptr = old.ptr) (sendable : Sendable message) :
    sendPutBlock state ctx.nextPtr message (coapNewTransaction message.mid addr ctx).2 =
      some (launched addr message (.put state.ptr)
        (ctx.withEnv { ctx.env with states := others ++ [state] })) := by
  have still : HoldsState (coapNewTransaction message.mid addr ctx).2 others old :=
    ⟨holds.states, holds.only⟩
  generalize goesOn : ({ ctx.env with states := others ++ [state] } : ClientEnv U) = env
  have ready : Allocated (ctx.withEnv env) := allocated.withEnv env
  have stored : storeState state (coapNewTransaction message.mid addr ctx).2 =
      (coapNewTransaction message.mid addr (ctx.withEnv env)).2 := by
    rw [still.store state same, ← goesOn]
    rfl
  have arms : setTransactionPacket ctx.nextPtr message (coapSetResponseHandler ctx.nextPtr message
    (.put state.ptr) (coapNewTransaction message.mid addr (ctx.withEnv env)).2) =
    some (armed addr message (.put state.ptr) (ctx.withEnv env)) :=
    arm_handlerFirst ready sendable rfl rfl
  have sends : sendTransactionAt ctx.nextPtr (armed addr message (.put state.ptr)
    (ctx.withEnv env)) = some (launched addr message (.put state.ptr) (ctx.withEnv env)) :=
    sendTransactionAt_armed ready retries
  have stays : (launched addr message (.put state.ptr) (ctx.withEnv env)).transactionAt
    ctx.nextPtr = some (sentTransaction 1 ctx.nextPtr addr message) := transactionAt_launched ready
  rw [sendPutBlock, stored, arms, bind_some, sends, map_some, stays]
  rfl

/-- The next message of an upload goes out while the last one still waits. -/
theorem continuePut_launched (allocated : Allocated ctx) (retries : 0 < ctx.defaultRetransCnt)
    (holds : HoldsState ctx others old) (same : state.ptr = old.ptr)
    (transaction : state.transaction = some ctx.nextPtr)
    (next : nextPutBlock (state.renew (ctx.env.currentMid + 1) (ctx.nextPtr + 2)) = some message)
    (mid : message.mid = ctx.env.currentMid + 1) (sendable : Sendable message) :
    continuePut state (waitingFor addr last callback ctx) =
      some (launched addr message (.put state.ptr) (waitingFor addr last callback (ctx.withEnv
        ⟨ctx.env.currentMid + 1, others ++ [state.renew (ctx.env.currentMid + 1) (ctx.nextPtr + 2)],
          ctx.env.called⟩))) := by
  have found : (coapGetMid (waitingFor addr last callback ctx)).2.transactionAt ctx.nextPtr =
      some (sentTransaction 1 ctx.nextPtr addr last) := (allocated.onlyAt rfl).find
  have ready : Allocated (coapGetMid (waitingFor addr last callback ctx)).2 :=
    allocated.waitingFor.withEnv _
  have still : HoldsState (coapGetMid (waitingFor addr last callback ctx)).2 others old :=
    ⟨holds.states, holds.only⟩
  have sends := @sendPutBlock_launched A U _ others (state.renew (ctx.env.currentMid + 1)
    (ctx.nextPtr + 2)) old addr message ready retries still same sendable
  rw [mid] at sends
  rw [continuePut, transaction]
  change (((coapGetMid (waitingFor addr last callback ctx)).2.transactionAt ctx.nextPtr).bind
    fun old => _) = _
  rw [found, bind_some]
  change ((nextPutBlock (state.renew (ctx.env.currentMid + 1) (ctx.nextPtr + 2))).bind
    fun message => _) = _
  rw [next, bind_some]
  exact sends

/-- `2.31` for the block that was sent goes on with the next one. -/
theorem coapNonblockingPutCallback_continues {ptr : Nat} (found : stateAt ctx ptr = some state)
    (noReset : response.type ≠ .rst) (code : response.code = continue231) {block : Block}
    (option : coapGetHeaderBlock1 response = some block) (num : block.num = state.blockNum)
    (more : block.more = true) :
    coapNonblockingPutCallback ptr (some response) ctx =
      continuePut { state with blockNum := state.blockNum + 1 } ctx := by
  have notCreated : response.code ≠ created201 := by
    rw [code]
    decide
  rw [coapNonblockingPutCallback, found, bind_some]
  simp only [if_neg noReset, option, getD_some, if_neg notCreated, num, ne_eq, not_true_eq_false,
    if_false, if_pos code, more, reduceCtorEq]

/-- `2.01`, or `2.04` behind the end of the payload, ends the upload. -/
theorem coapNonblockingPutCallback_completes {ptr : Nat} (found : stateAt ctx ptr = some state)
    (noReset : response.type ≠ .rst)
    (code : response.code = changed204 ∨ response.code = created201) {block : Block}
    (option : coapGetHeaderBlock1 response = some block) (num : block.num = state.blockNum)
    (complete : UInt32.ofNat state.request.payload.length < (state.blockNum + 1) *
      state.blockSize.toUInt32) : coapNonblockingPutCallback ptr (some response) ctx =
      some (freeBlockwiseState state (callIfSet state.responseCallback (some response) ctx)) := by
  rw [coapNonblockingPutCallback, found, bind_some]
  rcases code with changed | created
  · have notCreated : response.code ≠ created201 := by
      rw [changed]
      decide
    have notContinue : response.code ≠ continue231 := by
      rw [changed]
      decide
    simp only [if_neg noReset, option, getD_some, if_neg notCreated, num, ne_eq, not_true_eq_false,
      if_false, if_neg notContinue, if_pos changed, if_pos complete]
  · simp only [if_neg noReset, if_pos created]

end Client

/-! ## The client of a long upload -/

section Long

variable {A U : Type} (base : ClientContext A U) (request : Packet) (callback : U)

/-- The request of a long upload as a message is made from it. -/
def uploadRequest (index : Nat) : Packet :=
  { request with mid := transferMid base index, type := .con }

/-- The state of a long upload while a block waits. -/
def uploadState (index : Nat) : RequestState U where
  ptr := base.nextPtr
  transaction := some (base.nextPtr + 1 + 2 * index)
  request := uploadRequest base request index
  responseCallback := some callback
  blockNum := UInt32.ofNat index
  blockSize := 1024

/-- The context of a long upload before a block is sent. -/
def uploadReady (index : Nat) : ClientContext A U :=
  { base with
    nextPtr := base.nextPtr + 1 + 2 * index
    txData := []
    env := ⟨transferMid base index, base.env.states ++ [uploadState base request callback index],
      base.env.called⟩ }

/-- The message of a block. -/
def uploadBlock (index : Nat) : Packet := uploadMessage (uploadRequest base request index) index

end Long

section LongClient

variable {A U : Type} {base : ClientContext A U} {request packet : Packet} {callback : U}
  {index : Nat} {addr : A}

theorem ReadyClient.uploadReady {messages : Nat} (ready : ReadyClient base messages) :
    Allocated (uploadReady base request callback index) ∧
      HoldsState (uploadReady base request callback index) base.env.states
        (uploadState base request callback index) := by
  refine ⟨⟨fun t member => ?_, fun r member => ?_⟩, ⟨rfl, fun state member => ?_⟩⟩
  · have bound := ready.allocated.transactions t member
    change t.ptr < base.nextPtr + 1 + 2 * index
    omega
  · have bound := ready.allocated.requests r member
    change r.ptr < base.nextPtr + 1 + 2 * index
    omega
  · exact Nat.ne_of_lt (ready.states state member)

theorem uploadBlock_message (uploadable : Uploadable request)
    (long : restMaxChunkSize < request.payload.length)
    (inside : index ≤ lastBlock request.payload) :
    BlockMessage (uploadRequest base request index) index (uploadBlock base request index) ∧
    Carried (uploadBlock base request index) ∧ Sendable (uploadBlock base request index) := by
  have several : 0 < lastBlock request.payload := by
    rw [restMaxChunkSize] at long
    rw [lastBlock]
    omega
  exact ⟨uploadMessage_block several uploadable.length inside,
    uploadable.message long inside (transferMid base index)⟩

theorem uploadBlock_isRequest (uploadable : Uploadable request) (block :
      BlockMessage (uploadRequest base request index) index (uploadBlock base request index)) :
    isRequest (uploadBlock base request index) = true := by
  have code : (uploadBlock base request index).code = coapPut := block.code.trans uploadable.put
  rw [isRequest, code]
  rfl

/-- What the server finds in the message of a block. -/
theorem uploadBlock_arrives (uploadable : Uploadable request)
    (long : restMaxChunkSize < request.payload.length) (inside : index ≤ lastBlock request.payload)
    (arrives : Arrives (uploadBlock base request index) packet) :
    Confirmable packet ∧ packet.code = coapPut ∧ packet.mid = (uploadBlock base request index).mid ∧
    coapGetHeaderUriPath packet = coapGetHeaderUriPath request ∧
    (∀ url, coapGetFullUrlAlloc request = some url →
      PutBlock request.payload url index packet) := by
  obtain ⟨block, -, sendable⟩ := @uploadBlock_message A U base request index uploadable long inside
  refine ⟨⟨arrives.type.trans sendable.con, ?_⟩, ?_, arrives.mid, ?_, fun url full => ?_⟩
  · rw [arrives.token]
    exact sendable.token
  · rw [arrives.code, block.code]
    exact uploadable.put
  · rw [arrives.uriPath, block.paths.1]
    rfl
  · exact block.putBlock arrives full

/-- A long upload starts with its first block. -/
theorem coapNonblockingPut_long (uploadable : Uploadable request)
    (long : restMaxChunkSize < request.payload.length)
    (ready : ReadyClient base (lastBlock request.payload)) (idle : base.txData = []) :
    coapNonblockingPut addr request (some callback) base = some (launched addr
      (uploadBlock base request 0) (.put base.nextPtr) (uploadReady base request callback 0)) := by
  obtain ⟨block, -, sendable⟩ :=
    @uploadBlock_message A U base request 0 uploadable long (Nat.zero_le _)
  obtain ⟨allocated, -⟩ := @ReadyClient.uploadReady A U base request callback 0 _ ready
  have mid : (uploadBlock base request 0).mid = transferMid base 0 := block.mid
  have message : firstPutBlock { request with mid := base.env.currentMid + 1, type := .con } =
      uploadBlock base request 0 := by
    rw [uploadBlock, uploadMessage, if_pos rfl, uploadRequest, transferMid_zero]
  generalize opens :
    (⟨base.nextPtr, none, { request with mid := base.env.currentMid + 1, type := .con },
    some callback, 0, 1024⟩ : RequestState U) = state
  have opened : HoldsState (coapNewTransaction (base.env.currentMid + 1) addr
      (newState state (coapGetMid base).2)).2 base.env.states state := by
    refine ⟨rfl, fun other member => ?_⟩
    rw [← opens]
    exact Nat.ne_of_lt (ready.states other member)
  have stored : storeState (state.withTransaction (base.nextPtr + 1))
      (coapNewTransaction (base.env.currentMid + 1) addr (newState state (coapGetMid base).2)).2 =
      (coapNewTransaction (uploadBlock base request 0).mid addr
      (uploadReady base request callback 0)).2 := by
    rw [opened.store (state.withTransaction (base.nextPtr + 1)) rfl, mid, uploadReady, uploadState,
      uploadRequest, transferMid_zero, ← opens, ← idle]
    rfl
  have arms := @arm_packetFirst A _ _ _ addr _ (.put base.nextPtr) allocated sendable
  have sends := @sendTransactionAt_armed A U _ addr (uploadBlock base request 0)
    (.put base.nextPtr) allocated ready.retries
  rw [coapNonblockingPut]
  change (if request.payload.length ≤ restMaxChunkSize then _ else _) = _
  rw [if_neg (by omega)]
  change ((setTransactionPacket (base.nextPtr + 1) (firstPutBlock _)
    (storeState (RequestState.withTransaction (base.nextPtr + 1) _) (coapNewTransaction
    (base.env.currentMid + 1) addr (newState _ (coapGetMid base).2)).2)).bind fun ctx => _) = _
  obtain ⟨written, writes, sets⟩ := map_eq_some_iff.mp arms
  have ptr : (uploadReady base request callback 0).nextPtr = base.nextPtr + 1 := rfl
  rw [ptr] at writes
  simp only [message, opens, stored]
  rw [writes, bind_some]
  exact (congrArg _ sets).trans sends

/-- The state behind an acknowledged block, with what its next message needs. -/
theorem uploadState_renew (base : ClientContext A U)
    (request : Packet) (callback : U) (index : Nat) :
    RequestState.renew (transferMid base index + 1) (base.nextPtr + 1 + 2 * index + 2)
      { uploadState base request callback index with
        blockNum := (uploadState base request callback index).blockNum + 1 } =
      uploadState base request callback (index + 1) := by
  have num : (uploadState base request callback index).blockNum + 1 = UInt32.ofNat (index + 1) :=
    (UInt32.ofNat_add _ _).symm
  rw [num, RequestState.renew, ← transferMid_succ]
  rfl

theorem uploadBlock_exchanged (uploadable : Uploadable request)
    (long : restMaxChunkSize < request.payload.length) (inside : index ≤ lastBlock request.payload)
    (ctx : ClientContext A U) (waits : ClientCallback U) : exchanged
      (uploadBlock base request index) waits ctx = { ctx with nextPtr := ctx.nextPtr + 2 } := by
  obtain ⟨block, -, -⟩ := @uploadBlock_message A U base request index uploadable long inside
  have once : (uploadBlock base request index).isOption .observe = false :=
    (block.others .observe (by decide) (by decide)).trans uploadable.once
  have kept :
      keptRequest (sentRequest ctx.nextPtr (uploadBlock base request index) waits) = [] := by
    rw [keptRequest, if_neg]
    exact (Bool.eq_false_iff.mp once)
  rw [exchanged, kept, append_nil]

/-- The context of a long upload whose block waits for its acknowledgement. -/
def uploadWaiting (addr : A) (base : ClientContext A U) (request : Packet) (callback : U)
    (index : Nat) : ClientContext A U :=
  waitingFor addr (uploadBlock base request index) (.put base.nextPtr)
    (uploadReady base request callback index)

theorem uploadWaiting_holds {messages : Nat} (ready : ReadyClient base messages) :
    HoldsState (uploadWaiting addr base request callback index) base.env.states
      (uploadState base request callback index) := by
  obtain ⟨-, holds⟩ := @ReadyClient.uploadReady A U base request callback index _ ready
  exact ⟨holds.states, holds.only⟩

/-- No other transaction has the message id of a block. -/
theorem uploadBlock_ownMid (uploadable : Uploadable request)
    (long : restMaxChunkSize < request.payload.length)
    (ready : ReadyClient base (lastBlock request.payload))
    (inside : index ≤ lastBlock request.payload) :
    ∀ other ∈ (uploadReady base request callback index).transactions,
    other.mid ≠ (uploadBlock base request index).mid := by
  obtain ⟨block, -, -⟩ := @uploadBlock_message A U base request index uploadable long inside
  intro other member
  rw [block.mid]
  exact ready.mids other member index inside

/-- An acknowledged block is followed by the next one. -/
theorem upload_continues (uploadable : Uploadable request)
    (long : restMaxChunkSize < request.payload.length)
    (ready : ReadyClient base (lastBlock request.payload))
    (inside : index < lastBlock request.payload)
    (answers : Answers (uploadBlock base request index) packet)
    (code : packet.code = continue231) {block : Block}
    (option : coapGetHeaderBlock1 packet = some block) (num : block.num = UInt32.ofNat index)
    (more : block.more = true) (stops : Stops U) (source : A) : coapHandleResponse
      (runRequestCallback stops) source packet (uploadWaiting addr base request callback index) =
      some (launched addr (uploadBlock base request (index + 1)) (.put base.nextPtr)
      (uploadReady base request callback (index + 1))) := by
  obtain ⟨nextBlock, -, sendable⟩ :=
    @uploadBlock_message A U base request (index + 1) uploadable long inside
  obtain ⟨allocated, holds⟩ := @ReadyClient.uploadReady A U base request callback index _ ready
  have renews := uploadState_renew base request callback index
  have next : nextPutBlock (uploadState base request callback (index + 1)) =
      some (uploadBlock base request (index + 1)) :=
    nextPutBlock_message rfl rfl uploadable.length (Nat.succ_ne_zero index) inside
  have mid : (uploadBlock base request (index + 1)).mid = transferMid base index + 1 :=
    nextBlock.mid.trans (transferMid_succ base index)
  have goesOn : continuePut { uploadState base request callback index with
        blockNum := (uploadState base request callback index).blockNum + 1 }
      (uploadWaiting addr base request callback index) =
      some (launched addr (uploadBlock base request (index + 1)) (.put base.nextPtr)
        (waitingFor addr (uploadBlock base request index) (.put base.nextPtr)
          ((uploadReady base request callback index).withEnv
            (uploadReady base request callback (index + 1)).env))) := by
    rw [uploadWaiting, uploadReady, uploadReady, transferMid_succ, ← renews]
    exact continuePut_launched allocated ready.retries holds rfl rfl
      (by rw [← next, ← renews]) mid sendable
  have calls := (coapNonblockingPutCallback_continues
    (uploadWaiting_holds ready).stateAt answers.noReset code option num more).trans goesOn
  rw [uploadWaiting, coapHandleResponse_next allocated answers
    (uploadBlock_ownMid uploadable long ready (Nat.le_of_lt inside)) calls source,
    uploadBlock_exchanged uploadable long (Nat.le_of_lt inside)]
  rfl

/-- The last block is behind the end of the payload. -/
theorem lastBlock_complete (length : request.payload.length < 65536) :
    UInt32.ofNat request.payload.length <
      (UInt32.ofNat (lastBlock request.payload) + 1) * (1024 : UInt16).toUInt32 := by
  have product : (UInt32.ofNat (lastBlock request.payload) + 1) * (1024 : UInt16).toUInt32 =
      UInt32.ofNat ((lastBlock request.payload + 1) * 1024) := by
    rw [UInt32.ofNat_mul, UInt32.ofNat_add]
    rfl
  rw [product, UInt32.lt_iff_toNat_lt, UInt32.toNat_ofNat', UInt32.toNat_ofNat', lastBlock]
  omega

/-- The client behind an upload: addresses and message ids are used up. -/
def uploadDone (base : ClientContext A U) (callback : U) (nextPtr : Nat) (mid : UInt16)
    (packet : Packet) : ClientContext A U :=
  { base with
    nextPtr := nextPtr
    txData := []
    env := ⟨mid, base.env.states, base.env.called ++ [(callback, some packet)]⟩ }

/-- The response to the last block goes to the user, and the context is rid of the upload. -/
theorem upload_completes_holding {ctx : ClientContext A U} (uploadable : Uploadable request)
    (long : restMaxChunkSize < request.payload.length) (allocated : Allocated ctx)
    (others : ∀ other ∈ ctx.transactions,
      other.mid ≠ (uploadBlock base request (lastBlock request.payload)).mid) (holds : HoldsState
      ctx base.env.states (uploadState base request callback (lastBlock request.payload)))
    (answers : Answers (uploadBlock base request (lastBlock request.payload)) packet)
    (code : packet.code = changed204 ∨ packet.code = created201) {block : Block}
    (option : coapGetHeaderBlock1 packet = some block)
    (num : block.num = UInt32.ofNat (lastBlock request.payload)) (stops : Stops U) (source : A) :
    coapHandleResponse (runRequestCallback stops) source packet (waitingFor addr (uploadBlock base
      request (lastBlock request.payload)) (.put base.nextPtr) ctx) = some { ctx with
        nextPtr := ctx.nextPtr + 2
        env := ⟨ctx.env.currentMid, base.env.states,
          ctx.env.called ++ [(callback, some packet)]⟩ } := by
  have waiting : HoldsState
    (waitingFor addr (uploadBlock base request (lastBlock request.payload)) (.put base.nextPtr) ctx)
    base.env.states (uploadState base request callback (lastBlock request.payload)) :=
    ⟨holds.states, holds.only⟩
  have told : HoldsState (callUser callback (some packet) (waitingFor addr
    (uploadBlock base request (lastBlock request.payload)) (.put base.nextPtr) ctx)) base.env.states
    (uploadState base request callback (lastBlock request.payload)) := ⟨holds.states, holds.only⟩
  have calls : coapNonblockingPutCallback base.nextPtr (some packet)
      (waitingFor addr (uploadBlock base request (lastBlock request.payload)) (.put base.nextPtr)
      ctx) = some (waitingFor addr (uploadBlock base request (lastBlock request.payload))
      (.put base.nextPtr) (ctx.withEnv ⟨ctx.env.currentMid, base.env.states,
      ctx.env.called ++ [(callback, some packet)]⟩)) := by
    refine (coapNonblockingPutCallback_completes waiting.stateAt answers.noReset code option num
      (lastBlock_complete uploadable.length)).trans ?_
    exact congrArg some told.free
  rw [coapHandleResponse_last allocated answers others calls source,
    uploadBlock_exchanged uploadable long (Nat.le_refl _)]
  rfl

/-- The response to the last block goes to the user, and nothing of the upload is left but what is
on its way. -/
theorem upload_completes_sent (uploadable : Uploadable request)
    (long : restMaxChunkSize < request.payload.length)
    (ready : ReadyClient base (lastBlock request.payload))
    (answers : Answers (uploadBlock base request (lastBlock request.payload)) packet)
    (code : packet.code = changed204 ∨ packet.code = created201) {block : Block}
    (option : coapGetHeaderBlock1 packet = some block)
    (num : block.num = UInt32.ofNat (lastBlock request.payload)) (stops : Stops U) (source : A)
    (sent : List (A × List UInt8)) : coapHandleResponse (runRequestCallback stops) source packet
      ((uploadWaiting addr base request callback (lastBlock request.payload)).withSent sent) =
      some ((uploadDone base callback (base.nextPtr + 1 + 2 * lastBlock request.payload + 2)
      (transferMid base (lastBlock request.payload)) packet).withSent sent) := by
  obtain ⟨allocated, holds⟩ :=
    @ReadyClient.uploadReady A U base request callback (lastBlock request.payload) _ ready
  have kept : Allocated
      ((uploadReady base request callback (lastBlock request.payload)).withSent sent) :=
    ⟨allocated.transactions, allocated.requests⟩
  have own := @uploadBlock_ownMid A U base request callback _ uploadable long ready
    (Nat.le_refl (lastBlock request.payload))
  have others : ∀ other ∈
      ((uploadReady base request callback (lastBlock request.payload)).withSent sent).transactions,
      other.mid ≠ (uploadBlock base request (lastBlock request.payload)).mid := own
  have still : HoldsState
    ((uploadReady base request callback (lastBlock request.payload)).withSent sent) base.env.states
    (uploadState base request callback (lastBlock request.payload)) := ⟨holds.states, holds.only⟩
  rw [uploadWaiting, waitingFor_withSent]
  exact upload_completes_holding uploadable long kept others still answers code option
    num stops source

end LongClient

/-! ## The client of a short upload -/

section ShortClient

variable {A U : Type} {base : ClientContext A U} {request packet : Packet} {callback : U} {addr : A}

/-- The message of a short upload. -/
def shortMessage (base : ClientContext A U) (request : Packet) : Packet :=
  { request with mid := transferMid base 0 }

/-- The context of a short upload before its message is sent. -/
def shortReady (base : ClientContext A U) : ClientContext A U :=
  { base with txData := [], env := { base.env with currentMid := transferMid base 0 } }

theorem shortMessage_carried (uploadable : Uploadable request)
    (short : request.payload.length ≤ restMaxChunkSize) :
    Carried (shortMessage base request) ∧ Sendable (shortMessage base request) := by
  have expressible := uploadable.expressible
  have room := uploadable.header 0 (Nat.zero_le _)
  rw [putMessage, if_pos short] at room
  have options : serializeOptions (shortMessage base request) = serializeOptions request := by
    refine serializeOptions_congr rfl fun option => ?_
    cases option <;> rfl
  have fits : FitsUdp (shortMessage base request) := by
    refine ⟨?_, ?_, short⟩
    · rw [shortMessage, uploadable.put]
      decide
    · rw [options]
      exact room
  exact ⟨⟨⟨expressible.options, expressible.clean, expressible.block2, expressible.block1⟩, fits⟩,
    ⟨uploadable.confirmable short, uploadable.token, fits⟩⟩

/-- A short upload is one message. -/
theorem coapNonblockingPut_short (uploadable : Uploadable request)
    (short : request.payload.length ≤ restMaxChunkSize)
    {messages : Nat} (ready : ReadyClient base messages)
    (idle : base.txData = []) : coapNonblockingPut addr request (some callback) base = some
      (launched addr (shortMessage base request) (.user (some callback)) (shortReady base)) := by
  obtain ⟨-, sendable⟩ := @shortMessage_carried A U base request uploadable short
  have allocated : Allocated (shortReady base) :=
    ⟨ready.allocated.transactions, ready.allocated.requests⟩
  have arms := @arm_packetFirst A _ _ _ addr _ (ClientCallback.user (some callback))
    allocated sendable
  have sends := @sendTransactionAt_armed A U _ addr (shortMessage base request)
    (.user (some callback)) allocated ready.retries
  have started : coapGetMid base = (transferMid base 0, shortReady base) := by
    rw [coapGetMid, shortReady, transferMid_zero, ← idle]
  obtain ⟨written, writes, sets⟩ := map_eq_some_iff.mp arms
  rw [coapNonblockingPut, started]
  change (if request.payload.length ≤ restMaxChunkSize then _ else _) = _
  rw [if_pos short]
  refine (congrArg (Option.bind · _) writes).trans ?_
  exact (congrArg _ sets).trans sends

/-- Its response goes to the user, whatever is still on its way. -/
theorem short_completes_sent (uploadable : Uploadable request)
    {messages : Nat} (ready : ReadyClient base messages)
    (answers : Answers (shortMessage base request) packet) (stops : Stops U) (source : A)
    (sent : List (A × List UInt8)) : coapHandleResponse (runRequestCallback stops) source packet
      ((waitingFor addr (shortMessage base request) (.user (some callback))
      (shortReady base)).withSent sent) = some ((uploadDone base callback (base.nextPtr + 2)
      (transferMid base 0) packet).withSent sent) := by
  let ctx : ClientContext A U := (shortReady base).withSent sent
  have allocated : Allocated ctx := ⟨ready.allocated.transactions, ready.allocated.requests⟩
  have kept : keptRequest (sentRequest ctx.nextPtr (shortMessage base request)
      (ClientCallback.user (some callback))) = [] := by
    rw [keptRequest, if_neg]
    exact Bool.eq_false_iff.mp uploadable.once
  have others : ∀ other ∈ ctx.transactions, other.mid ≠ (shortMessage base request).mid :=
    fun other member => ready.mids other member 0 (Nat.zero_le _)
  have calls : runRequestCallback stops (.user (some callback)) (some packet)
      (waitingFor addr (shortMessage base request) (.user (some callback)) ctx) =
      some (waitingFor addr (shortMessage base request) (.user (some callback)) (ctx.withEnv
        ⟨transferMid base 0, base.env.states, base.env.called ++ [(callback, some packet)]⟩)) := rfl
  refine (coapHandleResponse_last allocated answers others calls source).trans ?_
  rw [exchanged]
  simp only [CoapContext.withEnv]
  rw [kept, append_nil]
  rfl

end ShortClient

end Idrm.Coap
