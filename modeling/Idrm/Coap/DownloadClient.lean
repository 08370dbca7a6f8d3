import Idrm.Coap.Link
import Idrm.Coap.DownloadServer

/-!
# The client's side of a download

The messages of a download are one request, with the number of a block in all but the
first. The client hands every response to the user and asks for the next block as long
as a response tells of more. A request that observes leaves one ongoing request behind
for every message.
-/

namespace Idrm.Coap

open Idrm.Lib Option

/-! ## The messages of a download -/

/-- The message that asks for a block. -/
def getMessage (request : Packet) (index : Nat) : Packet :=
  if index = 0 then request else coapSetHeaderBlock2 (UInt32.ofNat index) false 1024 request

/-- A request for a representation of so many blocks: it is confirmable and does not ask
for a block itself, the server is to know its options, and every message made from it has
room for its header. -/
structure Downloadable (request : Packet) (blocks : Nat) : Prop where
  get : request.code = coapGet
  con : request.type = .con
  token : request.token.bytes.length ≠ 0
  plain : request.isOption .block2 = false
  expressible : Expressible request
  payload : request.payload.length ≤ restMaxChunkSize
  header : ∀ index ≤ blocks, 4 + request.token.bytes.length +
    (serializeOptions (getMessage request index)).length ≤ coapMaxHeaderSize

section Messages

variable {request : Packet} {index : Nat}

/-- What the message for a block has of the request, and what it has of its own. -/
structure AskMessage (request : Packet) (index : Nat) (message : Packet) : Prop where
  type : message.type = request.type
  code : message.code = request.code
  token : message.token = request.token
  payload : message.payload = request.payload
  others : ∀ option, option ≠ .block2 → message.isOption option = request.isOption option
  uriPath : message.uriPath = request.uriPath
  uriQuery : message.uriQuery = request.uriQuery
  block : index ≠ 0 →
    ∃ offset, coapGetHeaderBlock2 message = some ⟨UInt32.ofNat index, false, 1024, offset⟩

theorem getMessage_asks (small : (UInt32.ofNat index).toNat < 2 ^ 20) :
    AskMessage request index (getMessage request index) := by
  unfold getMessage
  split
  · rename_i first
    exact ⟨rfl, rfl, rfl, rfl, fun _ _ => rfl, rfl, rfl, fun later => absurd first later⟩
  · have others : ∀ option, option ≠ .block2 →
        (coapSetHeaderBlock2 (UInt32.ofNat index) false 1024 request).isOption option =
          request.isOption option := by
      intro option different
      rw [isOption_setBlock2 small, decide_eq_false different, Bool.false_or]
    have block := getBlock2_setBlock2 small false request
    rw [coapSetHeaderBlock2_chunk small] at others block ⊢
    exact ⟨rfl, rfl, rfl, rfl, others, rfl, rfl, fun _ => ⟨_, block⟩⟩

theorem AskMessage.paths {message : Packet} (asks : AskMessage request index message) :
    coapGetHeaderUriPath message = coapGetHeaderUriPath request ∧
      coapGetFullUrlAlloc message = coapGetFullUrlAlloc request := by
  have path : coapGetHeaderUriPath message = coapGetHeaderUriPath request := by
    rw [coapGetHeaderUriPath, coapGetHeaderUriPath, asks.others .uriPath (by decide), asks.uriPath]
  have query : coapGetHeaderUriQuery message = coapGetHeaderUriQuery request := by
    rw [coapGetHeaderUriQuery, coapGetHeaderUriQuery,
      asks.others .uriQuery (by decide), asks.uriQuery]
  exact ⟨path, by rw [coapGetFullUrlAlloc, coapGetFullUrlAlloc, path, query]⟩

theorem expressible_getMessage (expressible : Expressible request)
    (small : (UInt32.ofNat index).toNat < 2 ^ 20) : Expressible (getMessage request index) := by
  unfold getMessage
  split
  · exact expressible
  · exact expressible.withBlock2 small false

end Messages

/-! ## The contexts of a download -/

section Download

variable {A U : Type} (base : ClientContext A U) (request : Packet) (callback : U)

/-- The message for a block, with its message id. -/
def downloadMessage (index : Nat) : Packet :=
  { getMessage request index with mid := transferMid base index }

/-- The state of a download while a message waits. The first message is not made from
its request. -/
def downloadState (index : Nat) : RequestState U where
  ptr := base.nextPtr
  transaction := some (base.nextPtr + 1 + 2 * index)
  request := if index = 0 then request else downloadMessage base request index
  responseCallback := some callback
  blockNum := UInt32.ofNat index
  blockSize := 0

/-- The context of a download before a message is sent. -/
def downloadReady (index : Nat) (requests : List (OngoingRequest (ClientCallback U)))
    (called : List (U × Option Packet)) : ClientContext A U :=
  { base with
    ongoingRequests := requests
    nextPtr := base.nextPtr + 1 + 2 * index
    txData := []
    env := ⟨transferMid base index,
      base.env.states ++ [downloadState base request callback index], called⟩ }

end Download

section Client

variable {A U : Type} {base ctx : ClientContext A U}
  {request message last packet : Packet} {callback : U}
  {index blocks : Nat} {addr : A} {others : List (RequestState U)} {state old : RequestState U}
  {waits : ClientCallback U}

theorem downloadMessage_asks (small : (UInt32.ofNat index).toNat < 2 ^ 20) :
    AskMessage request index (downloadMessage base request index) := by
  obtain ⟨type, code, token, payload, others, uriPath, uriQuery, block⟩ :=
    @getMessage_asks request index small
  exact ⟨type, code, token, payload, others, uriPath, uriQuery, block⟩

theorem index_below (inside : index ≤ blocks) (small : blocks < 2 ^ 20) :
    (UInt32.ofNat index).toNat = index ∧ (UInt32.ofNat index).toNat < 2 ^ 20 := by
  have value : (UInt32.ofNat index).toNat = index :=
    UInt32.toNat_ofNat_of_lt' (Nat.lt_of_le_of_lt inside (Nat.lt_trans small (by decide)))
  omega

/-- The messages of a download survive the wire. -/
theorem downloadMessage_carried (downloadable : Downloadable request blocks)
    (small : blocks < 2 ^ 20)
    (inside : index ≤ blocks) : AskMessage request index (downloadMessage base request index) ∧
    Carried (downloadMessage base request index) ∧
    Sendable (downloadMessage base request index) := by
  have number := (index_below inside small).2
  have asks := @downloadMessage_asks A U base request index number
  have expressible := expressible_getMessage downloadable.expressible number
  have options : serializeOptions (downloadMessage base request index) =
      serializeOptions (getMessage request index) := by
    refine serializeOptions_congr rfl fun option => ?_
    cases option <;> rfl
  have fits : FitsUdp (downloadMessage base request index) := by
    refine ⟨?_, ?_, ?_⟩
    · rw [asks.code, downloadable.get]
      decide
    · rw [asks.token, options]
      exact downloadable.header index inside
    · rw [asks.payload]
      exact downloadable.payload
  refine ⟨asks, ⟨⟨expressible.options, expressible.clean, expressible.block2, expressible.block1⟩,
    fits⟩, ⟨asks.type.trans downloadable.con, ?_, fits⟩⟩
  rw [asks.token]
  exact downloadable.token

/-- A request that asks for a block, asked for another one. -/
theorem downloadMessage_next (base : ClientContext A U) (request : Packet) (callback : U)
    (small : (UInt32.ofNat index).toNat < 2 ^ 20)
    (next : (UInt32.ofNat (index + 1)).toNat < 2 ^ 20) :
    coapSetHeaderBlock2 (UInt32.ofNat (index + 1)) false 1024
      { (downloadState base request callback index).request with
        mid := transferMid base (index + 1) } =
      downloadMessage base request (index + 1) := by
  have later : ¬ index + 1 = 0 := Nat.succ_ne_zero index
  rw [downloadMessage, getMessage, if_neg later, coapSetHeaderBlock2_chunk next,
    coapSetHeaderBlock2_chunk next, downloadState]
  by_cases first : index = 0
  · simp only [if_pos first]
    rfl
  · simp only [if_neg first, downloadMessage, getMessage, coapSetHeaderBlock2_chunk small,
      CoapPacket.setOption, Finset.insert_idem]

theorem sendRequestBlock_launched (allocated : Allocated ctx) (retries : 0 < ctx.defaultRetransCnt)
    (holds : HoldsState ctx others old) (same : state.ptr = old.ptr)
    (next : nextRequest state = message) (token : state.request.token = message.token)
    (observe : state.request.isOption .observe = message.isOption .observe)
    (sendable : Sendable message) : sendRequestBlock state ctx.nextPtr
      (coapNewTransaction message.mid addr ctx).2 = some (launched addr message (.request state.ptr)
      (ctx.withEnv { ctx.env with states := others ++ [{ state with request := message }] })) := by
  have still : HoldsState (coapNewTransaction message.mid addr ctx).2 others old :=
    ⟨holds.states, holds.only⟩
  have stores := still.store { state with request := message } same
  generalize goesOn :
    ({ ctx.env with states := others ++ [{ state with request := message }] } : ClientEnv U) = env
  have ready : Allocated (ctx.withEnv env) := allocated.withEnv env
  have stored : storeState { state with request := message } (coapNewTransaction message.mid addr
      ctx).2 = (coapNewTransaction message.mid addr (ctx.withEnv env)).2 := by
    rw [stores, ← goesOn]
    rfl
  have arms :
      setTransactionPacket ctx.nextPtr message (coapSetResponseHandler ctx.nextPtr state.request
      (.request state.ptr) (coapNewTransaction message.mid addr (ctx.withEnv env)).2) =
      some (armed addr message (.request state.ptr) (ctx.withEnv env)) :=
    arm_handlerFirst ready sendable token observe
  rw [sendRequestBlock, next]
  simp only [storeState_setResponseHandler, stored, arms, bind_some]
  exact sendTransactionAt_armed ready retries

/-- The next message of a download goes out while the last one still waits. -/
theorem continueRequest_launched (allocated : Allocated ctx) (retries : 0 < ctx.defaultRetransCnt)
    (holds : HoldsState ctx others old) (same : state.ptr = old.ptr)
    (transaction : state.transaction = some ctx.nextPtr)
    (next : nextRequest (state.renew (ctx.env.currentMid + 1) (ctx.nextPtr + 2)) = message)
    (mid : message.mid = ctx.env.currentMid + 1) (token : state.request.token = message.token)
    (observe : state.request.isOption .observe = message.isOption .observe)
    (sendable : Sendable message) :
    continueRequest state (waitingFor addr last waits ctx) = some (launched addr message
      (.request state.ptr) (waitingFor addr last waits (ctx.withEnv ⟨ctx.env.currentMid + 1,
      others ++ [{ state.renew (ctx.env.currentMid + 1) (ctx.nextPtr + 2) with
          request := message }], ctx.env.called⟩))) := by
  have found : (coapGetMid (waitingFor addr last waits ctx)).2.transactionAt ctx.nextPtr =
      some (sentTransaction 1 ctx.nextPtr addr last) := (allocated.onlyAt rfl).find
  have ready : Allocated (coapGetMid (waitingFor addr last waits ctx)).2 :=
    allocated.waitingFor.withEnv _
  have still : HoldsState (coapGetMid (waitingFor addr last waits ctx)).2 others old :=
    ⟨holds.states, holds.only⟩
  have sends := @sendRequestBlock_launched A U _ message addr others
    (state.renew (ctx.env.currentMid + 1) (ctx.nextPtr + 2)) old ready retries still same next token
    observe sendable
  rw [mid] at sends
  rw [continueRequest, transaction]
  change (((coapGetMid (waitingFor addr last waits ctx)).2.transactionAt ctx.nextPtr).bind
    fun old => _) = _
  rw [found, bind_some]
  exact sends

theorem ReadyClient.downloadReady (ready : ReadyClient base blocks)
    {requests : List (OngoingRequest (ClientCallback U))} {called : List (U × Option Packet)}
    (allocated : ∀ r ∈ requests, r.ptr < base.nextPtr + 1 + 2 * index) :
    Allocated (downloadReady base request callback index requests called) ∧
      HoldsState (downloadReady base request callback index requests called) base.env.states
        (downloadState base request callback index) := by
  refine ⟨⟨fun t member => ?_, allocated⟩, ⟨rfl, fun state member => ?_⟩⟩
  · have bound := ready.allocated.transactions t member
    change t.ptr < base.nextPtr + 1 + 2 * index
    omega
  · exact Nat.ne_of_lt (ready.states state member)

/-- A download starts with the request itself. -/
theorem coapNonblockingGet_started (downloadable : Downloadable request blocks)
    (small : blocks < 2 ^ 20) (ready : ReadyClient base blocks) (idle : base.txData = []) :
    coapNonblockingGet addr request (some callback) 0 base =
      some (launched addr (downloadMessage base request 0) (.request base.nextPtr)
      (downloadReady base request callback 0 base.ongoingRequests base.env.called)) := by
  obtain ⟨-, -, sendable⟩ := @downloadMessage_carried A U base request 0 blocks downloadable small
    (Nat.zero_le _)
  obtain ⟨allocated, -⟩ := @ReadyClient.downloadReady A U base request callback 0 blocks ready
    base.ongoingRequests base.env.called
    (fun r member => by have := ready.allocated.requests r member; omega)
  have message :
      { request with mid := base.env.currentMid + 1 } = downloadMessage base request 0 := by
    rw [downloadMessage, getMessage, if_pos rfl, transferMid_zero]
  generalize opens : (⟨base.nextPtr, none, request, some callback, 0, 0⟩ : RequestState U) = state
  have opened : HoldsState (coapNewTransaction (base.env.currentMid + 1) addr
      (coapGetMid (newState state base)).2).2 base.env.states state := by
    refine ⟨rfl, fun other member => ?_⟩
    rw [← opens]
    exact Nat.ne_of_lt (ready.states other member)
  have stored : storeState (state.withTransaction (base.nextPtr + 1))
      (coapNewTransaction (base.env.currentMid + 1) addr (coapGetMid (newState state base)).2).2 =
      (coapNewTransaction (downloadMessage base request 0).mid addr
        (downloadReady base request callback 0 base.ongoingRequests base.env.called)).2 := by
    rw [opened.store (state.withTransaction (base.nextPtr + 1)) rfl, ← message, downloadReady,
      downloadState, transferMid_zero, ← opens, ← idle]
    rfl
  have ptr : (downloadReady base request callback 0 base.ongoingRequests base.env.called).nextPtr =
      base.nextPtr + 1 := rfl
  have arms := @arm_handlerFirst A _ _ _ addr _ (ClientCallback.request base.nextPtr) allocated
    sendable _ rfl rfl
  have sends := @sendTransactionAt_armed A U _ addr (downloadMessage base request 0)
    (.request base.nextPtr) allocated ready.retries
  have stays := @transactionAt_launched A _ _ _ addr (downloadMessage base request 0)
    (ClientCallback.request base.nextPtr) allocated
  rw [ptr] at arms sends stays
  rw [coapNonblockingGet]
  change ((setTransactionPacket (base.nextPtr + 1) { request with mid := base.env.currentMid + 1 }
    (coapSetResponseHandler (base.nextPtr + 1) { request with mid := base.env.currentMid + 1 } _
      (storeState (RequestState.withTransaction (base.nextPtr + 1) _)
        (coapNewTransaction (base.env.currentMid + 1) addr
          (coapGetMid (newState _ base)).2).2))).bind fun ctx => _) = _
  simp only [opens, stored, message]
  rw [← opens, arms, bind_some]
  change Option.map _ (sendTransactionAt (base.nextPtr + 1) _) = _
  rw [sends, map_some]
  refine congrArg some (if_neg ?_)
  change ¬ (CoapContext.transactionAt _ (base.nextPtr + 1)).isNone = true
  rw [stays]
  exact Bool.false_ne_true

section Callback

variable {requests : List (OngoingRequest (ClientCallback U))} {called : List (U × Option Packet)}
  {stops : Stops U}

/-- The state behind an answered message, with its next message. -/
theorem downloadState_next (base : ClientContext A U) (request : Packet) (callback : U)
    (inside : index < blocks) (small : blocks < 2 ^ 20) :
    nextRequest (RequestState.renew (transferMid base index + 1) (base.nextPtr + 1 + 2 * index + 2)
        { downloadState base request callback index with
          blockNum := (downloadState base request callback index).blockNum + 1 }) =
      downloadMessage base request (index + 1) := by
  have num : (downloadState base request callback index).blockNum + 1 = UInt32.ofNat (index + 1) :=
    (UInt32.ofNat_add _ _).symm
  obtain ⟨-, this⟩ := index_below (Nat.le_of_lt inside) small
  obtain ⟨value, next⟩ := index_below (Nat.succ_le_of_lt inside) small
  have later : UInt32.ofNat (index + 1) > 0 := by
    rw [gt_iff_lt, UInt32.lt_iff_toNat_lt, value]
    exact Nat.succ_pos index
  rw [num, nextRequest, RequestState.renew, ← transferMid_succ]
  exact (if_pos later).trans (downloadMessage_next base request callback this next)

theorem downloadState_renewed (base : ClientContext A U)
    (request : Packet) (callback : U) (index : Nat) :
    { RequestState.renew (transferMid base index + 1) (base.nextPtr + 1 + 2 * index + 2)
        { downloadState base request callback index with
          blockNum := (downloadState base request callback index).blockNum + 1 } with
      request := downloadMessage base request (index + 1) } =
      downloadState base request callback (index + 1) := by
  have num : (downloadState base request callback index).blockNum + 1 = UInt32.ofNat (index + 1) :=
    (UInt32.ofNat_add _ _).symm
  rw [num]
  rfl

/-- A response with more behind it is handed to the user, and the next block asked for. -/
theorem coapNonblockingRequestCallback_continues (holds : HoldsState ctx others state)
    (user : state.responseCallback = some callback) (noReset : packet.type ≠ .rst)
    (num : ((coapGetHeaderBlock2 packet).getD .zero).num = state.blockNum)
    (more : moreBlocks packet = true) (goesOn : ∀ calls, stops calls = false) :
    coapNonblockingRequestCallback stops state.ptr (some packet) ctx = continueRequest
      { state with blockNum := state.blockNum + 1 } (callUser callback (some packet) ctx) := by
  have notLast : ¬ ((coapGetHeaderBlock2 packet).getD .zero).more = false := by
    rw [Bool.not_eq_false]
    exact more
  rw [coapNonblockingRequestCallback, holds.stateAt, bind_some]
  simp only [if_neg noReset, if_pos num, user, bind_some, goesOn, Bool.false_eq_true, if_false]
  rw [if_neg notLast]

/-- The last response is handed to the user, and the state is freed. -/
theorem coapNonblockingRequestCallback_completes (holds : HoldsState ctx others state)
    (user : state.responseCallback = some callback) (noReset : packet.type ≠ .rst)
    (num : ((coapGetHeaderBlock2 packet).getD .zero).num = state.blockNum)
    (last : moreBlocks packet = false) (goesOn : ∀ calls, stops calls = false) :
    coapNonblockingRequestCallback stops state.ptr (some packet) ctx =
      some (freeBlockwiseState state (callUser callback (some packet) ctx)) := by
  rw [coapNonblockingRequestCallback, holds.stateAt, bind_some]
  simp only [if_neg noReset, if_pos num, user, bind_some, goesOn, Bool.false_eq_true, if_false]
  exact if_pos last

/-- The context of a download whose message waits for its response. -/
def downloadWaiting (addr : A)
    (base : ClientContext A U) (request : Packet) (callback : U) (index : Nat)
    (requests : List (OngoingRequest (ClientCallback U))) (called : List (U × Option Packet)) :
    ClientContext A U :=
  waitingFor addr (downloadMessage base request index) (.request base.nextPtr)
    (downloadReady base request callback index requests called)

/-- A response with more behind it is handed to the user, and the next message sent. -/
theorem download_continues (downloadable : Downloadable request blocks) (small : blocks < 2 ^ 20)
    (ready : ReadyClient base blocks) (inside : index < blocks)
    (allocated : ∀ r ∈ requests, r.ptr < base.nextPtr + 1 + 2 * index)
    (answers : Answers (downloadMessage base request index) packet)
    (num : ((coapGetHeaderBlock2 packet).getD .zero).num = UInt32.ofNat index)
    (more : moreBlocks packet = true) (goesOn : ∀ calls, stops calls = false) (source : A) :
    ∃ left, (∀ r ∈ left, r.ptr < base.nextPtr + 1 + 2 * (index + 1)) ∧
    coapHandleResponse (runRequestCallback stops) source packet
      (downloadWaiting addr base request callback index requests called) = some (launched addr
      (downloadMessage base request (index + 1)) (.request base.nextPtr) (downloadReady base request
      callback (index + 1) left (called ++ [(callback, some packet)]))) := by
  obtain ⟨nextAsks, -, sendable⟩ :=
    @downloadMessage_carried A U base request (index + 1) blocks downloadable small inside
  obtain ⟨allocates, holds⟩ := @ReadyClient.downloadReady A U base request callback index blocks
    ready requests called allocated
  obtain ⟨stillAllocates, stillHolds⟩ := @ReadyClient.downloadReady A U base request callback index
    blocks ready requests (called ++ [(callback, some packet)]) allocated
  have waits : HoldsState (downloadWaiting addr base request callback index requests called)
    base.env.states (downloadState base request callback index) := ⟨holds.states, holds.only⟩
  have mid : (downloadMessage base request (index + 1)).mid = transferMid base index + 1 :=
    transferMid_succ base index
  have kept : (downloadState base request callback index).request.token = request.token ∧
      (downloadState base request callback index).request.isOption .observe =
      request.isOption .observe := by
    obtain ⟨-, number⟩ := index_below (Nat.le_of_lt inside) small
    have asks := @downloadMessage_asks A U base request index number
    rw [downloadState]
    dsimp only
    split
    · exact ⟨rfl, rfl⟩
    · exact ⟨asks.token, asks.others .observe (by decide)⟩
  have next := downloadState_next base request callback inside small
  have launches := @continueRequest_launched A U _ (downloadMessage base request (index + 1))
    (downloadMessage base request index) addr base.env.states
    { downloadState base request callback index with
      blockNum := (downloadState base request callback index).blockNum + 1 }
    (downloadState base request callback index) (.request base.nextPtr)
    stillAllocates ready.retries stillHolds rfl rfl next mid (kept.1.trans nextAsks.token.symm)
    (kept.2.trans (nextAsks.others .observe (by decide)).symm) sendable
  have calls := @coapNonblockingRequestCallback_continues A U _ packet callback _ _ stops waits rfl
    answers.noReset num more goesOn
  refine ⟨requests ++ keptRequest (sentRequest (base.nextPtr + 1 + 2 * index)
    (downloadMessage base request index) (.request base.nextPtr)), ?_, ?_⟩
  · exact (@Allocated.exchanged A _ _ _ (downloadMessage base request index)
      (ClientCallback.request base.nextPtr) allocates).requests
  · refine (coapHandleResponse_next allocates answers (fun other member =>
      ready.mids other member index (Nat.le_of_lt inside)) (calls.trans launches) source).trans ?_
    unfold downloadReady
    rw [← downloadState_renewed base request callback index, transferMid_succ]
    rfl

/-- The client behind a download: addresses and message ids are used up, and a request
that observes leaves one for every message. -/
def downloadDone (base : ClientContext A U)
    (index : Nat) (left : List (OngoingRequest (ClientCallback U)))
    (called : List (U × Option Packet)) : ClientContext A U :=
  { base with
    ongoingRequests := left
    nextPtr := base.nextPtr + 1 + 2 * (index + 1)
    txData := []
    env := ⟨transferMid base index, base.env.states, called⟩ }

/-- The last response is handed to the user, and nothing is sent. -/
theorem download_completes (ready : ReadyClient base blocks) (inside : index ≤ blocks)
    (allocated : ∀ r ∈ requests, r.ptr < base.nextPtr + 1 + 2 * index)
    (answers : Answers (downloadMessage base request index) packet)
    (num : ((coapGetHeaderBlock2 packet).getD .zero).num = UInt32.ofNat index)
    (last : moreBlocks packet = false) (goesOn : ∀ calls, stops calls = false) (source : A) :
    ∃ left, coapHandleResponse (runRequestCallback stops) source packet
      (downloadWaiting addr base request callback index requests called) =
      some (downloadDone base index left (called ++ [(callback, some packet)])) := by
  obtain ⟨allocates, holds⟩ := @ReadyClient.downloadReady A U base request callback index blocks
    ready requests called allocated
  have waits : HoldsState (downloadWaiting addr base request callback index requests called)
    base.env.states (downloadState base request callback index) := ⟨holds.states, holds.only⟩
  have told : HoldsState (callUser callback (some packet)
    (downloadWaiting addr base request callback index requests called)) base.env.states
    (downloadState base request callback index) := ⟨holds.states, holds.only⟩
  have calls := @coapNonblockingRequestCallback_completes A U _ packet callback _ _ stops waits rfl
    answers.noReset num last goesOn
  have frees : runRequestCallback stops (.request base.nextPtr) (some packet)
      (waitingFor addr (downloadMessage base request index) (.request base.nextPtr)
        (downloadReady base request callback index requests called)) =
      some (waitingFor addr (downloadMessage base request index) (.request base.nextPtr)
        ((downloadReady base request callback index requests called).withEnv
          ⟨transferMid base index, base.env.states, called ++ [(callback, some packet)]⟩)) :=
    calls.trans (congrArg some told.free)
  refine ⟨_, (coapHandleResponse_last allocates answers (fun other member =>
    ready.mids other member index inside) frees source).trans rfl⟩

end Callback

end Client

end Idrm.Coap
