import Idrm.Coap.Transactions
import Idrm.Coap.Blockwise

/-!
# Requests of a client

`coap_nonblocking_put` and `coap_nonblocking_get` send a request and leave it to the
responses to carry on: a long payload goes out block by block, each block on the
acknowledgement of the one before, and a long representation is asked for block by
block. What is known of a transfer between two responses is a `RequestState`.

User callbacks are given by names, and what they were called with is kept in order.
They do not work on the context; whether one stops a request may depend on every call
so far.
-/

namespace Idrm.Coap

open Idrm.Lib

/-- `struct request_state_t`, at the address it was allocated at. -/
structure RequestState (U : Type) where
  ptr : Nat
  transaction : Option Nat
  request : Packet
  responseCallback : Option U
  blockNum : UInt32
  blockSize : UInt16

/-- A state with the transaction of its next message. -/
def RequestState.withTransaction {U : Type} (transaction : Nat) (state : RequestState U) :
    RequestState U :=
  { state with transaction := some transaction }

/-- A state with the message id and the transaction of its next message. -/
def RequestState.renew {U : Type} (mid : UInt16) (transaction : Nat) (state : RequestState U) :
    RequestState U :=
  { state with request := { state.request with mid := mid }, transaction := some transaction }

/-- The callbacks of ongoing requests: the user's, which may be `NULL`, or
`coap_nonblocking_put_callback` and `coap_nonblocking_request_callback` with a state. -/
inductive ClientCallback (U : Type) where
  | user (callback : Option U)
  | put (state : Nat)
  | request (state : Nat)

/-- What the callbacks of a client work on, besides its context. -/
structure ClientEnv (U : Type) where
  currentMid : UInt16
  states : List (RequestState U)
  called : List (U × Option Packet)

/-- The context of a client. -/
abbrev ClientContext (A U : Type) := CoapContext A (ClientCallback U) (ClientEnv U)

section Client

variable {A U : Type}

/-- `coap_get_mid` -/
def coapGetMid (ctx : ClientContext A U) : UInt16 × ClientContext A U :=
  (ctx.env.currentMid + 1,
    { ctx with env := { ctx.env with currentMid := ctx.env.currentMid + 1 } })

/-- A call of a user's callback. -/
def callUser (callback : U) (response : Option Packet) (ctx : ClientContext A U) :
    ClientContext A U :=
  { ctx with env := { ctx.env with called := ctx.env.called ++ [(callback, response)] } }

/-- A call of a user's callback, if there is one. -/
def callIfSet (callback : Option U) (response : Option Packet) (ctx : ClientContext A U) :
    ClientContext A U :=
  match callback with
  | none => ctx
  | some callback => callUser callback response ctx

/-- The state at an address. -/
def stateAt (ctx : ClientContext A U) (ptr : Nat) : Option (RequestState U) :=
  ctx.env.states.find? fun state => state.ptr = ptr

/-- A new state at the next address. -/
def newState (state : RequestState U) (ctx : ClientContext A U) : ClientContext A U :=
  { ctx with
    env := { ctx.env with states := ctx.env.states ++ [state] }
    nextPtr := ctx.nextPtr + 1 }

/-- A state written through its pointer. -/
def storeState (state : RequestState U) (ctx : ClientContext A U) : ClientContext A U :=
  { ctx with env := { ctx.env with
    states := ctx.env.states.map fun old => if old.ptr = state.ptr then state else old } }

/-- `free_blockwise_state` -/
def freeBlockwiseState (state : RequestState U) (ctx : ClientContext A U) : ClientContext A U :=
  { ctx with env := { ctx.env with states := ctx.env.states.filter (·.ptr ≠ state.ptr) } }

/-- The end of an upload without a response. -/
def cleanupPut (state : RequestState U) (ctx : ClientContext A U) : ClientContext A U :=
  freeBlockwiseState state (callIfSet state.responseCallback none ctx)

/-- The end of a download without a response; the callback is called unchecked. -/
def cleanupRequest (state : RequestState U) (ctx : ClientContext A U) :
    Option (ClientContext A U) :=
  state.responseCallback.map fun callback => freeBlockwiseState state (callUser callback none ctx)

/-- A callback called with nothing, when a request has run out of retransmissions. -/
def expireCallback (callback : ClientCallback U) (ctx : ClientContext A U) :
    Option (ClientContext A U) :=
  match callback with
  | .user callback => some (callIfSet callback none ctx)
  | .put ptr => (stateAt ctx ptr).map fun state => cleanupPut state ctx
  | .request ptr => (stateAt ctx ptr).bind fun state => cleanupRequest state ctx

/-- `coap_send_transaction` of the transaction at an address. -/
def sendTransactionAt (ptr : Nat) (ctx : ClientContext A U) : Option (ClientContext A U) :=
  (ctx.transactionAt ptr).bind fun transaction =>
    coapSendTransaction (fun callback _ => expireCallback callback) transaction ctx

/-! ## Uploads -/

/-- The message `coap_nonblocking_put_callback` sends next: a whole block, or what is
left. Lengths and offsets are unsigned; `none` is a read behind the payload. -/
def nextPutBlock (state : RequestState U) : Option Packet :=
  let start := state.blockNum * state.blockSize.toUInt32
  let left := UInt32.ofNat state.request.payload.length - start
  let more := ¬ state.blockSize.toUInt32 > left
  let count := if more then state.blockSize.toNat else left.toNat
  if start.toNat + count ≤ state.request.payload.length then
    some (coapSetHeaderBlock1 state.blockNum more state.blockSize
      (coapSetPayload ((state.request.payload.drop start.toNat).take count) state.request))
  else none

/-- A message of an upload is sent from a new transaction. -/
def sendPutBlock (state : RequestState U) (transaction : Nat) (message : Packet)
    (ctx : ClientContext A U) : Option (ClientContext A U) :=
  let ctx := coapSetResponseHandler transaction message (.put state.ptr) (storeState state ctx)
  (setTransactionPacket transaction message ctx).bind fun ctx =>
    (sendTransactionAt transaction ctx).map fun ctx =>
      if (ctx.transactionAt transaction).isNone then cleanupPut state ctx else ctx

/-- The part of `coap_nonblocking_put_callback` that goes on with the next block. -/
def continuePut (state : RequestState U) (ctx : ClientContext A U) : Option (ClientContext A U) :=
  let (mid, ctx) := coapGetMid ctx
  (state.transaction.bind ctx.transactionAt).bind fun old =>
    let (transaction, ctx) := coapNewTransaction mid old.addr ctx
    let state := state.renew mid transaction
    (nextPutBlock state).bind fun message => sendPutBlock state transaction message ctx

/-- `coap_nonblocking_put_callback` -/
def coapNonblockingPutCallback (ptr : Nat) (response : Option Packet) (ctx : ClientContext A U) :
    Option (ClientContext A U) :=
  (stateAt ctx ptr).bind fun state =>
    match response with
    | none => some (cleanupPut state ctx)
    | some response =>
      if response.type = .rst then some (cleanupPut state ctx)
      else
        let block := (coapGetHeaderBlock1 response).getD .zero
        let complete :=
          freeBlockwiseState state (callIfSet state.responseCallback (some response) ctx)
        if response.code = created201 then some complete
        else if block.num ≠ state.blockNum then some (cleanupPut state ctx)
        else
          let state := { state with blockNum := state.blockNum + 1 }
          let sent := state.blockNum * state.blockSize.toUInt32
          if response.code = continue231 then
            if block.more = false then some (cleanupPut state ctx) else continuePut state ctx
          else if response.code = changed204 then
            if UInt32.ofNat state.request.payload.length < sent then some complete
            else continuePut state ctx
          else some (cleanupPut state ctx)

/-- The first message of an upload in blocks. -/
def firstPutBlock (request : Packet) : Packet :=
  coapSetPayload request.payload (coapSetHeaderSize1 (UInt32.ofNat request.payload.length)
    (coapSetHeaderBlock1 0 true 1024 request))

/-- `coap_nonblocking_put` -/
def coapNonblockingPut (addr : A) (request : Packet) (callback : Option U)
    (ctx : ClientContext A U) : Option (ClientContext A U) :=
  let (mid, ctx) := coapGetMid ctx
  let request := { request with mid := mid }
  if request.payload.length ≤ restMaxChunkSize then
    let (transaction, ctx) := coapNewTransaction mid addr ctx
    (setTransactionPacket transaction request ctx).bind fun ctx =>
      sendTransactionAt transaction
        (coapSetResponseHandler transaction request (.user callback) ctx)
  else
    let state : RequestState U :=
      ⟨ctx.nextPtr, none, { request with type := .con }, callback, 0, 1024⟩
    let (transaction, ctx) := coapNewTransaction mid addr (newState state ctx)
    let ctx := storeState (state.withTransaction transaction) ctx
    let message := firstPutBlock state.request
    (setTransactionPacket transaction message ctx).bind fun ctx =>
      sendTransactionAt transaction
        (coapSetResponseHandler transaction message (.put state.ptr) ctx)

/-! ## Downloads -/

/-- The message that asks for the next block. -/
def nextRequest (state : RequestState U) : Packet :=
  if state.blockNum > 0 then coapSetHeaderBlock2 state.blockNum false 1024 state.request
    else state.request

/-- A message of a download is sent from a new transaction. -/
def sendRequestBlock (state : RequestState U) (transaction : Nat) (ctx : ClientContext A U) :
    Option (ClientContext A U) :=
  let ctx := coapSetResponseHandler transaction state.request (.request state.ptr) ctx
  let message := nextRequest state
  (setTransactionPacket transaction message (storeState { state with request := message } ctx)).bind
    (sendTransactionAt transaction)

/-- The part of `coap_nonblocking_request_callback` that goes on with the next block. -/
def continueRequest (state : RequestState U) (ctx : ClientContext A U) :
    Option (ClientContext A U) :=
  let (mid, ctx) := coapGetMid ctx
  (state.transaction.bind ctx.transactionAt).bind fun old =>
    let (transaction, ctx) := coapNewTransaction mid old.addr ctx
    sendRequestBlock (state.renew mid transaction) transaction ctx

/-- Whether a user's callback answers `STOP_REQUEST`, given all calls so far. -/
abbrev Stops (U : Type) := List (U × Option Packet) → Bool

/-- `coap_nonblocking_request_callback`; a block that was not asked for is not handed on. -/
def coapNonblockingRequestCallback (stops : Stops U) (ptr : Nat) (response : Option Packet)
    (ctx : ClientContext A U) : Option (ClientContext A U) :=
  (stateAt ctx ptr).bind fun state =>
    match response with
    | none => cleanupRequest state ctx
    | some response =>
      if response.type = .rst then cleanupRequest state ctx
      else
        let block := (coapGetHeaderBlock2 response).getD .zero
        if block.num = state.blockNum then
          state.responseCallback.bind fun callback =>
            let ctx := callUser callback (some response) ctx
            if stops ctx.env.called then cleanupRequest state ctx
            else if block.more = false then some (freeBlockwiseState state ctx)
            else continueRequest { state with blockNum := state.blockNum + 1 } ctx
        else if block.more = false then some (freeBlockwiseState state ctx)
        else continueRequest state ctx

/-- `coap_nonblocking_get` -/
def coapNonblockingGet (addr : A) (request : Packet) (callback : Option U) (blockNum : UInt32)
    (ctx : ClientContext A U) : Option (ClientContext A U) :=
  let state : RequestState U := ⟨ctx.nextPtr, none, request, callback, blockNum, 0⟩
  let (mid, ctx) := coapGetMid (newState state ctx)
  let request := { request with mid := mid }
  let (transaction, ctx) := coapNewTransaction mid addr ctx
  let ctx := storeState (state.withTransaction transaction) ctx
  let ctx := coapSetResponseHandler transaction request (.request state.ptr) ctx
  (setTransactionPacket transaction request ctx).bind fun ctx =>
    (sendTransactionAt transaction ctx).map fun ctx =>
      if (ctx.transactionAt transaction).isNone then freeBlockwiseState state ctx else ctx

/-! ## The public request, and responses -/

/-- `coap_nonblocking_request`: with a callback the request is confirmable and has a
token. -/
def coapNonblockingRequest (addr : A) (request : Packet) (callback : Option U)
    (ctx : ClientContext A U) : Option (ClientContext A U) :=
  let request :=
    if callback.isSome then
      let request := { request with type := .con }
      if request.token.bytes.length = 0 then
        coapSetToken (midBytes request.mid) request else request
    else request
  if request.code = coapGet then coapNonblockingGet addr request callback 0 ctx
  else coapNonblockingPut addr request callback ctx

/-- `run_request_callback` -/
def runRequestCallback (stops : Stops U) (callback : ClientCallback U) (message : Option Packet)
    (ctx : ClientContext A U) : Option (ClientContext A U) :=
  match callback with
  | .user callback => some (callIfSet callback message ctx)
  | .put ptr => coapNonblockingPutCallback ptr message ctx
  | .request ptr => coapNonblockingRequestCallback stops ptr message ctx

/-- `coap_handle_packet` of a client. A client serves no requests; what it would answer
one is left open. -/
def clientHandlePacket (stops : Stops U) (source : A) (data : List UInt8)
    (ctx : ClientContext A U) : Option (ClientContext A U) :=
  (coapParseMessage data).bind fun
    | .error _ => some ctx
    | .ok parsed =>
      let message := received parsed
      if isRequest message then none
      else coapHandleResponse (runRequestCallback stops) source message ctx

/-- States and requests are stored apart. -/
theorem storeState_setResponseHandler (state : RequestState U) (ptr : Nat) (message : Packet)
    (waits : ClientCallback U) (ctx : ClientContext A U) :
    storeState state (coapSetResponseHandler ptr message waits ctx) =
      coapSetResponseHandler ptr message waits (storeState state ctx) := by
  unfold coapSetResponseHandler
  split <;> rfl

end Client

end Idrm.Coap
