import Idrm.Lib.Chain
import Idrm.Coap.Message

/-!
# Transactions and ongoing requests in memory

The lists of a CoAP context are intrusive, and transactions and ongoing requests refer to each
other by pointers. `coap_check_transactions` takes expired transactions out of their list by
hand, and callbacks that it runs add new ones, while the expired ones are in no list.

Here the pointers are modelled as such. Whoever reads what was freed, fails an assertion, or
walks in a circle has no result. The peers of the transactions are left out, and so are
allocations that fail, which leave everything as it was.

What a callback does is a `Script`: it makes new transactions, arms them with a handler, and
sends them. A transaction that is sent may run out at once, so the script of a call has one
for the callback of each transaction it sends.
-/

namespace Idrm.Coap

open Idrm.Lib Function

/-- `coap_transaction_t` -/
structure TransactionNode where
  next : Option Nat
  mid : UInt16
  retransTimer : UInt32
  retransCounter : UInt8
  ongoingRequest : Option Nat
  packet : List UInt8

/-- `coap_ongoing_request_t`; `callback` tells whether there is one. -/
structure RequestNode where
  next : Option Nat
  token : List UInt8
  observe : Bool
  callback : Bool
  transaction : Option Nat

instance : Chained TransactionNode where
  next := TransactionNode.next
  setNext pointer node := { node with next := pointer }
  next_setNext _ _ := rfl
  setNext_setNext _ _ _ := rfl

instance : Chained RequestNode where
  next := RequestNode.next
  setNext pointer node := { node with next := pointer }
  next_setNext _ _ := rfl
  setNext_setNext _ _ _ := rfl

/-- `coap_context_t` with its heap and the datagrams given to `tx_data`. -/
structure PointerContext where
  transactions : Option Nat
  ongoingRequests : Option Nat
  lastChecktime : UInt32
  defaultRetransMs : UInt32
  defaultRetransCnt : UInt16
  transactionHeap : Heap TransactionNode
  requestHeap : Heap RequestNode
  nextAddress : Nat
  txData : List (List UInt8)

namespace PointerContext

/-- `coap_context_new` -/
def new (defaultRetransMs : UInt32) (defaultRetransCnt : UInt16) : PointerContext :=
  ⟨none, none, 0, defaultRetransMs, defaultRetransCnt, fun _ => none, fun _ => none, 0, []⟩

/-- The members of a transaction are written. -/
def setTransaction (t : Nat) (node : TransactionNode) (ctx : PointerContext) : PointerContext :=
  { ctx with transactionHeap := update ctx.transactionHeap t (some node) }

/-- The members of an ongoing request are written. -/
def setRequest (r : Nat) (node : RequestNode) (ctx : PointerContext) : PointerContext :=
  { ctx with requestHeap := update ctx.requestHeap r (some node) }

/-- `list_add_coap` on the transactions. -/
def addTransaction (t : Nat) (ctx : PointerContext) : Option PointerContext := do
  let (head, heap) ← listAdd ctx.nextAddress t ctx.transactions ctx.transactionHeap
  some { ctx with transactions := head, transactionHeap := heap }

/-- `list_remove_coap` on the transactions. -/
def removeTransaction (t : Nat) (ctx : PointerContext) : Option PointerContext := do
  let (head, heap) ← listRemove ctx.nextAddress t ctx.transactions ctx.transactionHeap
  some { ctx with transactions := head, transactionHeap := heap }

/-- `list_add_coap` on the ongoing requests. -/
def addRequest (r : Nat) (ctx : PointerContext) : Option PointerContext := do
  let (head, heap) ← listAdd ctx.nextAddress r ctx.ongoingRequests ctx.requestHeap
  some { ctx with ongoingRequests := head, requestHeap := heap }

/-- `list_remove_coap` on the ongoing requests. -/
def removeRequest (r : Nat) (ctx : PointerContext) : Option PointerContext := do
  let (head, heap) ← listRemove ctx.nextAddress r ctx.ongoingRequests ctx.requestHeap
  some { ctx with ongoingRequests := head, requestHeap := heap }

/-! ## Timers -/

/-- `get_elpased_ms`, without the stamp it leaves. -/
def getElpasedMs (now lastSystemClock : UInt32) : UInt32 :=
  if now < lastSystemClock then now + (0xFFFFFFFF - lastSystemClock) + 1 else now - lastSystemClock

/-- One transaction of the walk of `coap_update_transactions`. -/
def countDownTimer (elpasedMs : UInt32) (node : TransactionNode) : TransactionNode :=
  { node with
    retransTimer := if elpasedMs ≥ node.retransTimer then 0 else node.retransTimer - elpasedMs }

/-- `coap_update_transactions`, whose results are not used here. -/
def coapUpdateTransactions (now : UInt32) (ctx : PointerContext) : Option PointerContext := do
  let elpasedMs := getElpasedMs now ctx.lastChecktime
  let heap ← listEach (countDownTimer elpasedMs) ctx.nextAddress ctx.transactions
    ctx.transactionHeap
  some { ctx with lastChecktime := now, transactionHeap := heap }

/-! ## Transactions -/

/-- `coap_new_transaction`, with the packet that the caller puts in. -/
def coapNewTransaction (now : UInt32) (mid : UInt16) (packet : List UInt8) (ctx : PointerContext) :
    Option (Nat × PointerContext) := do
  let t := ctx.nextAddress
  let ctx := { ctx with nextAddress := ctx.nextAddress + 1 }
  let ctx := ctx.setTransaction t ⟨none, mid, ctx.defaultRetransMs, 0, none, packet⟩
  let ctx ← ctx.coapUpdateTransactions now
  let ctx ← ctx.addTransaction t
  some (t, ctx)

/-- `coap_set_response_handler` -/
def coapSetResponseHandler (t : Nat) (token : List UInt8) (observe callback : Bool)
    (ctx : PointerContext) : Option PointerContext := do
  if token = [] then some ctx
  else
    let r := ctx.nextAddress
    let ctx := { ctx with nextAddress := ctx.nextAddress + 1 }
    let node ← ctx.transactionHeap t
    let ctx := ctx.setRequest r ⟨none, token.take 8, observe, callback, some t⟩
    let ctx := ctx.setTransaction t { node with ongoingRequest := some r }
    ctx.addRequest r

/-- `free_ongoing_request` -/
def freeOngoingRequest (r : Nat) (ctx : PointerContext) : Option PointerContext := do
  let ctx ← ctx.removeRequest r
  let node ← ctx.requestHeap r
  let ctx ← match node.transaction with
    | none => some ctx
    | some t => do
        let transaction ← ctx.transactionHeap t
        some (ctx.setTransaction t { transaction with ongoingRequest := none })
  some { ctx with requestHeap := update ctx.requestHeap r none }

/-- `coap_clear_transaction`. The assertion: the request of a transaction refers to it. -/
def coapClearTransaction (t : Nat) (ctx : PointerContext) : Option PointerContext := do
  let ctx ← ctx.removeTransaction t
  let node ← ctx.transactionHeap t
  let ctx ← match node.ongoingRequest with
    | none => some ctx
    | some r => do
        let request ← ctx.requestHeap r
        if request.transaction = some t then
          some (ctx.setRequest r { request with transaction := none }) else none
  some { ctx with transactionHeap := update ctx.transactionHeap t none }

/-- The request of a transaction goes, if it has one. -/
def dropRequest (t : Nat) (ctx : PointerContext) : Option PointerContext := do
  let node ← ctx.transactionHeap t
  match node.ongoingRequest with
  | none => some ctx
  | some r => do
      let ctx ← ctx.freeOngoingRequest r
      let node ← ctx.transactionHeap t
      some (ctx.setTransaction t { node with ongoingRequest := none })

/-- The type in the first byte of a packet. -/
def isConfirmable (packet : List UInt8) : Bool := (packet.headD 0 &&& 0x30) >>> 4 == 0

/-- `run_request_callback`: the callback of a request is called, if there is one. -/
def runRequestCallback (callback : PointerContext → Option PointerContext) (request : Option Nat)
    (ctx : PointerContext) : Option PointerContext :=
  match request with
  | none => some ctx
  | some r => do
      let node ← ctx.requestHeap r
      if node.callback then callback ctx else some ctx

/-- `coap_send_transaction`, with what it returns: whether the transaction was freed. -/
def coapSendTransaction (callback : PointerContext → Option PointerContext) (t : Nat)
    (ctx : PointerContext) : Option (Bool × PointerContext) := do
  let node ← ctx.transactionHeap t
  if isConfirmable node.packet then
    if node.retransCounter.toUInt16 < ctx.defaultRetransCnt then
      let ctx := ctx.setTransaction t
        { node with
          retransTimer := ctx.defaultRetransMs
          retransCounter := node.retransCounter + 1 }
      some (false, { ctx with txData := ctx.txData ++ [node.packet] })
    else
      let ctx ← ctx.runRequestCallback callback node.ongoingRequest
      let ctx ← ctx.dropRequest t
      let ctx ← ctx.coapClearTransaction t
      some (true, ctx)
  else
    let ctx ← { ctx with txData := ctx.txData ++ [node.packet] }.dropRequest t
    let ctx ← ctx.coapClearTransaction t
    some (true, ctx)

/-! ## Callbacks -/

/-- What a callback does; `index` counts the transactions it made. -/
inductive Script where
  | done
  | newTransaction (now : UInt32) (mid : UInt16) (packet : List UInt8) (rest : Script)
  | setResponseHandler (index : Nat) (token : List UInt8) (observe callback : Bool) (rest : Script)
  | sendTransaction (index : Nat) (callback rest : Script)

/-- A transaction that may be armed: it is there, and has no handler yet. -/
def canArm (t : Nat) (ctx : PointerContext) : Bool :=
  (ctx.transactionHeap t).any (·.ongoingRequest.isNone)

/-- A callback is run; `made` are the transactions it made so far. Calls on a transaction that
is gone, and a second handler for one, are none that it may make. -/
def runScript : Script → List Nat → PointerContext → Option PointerContext
  | .done, _, ctx => some ctx
  | .newTransaction now mid packet rest, made, ctx => do
      let (t, ctx) ← ctx.coapNewTransaction now mid packet
      runScript rest (made ++ [t]) ctx
  | .setResponseHandler index token observe callback rest, made, ctx => do
      match made[index]? with
      | none => runScript rest made ctx
      | some t =>
        if ctx.canArm t then
          runScript rest made (← ctx.coapSetResponseHandler t token observe callback)
        else runScript rest made ctx
  | .sendTransaction index callback rest, made, ctx => do
      match made[index]? with
      | none => runScript rest made ctx
      | some t =>
        if (ctx.transactionHeap t).isSome then
          let (_, ctx) ← ctx.coapSendTransaction (runScript callback []) t
          runScript rest made ctx
        else runScript rest made ctx

/-! ## Packets -/

/-- A packet for the request of a transaction: an empty acknowledgement leaves it to wait. -/
def answerRequest (callback : PointerContext → Option PointerContext) (message : Packet)
    (request : Option Nat) (ctx : PointerContext) : Option PointerContext :=
  match request with
  | none => some ctx
  | some r => do
      let called := if message.code ≠ 0 ∨ message.type = .rst then
        ctx.runRequestCallback callback (some r) else some ctx
      let ctx ← called
      let node ← ctx.requestHeap r
      if (message.code ≠ 0 ∧ node.observe = false) ∨ message.type = .rst then
        ctx.freeOngoingRequest r else some ctx

/-- A packet for the request with its token. -/
def answerSeparately (callback : PointerContext → Option PointerContext) (message : Packet)
    (request : Option Nat) (ctx : PointerContext) : Option PointerContext :=
  match request with
  | none => some ctx
  | some r => do
      let ctx ← ctx.runRequestCallback callback (some r)
      let node ← ctx.requestHeap r
      if node.observe = false ∨ message.type = .rst then ctx.freeOngoingRequest r else some ctx

/-- `coap_handle_packet` for a packet that is no request, as far as it is about the lists: the
transaction with its message id, or the ongoing request with its token. -/
def matchPacket (callback : PointerContext → Option PointerContext) (message : Packet)
    (ctx : PointerContext) : Option PointerContext := do
  let found ← listFind (fun node : TransactionNode => node.mid = message.mid) ctx.transactionHeap
    ctx.nextAddress ctx.transactions
  match found with
  | some t => do
      let node ← ctx.transactionHeap t
      let ctx ← ctx.answerRequest callback message node.ongoingRequest
      ctx.coapClearTransaction t
  | none => do
      let request ← listFind (fun node : RequestNode => node.token = message.token.bytes)
        ctx.requestHeap ctx.nextAddress ctx.ongoingRequests
      ctx.answerSeparately callback message request

/-- `coap_handle_packet`. Serving a request changes neither list, and the acknowledgement of a
response has no transaction. -/
def coapHandlePacket (callback : PointerContext → Option PointerContext) (message : Packet)
    (ctx : PointerContext) : Option PointerContext :=
  if isRequest message then some ctx else ctx.matchPacket callback message

/-! ## Expiry -/

/-- `EXPIRY_HANDLING_NUM` -/
def expiryHandlingNum : Nat := 10

/-- The first loop of `coap_check_transactions`, from a transaction on: expired transactions
are noted, and taken out of the list unless they are at its front. -/
def collectExpired (elpasedMs : UInt32) : Nat → Option Nat → List Nat → UInt32 → Option Nat →
    Heap TransactionNode → Option (List Nat × UInt32 × Heap TransactionNode)
  | _, _, expired, nearest, none, heap => some (expired, nearest, heap)
  | 0, _, _, _, some _, _ => none
  | steps + 1, previous, expired, nearest, some t, heap => do
      let node ← heap t
      if elpasedMs ≥ node.retransTimer then
        let heap ← match previous with
          | none => some heap
          | some previous => do
              let before ← heap previous
              some (update heap previous (some { before with next := node.next }))
        let expired := expired ++ [t]
        if expired.length = expiryHandlingNum then some (expired, 0, heap)
        else collectExpired elpasedMs steps previous expired nearest (← heap t).next heap
      else
        let node := { node with retransTimer := node.retransTimer - elpasedMs }
        let nearest := if nearest > node.retransTimer then node.retransTimer else nearest
        collectExpired elpasedMs steps (some t) expired nearest node.next
          (update heap t (some node))

/-- The second loop: expired transactions are sent again, and those that are still there go to
the end of the list. -/
def resendExpired (callbacks : Nat → PointerContext → Option PointerContext) :
    List Nat → UInt32 → PointerContext → Option (UInt32 × PointerContext)
  | [], nearest, ctx => some (nearest, ctx)
  | t :: rest, nearest, ctx => do
      let (freed, ctx) ← ctx.coapSendTransaction (callbacks t) t
      if freed then resendExpired callbacks rest nearest ctx
      else
        let ctx ← ctx.addTransaction t
        let node ← ctx.transactionHeap t
        resendExpired callbacks rest
          (if nearest > node.retransTimer then node.retransTimer else nearest) ctx

/-- `coap_check_transactions`, with the nearest timeout it returns. -/
def coapCheckTransactions (callbacks : Nat → PointerContext → Option PointerContext) (now : UInt32)
    (ctx : PointerContext) : Option (UInt32 × PointerContext) := do
  let elpasedMs := getElpasedMs now ctx.lastChecktime
  let (expired, nearest, heap) ←
    collectExpired elpasedMs ctx.nextAddress none [] 60000 ctx.transactions ctx.transactionHeap
  resendExpired callbacks expired nearest { ctx with lastChecktime := now, transactionHeap := heap }

/-! ## Runs -/

/-- The calls on a context, with what the callbacks do that they run. -/
inductive Operation where
  | newTransaction (now : UInt32) (mid : UInt16) (packet : List UInt8)
  | setResponseHandler (t : Nat) (token : List UInt8) (observe callback : Bool)
  | sendTransaction (t : Nat) (callback : Script)
  | clearTransaction (t : Nat)
  | handlePacket (message : Packet) (callback : Script)
  | checkTransactions (now : UInt32) (callbacks : Nat → Script)

/-- A caller only passes transactions that are there, and sets no second handler. -/
def Permitted (ctx : PointerContext) : Operation → Prop
  | .setResponseHandler t _ _ _ => ctx.canArm t = true
  | .sendTransaction t _ => (ctx.transactionHeap t).isSome = true
  | .clearTransaction t => (ctx.transactionHeap t).isSome = true
  | _ => True

/-- One call. -/
def perform : Operation → PointerContext → Option PointerContext
  | .newTransaction now mid packet, ctx => (ctx.coapNewTransaction now mid packet).map (·.2)
  | .setResponseHandler t token observe callback, ctx =>
    ctx.coapSetResponseHandler t token observe callback
  | .sendTransaction t callback, ctx =>
    (ctx.coapSendTransaction (runScript callback []) t).map (·.2)
  | .clearTransaction t, ctx => ctx.coapClearTransaction t
  | .handlePacket message callback, ctx => ctx.coapHandlePacket (runScript callback []) message
  | .checkTransactions now callbacks, ctx =>
    (ctx.coapCheckTransactions (fun t => runScript (callbacks t) []) now).map (·.2)

end PointerContext

end Idrm.Coap
