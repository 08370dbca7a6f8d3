import Idrm.Coap.OverUdp

/-!
# Transactions and ongoing requests of a CoAP context

A transaction is a datagram that may have to be sent again, an ongoing request is a
callback that waits for a response. The two refer to each other while both live: a
separate response finds its request after the transaction is gone. Transactions and
requests are values with the address they were allocated at, and references are
addresses.

Retransmission timers are left open: which transactions expire, and when, is up to the
caller. A callback may work on the context itself, so the functions that call back
take it as a function on contexts; it has no result where the code has none.
-/

namespace Idrm.Coap

open Idrm.Lib Option List

/-- `coap_transaction_t`; `type` is the type in the first byte of its packet. -/
structure Transaction (A : Type) where
  ptr : Nat
  mid : UInt16
  retransCounter : UInt8
  addr : A
  type : CoapMessageType
  packet : List UInt8
  ongoingRequest : Option Nat

/-- `coap_ongoing_request_t`; a callback with its data is one of type `K`. -/
structure OngoingRequest (K : Type) where
  ptr : Nat
  token : List UInt8
  observe : Bool
  transaction : Option Nat
  callback : K

/-- `coap_context_t`, with the datagrams given to `tx_data` and what else its callbacks
work on. -/
structure CoapContext (A K E : Type) where
  transactions : List (Transaction A)
  ongoingRequests : List (OngoingRequest K)
  defaultRetransCnt : UInt16
  nextPtr : Nat
  txData : List (A × List UInt8)
  env : E

/-- `COAP_MAX_RETRANSMIT` -/
def coapMaxRetransmit : UInt16 := 4

section Context

variable {A K E : Type}

/-- `coap_context_new` -/
def coapContextNew (env : E) : CoapContext A K E where
  transactions := []
  ongoingRequests := []
  defaultRetransCnt := coapMaxRetransmit
  nextPtr := 1
  txData := []
  env := env

/-- Change the transaction at an address. -/
def modifyTransaction (ptr : Nat) (change : Transaction A → Transaction A)
    (ctx : CoapContext A K E) : CoapContext A K E :=
  { ctx with transactions := ctx.transactions.map fun t => if t.ptr = ptr then change t else t }

/-- Change the ongoing request at an address. -/
def modifyRequest (ptr : Nat) (change : OngoingRequest K → OngoingRequest K)
    (ctx : CoapContext A K E) : CoapContext A K E :=
  { ctx with
    ongoingRequests := ctx.ongoingRequests.map fun r => if r.ptr = ptr then change r else r }

/-- `coap_new_transaction` -/
def coapNewTransaction (mid : UInt16) (addr : A) (ctx : CoapContext A K E) :
    Nat × CoapContext A K E :=
  (ctx.nextPtr, { ctx with
    transactions := ctx.transactions ++ [⟨ctx.nextPtr, mid, 0, addr, .con, [], none⟩]
    nextPtr := ctx.nextPtr + 1 })

/-- `coap_set_response_handler`; without a token there is no request to wait for. -/
def coapSetResponseHandler (transaction : Nat) (message : Packet) (callback : K)
    (ctx : CoapContext A K E) : CoapContext A K E :=
  if message.token.bytes.length = 0 then ctx
  else
    let ctx := modifyTransaction transaction
      (fun t => { t with ongoingRequest := some ctx.nextPtr }) ctx
    { ctx with
      ongoingRequests := ctx.ongoingRequests ++
        [⟨ctx.nextPtr, message.token.bytes, message.isOption .observe, some transaction, callback⟩]
      nextPtr := ctx.nextPtr + 1 }

/-- `coap_clear_transaction` -/
def coapClearTransaction (transaction : Transaction A) (ctx : CoapContext A K E) :
    CoapContext A K E :=
  let ctx := { ctx with transactions := ctx.transactions.filter (·.ptr ≠ transaction.ptr) }
  match transaction.ongoingRequest with
  | none => ctx
  | some request => modifyRequest request (fun r => { r with transaction := none }) ctx

/-- `free_ongoing_request` -/
def freeOngoingRequest (request : OngoingRequest K) (ctx : CoapContext A K E) : CoapContext A K E :=
  let ctx := { ctx with ongoingRequests := ctx.ongoingRequests.filter (·.ptr ≠ request.ptr) }
  match request.transaction with
  | none => ctx
  | some transaction =>
    modifyTransaction transaction (fun t => { t with ongoingRequest := none }) ctx

/-- `coap_get_transaction_by_mid` -/
def coapGetTransactionByMid (ctx : CoapContext A K E) (mid : UInt16) : Option (Transaction A) :=
  ctx.transactions.find? fun t => t.mid = mid

/-- `coap_find_ongoing_request` -/
def coapFindOngoingRequest (ctx : CoapContext A K E) (token : List UInt8) :
    Option (OngoingRequest K) :=
  ctx.ongoingRequests.find? fun r => r.token = token

/-- The transaction at an address. -/
def CoapContext.transactionAt (ctx : CoapContext A K E) (ptr : Nat) : Option (Transaction A) :=
  ctx.transactions.find? fun t => t.ptr = ptr

/-- The ongoing request a reference leads to. -/
def CoapContext.requestAt (ctx : CoapContext A K E) (ptr : Option Nat) :
    Option (OngoingRequest K) :=
  ptr.bind fun ptr => ctx.ongoingRequests.find? fun r => r.ptr = ptr

/-- The packet a transaction sends, and sends again. -/
def setTransactionPacket (transaction : Nat) (message : Packet) (ctx : CoapContext A K E) :
    Option (CoapContext A K E) :=
  (coapSerializeMessage (coapMaxPacketSize + 1) message).map fun packet =>
    modifyTransaction transaction (fun t => { t with type := message.type, packet := packet }) ctx

/-- Free the request of a transaction, if it has one, and clear the transaction. -/
def endTransaction (transaction : Transaction A) (ctx : CoapContext A K E) : CoapContext A K E :=
  match ctx.requestAt transaction.ongoingRequest with
  | none => coapClearTransaction transaction ctx
  | some request =>
    coapClearTransaction { transaction with ongoingRequest := none }
      (freeOngoingRequest request ctx)

/-- `tx_data` -/
def transmit (addr : A) (packet : List UInt8) (ctx : CoapContext A K E) : CoapContext A K E :=
  { ctx with txData := ctx.txData ++ [(addr, packet)] }

/-- `send_coap_msg` to the address the last datagram came from. -/
def sendCoapMsg (source : A) (message : Packet) (ctx : CoapContext A K E) :
    Option (CoapContext A K E) :=
  (coapSerializeMessage coapMaxPacketSize message).map fun packet =>
    if packet.length > 0 then transmit source packet ctx else ctx

section Callbacks

variable (run : K → Option Packet → CoapContext A K E → Option (CoapContext A K E))

/-- `coap_send_transaction`: a confirmable packet stays until its retransmissions are
used up, anything else is sent once. -/
def coapSendTransaction (transaction : Transaction A) (ctx : CoapContext A K E) :
    Option (CoapContext A K E) :=
  if transaction.type = .con then
    if transaction.retransCounter.toUInt16 < ctx.defaultRetransCnt then
      some (transmit transaction.addr transaction.packet (modifyTransaction transaction.ptr
        (fun t => { t with retransCounter := t.retransCounter + 1 }) ctx))
    else
      match ctx.requestAt transaction.ongoingRequest with
      | none => some (endTransaction transaction ctx)
      | some request => (run request.callback none ctx).map (endTransaction transaction)
  else some (endTransaction transaction (transmit transaction.addr transaction.packet ctx))

/-- The body of the second loop of `coap_check_transactions`: an expired transaction is
sent again and, if it is still there, goes to the end of the list. -/
def resendTransaction (transaction : Transaction A) (ctx : CoapContext A K E) :
    Option (CoapContext A K E) :=
  (coapSendTransaction run transaction ctx).map fun ctx =>
    { ctx with
      transactions := ctx.transactions.filter (·.ptr ≠ transaction.ptr) ++
        ctx.transactions.filter (·.ptr = transaction.ptr) }

/-- The part of `coap_handle_packet` that looks for the request a response belongs to:
by message id, then by token. -/
def matchResponse (message : Packet) (ctx : CoapContext A K E) : Option (CoapContext A K E) :=
  match coapGetTransactionByMid ctx message.mid with
  | some transaction =>
    match ctx.requestAt transaction.ongoingRequest with
    | none => some (coapClearTransaction transaction ctx)
    | some request =>
      (if message.code ≠ 0 ∨ message.type = .rst then run request.callback (some message) ctx
        else some ctx).map fun ctx =>
          if (message.code ≠ 0 ∧ request.observe = false) ∨ message.type = .rst
          then endTransaction transaction ctx else coapClearTransaction transaction ctx
  | none =>
    match coapFindOngoingRequest ctx message.token.bytes with
    | none => some ctx
    | some request =>
      (run request.callback (some message) ctx).map fun ctx =>
        if request.observe = false ∨ message.type = .rst then
          freeOngoingRequest request ctx else ctx

/-- `coap_handle_packet` for a packet that is no request: a confirmable one is
acknowledged. -/
def coapHandleResponse (source : A) (message : Packet) (ctx : CoapContext A K E) :
    Option (CoapContext A K E) :=
  (matchResponse run message ctx).bind fun ctx =>
    if message.type = .con then
      sendCoapMsg source (coapInitMessage .ack 0 message.mid) ctx else some ctx

end Callbacks

/-! ## What is left of the requests -/

/-- Only requests that were there before are left, with their tokens and callbacks. -/
structure OnlyLeaves (before after : CoapContext A K E) : Prop where
  env : after.env = before.env
  requests : ∀ r ∈ after.ongoingRequests, ∃ old ∈ before.ongoingRequests,
    old.token = r.token ∧ old.callback = r.callback

theorem OnlyLeaves.refl (ctx : CoapContext A K E) : OnlyLeaves ctx ctx :=
  ⟨rfl, fun r member => ⟨r, member, rfl, rfl⟩⟩

theorem OnlyLeaves.trans {first second third : CoapContext A K E} (one : OnlyLeaves first second)
    (two : OnlyLeaves second third) : OnlyLeaves first third where
  env := two.env.trans one.env
  requests := by
    intro r member
    obtain ⟨middle, middleMember, token, callback⟩ := two.requests r member
    obtain ⟨old, oldMember, oldToken, oldCallback⟩ := one.requests middle middleMember
    exact ⟨old, oldMember, oldToken.trans token, oldCallback.trans callback⟩

theorem modifyTransaction_leaves (ptr : Nat) (change : Transaction A → Transaction A)
    (ctx : CoapContext A K E) : OnlyLeaves ctx (modifyTransaction ptr change ctx) :=
  ⟨rfl, fun r member => ⟨r, member, rfl, rfl⟩⟩

theorem transmit_leaves (addr : A) (packet : List UInt8) (ctx : CoapContext A K E) :
    OnlyLeaves ctx (transmit addr packet ctx) :=
  ⟨rfl, fun r member => ⟨r, member, rfl, rfl⟩⟩

theorem coapClearTransaction_leaves (transaction : Transaction A) (ctx : CoapContext A K E) :
    OnlyLeaves ctx (coapClearTransaction transaction ctx) := by
  unfold coapClearTransaction
  cases transaction.ongoingRequest with
  | none => exact ⟨rfl, fun r member => ⟨r, member, rfl, rfl⟩⟩
  | some request =>
    refine ⟨rfl, fun r member => ?_⟩
    obtain ⟨old, oldMember, rfl⟩ := List.mem_map.mp member
    refine ⟨old, oldMember, ?_⟩
    split <;> exact ⟨rfl, rfl⟩

theorem freeOngoingRequest_leaves (request : OngoingRequest K) (ctx : CoapContext A K E) :
    OnlyLeaves ctx (freeOngoingRequest request ctx) := by
  unfold freeOngoingRequest
  cases request.transaction <;>
    exact ⟨rfl, fun r member => ⟨r, (mem_filter.mp member).1, rfl, rfl⟩⟩

theorem endTransaction_leaves (transaction : Transaction A) (ctx : CoapContext A K E) :
    OnlyLeaves ctx (endTransaction transaction ctx) := by
  unfold endTransaction
  split
  · exact coapClearTransaction_leaves transaction ctx
  · exact (freeOngoingRequest_leaves _ ctx).trans (coapClearTransaction_leaves _ _)

theorem sendCoapMsg_leaves {source : A} {message : Packet} {ctx next : CoapContext A K E}
    (sends : sendCoapMsg source message ctx = some next) : OnlyLeaves ctx next := by
  obtain ⟨packet, -, rfl⟩ := map_eq_some_iff.mp sends
  split
  · exact transmit_leaves source packet ctx
  · exact .refl ctx

section Callbacks

variable {run : K → Option Packet → CoapContext A K E → Option (CoapContext A K E)}
  {ctx next : CoapContext A K E}

/-- A transaction that is sent calls back at most once, with nothing. -/
theorem coapSendTransaction_cases {transaction : Transaction A}
    (sends : coapSendTransaction run transaction ctx = some next) : OnlyLeaves ctx next ∨
    ∃ request called, ctx.requestAt transaction.ongoingRequest = some request ∧
    run request.callback none ctx = some called ∧ OnlyLeaves called next := by
  unfold coapSendTransaction at sends
  split at sends
  · split at sends
    · cases sends
      exact .inl ((modifyTransaction_leaves _ _ ctx).trans (transmit_leaves _ _ _))
    · split at sends
      · cases sends
        exact .inl (endTransaction_leaves transaction ctx)
      · rename_i request found
        obtain ⟨called, calls, rfl⟩ := map_eq_some_iff.mp sends
        exact .inr ⟨request, called, found, calls, endTransaction_leaves transaction called⟩
  · cases sends
    exact .inl ((transmit_leaves _ _ ctx).trans (endTransaction_leaves transaction _))

/-- Sending a transaction again does what sending it does, and sorts it to the end. -/
theorem resendTransaction_cases {transaction : Transaction A}
    (resends : resendTransaction run transaction ctx = some next) :
    ∃ sent, coapSendTransaction run transaction ctx = some sent ∧ OnlyLeaves sent next := by
  obtain ⟨sent, sends, rfl⟩ := map_eq_some_iff.mp resends
  exact ⟨sent, sends, rfl, fun r member => ⟨r, member, rfl, rfl⟩⟩

/-- A response calls back at most the request it is matched with: the one of a
transaction with its message id, or one with its token. -/
theorem matchResponse_cases {message : Packet}
    (matched : matchResponse run message ctx = some next) : OnlyLeaves ctx next ∨ ∃ request called,
    ((∃ transaction ∈ ctx.transactions, transaction.mid = message.mid ∧
      ctx.requestAt transaction.ongoingRequest = some request) ∨
        (request ∈ ctx.ongoingRequests ∧ request.token = message.token.bytes)) ∧
      run request.callback (some message) ctx = some called ∧ OnlyLeaves called next := by
  unfold matchResponse at matched
  split at matched
  · rename_i transaction found
    have member := mem_of_find?_eq_some found
    have mid : transaction.mid = message.mid := by simpa using List.find?_some found
    split at matched
    · cases matched
      exact .inl (coapClearTransaction_leaves transaction ctx)
    · rename_i request linked
      obtain ⟨called, calls, rfl⟩ := map_eq_some_iff.mp matched
      have leaves : OnlyLeaves called
          (if (message.code ≠ 0 ∧ request.observe = false) ∨ message.type = .rst then
          endTransaction transaction called else coapClearTransaction transaction called) := by
        split
        · exact endTransaction_leaves transaction called
        · exact coapClearTransaction_leaves transaction called
      split at calls
      · exact .inr ⟨request, called, .inl ⟨transaction, member, mid, linked⟩, calls, leaves⟩
      · cases calls
        exact .inl leaves
  · split at matched
    · cases matched
      exact .inl (.refl ctx)
    · rename_i request found
      have member := mem_of_find?_eq_some found
      have token : request.token = message.token.bytes := by simpa using List.find?_some found
      obtain ⟨called, calls, rfl⟩ := map_eq_some_iff.mp matched
      refine .inr ⟨request, called, .inr ⟨member, token⟩, calls, ?_⟩
      split
      · exact freeOngoingRequest_leaves request called
      · exact .refl called

/-- A handled packet adds at most an acknowledgement to that. -/
theorem coapHandleResponse_cases {source : A} {message : Packet}
    (handled : coapHandleResponse run source message ctx = some next) :
    ∃ middle, matchResponse run message ctx = some middle ∧ OnlyLeaves middle next := by
  obtain ⟨middle, matched, rest⟩ := bind_eq_some_iff.mp handled
  refine ⟨middle, matched, ?_⟩
  split at rest
  · exact sendCoapMsg_leaves rest
  · cases rest
    exact .refl _

end Callbacks

theorem requestAt_mem {ctx : CoapContext A K E} {ptr : Option Nat} {request : OngoingRequest K}
    (found : ctx.requestAt ptr = some request) : request ∈ ctx.ongoingRequests := by
  obtain ⟨ptr, -, found⟩ := bind_eq_some_iff.mp found
  exact mem_of_find?_eq_some found

end Context

end Idrm.Coap
