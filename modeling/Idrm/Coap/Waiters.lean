import Idrm.Lib.Promises
import Idrm.Coap.LiveTransfers

/-!
# Who waits for an answer

Every ongoing request of a client leads to the callback of a user, or to none: directly, or by
the state of its transfer. `waitsFor` is that as a map from the addresses of the requests, and
`Attended` says that whoever waits has a transaction whose timer runs. An event either leaves
the map alone, or a user's callback is called and its request goes, or a transfer goes on under
the address of its next request.
-/

namespace Idrm.Coap

open Idrm.Lib Option

variable {A U : Type} {ctx after : ClientContext A U} {r t ptr : Nat}

/-- The user's callback that the callback of a request leads to. -/
def userOf (ctx : ClientContext A U) : ClientCallback U → Option U
  | .user callback => callback
  | .put ptr => (stateAt ctx ptr).bind (·.responseCallback)
  | .request ptr => (stateAt ctx ptr).bind (·.responseCallback)

/-- The user's callback that the request at an address leads to. -/
def waitsFor (ctx : ClientContext A U) (r : Nat) : Option U :=
  (ctx.ongoingAt r).bind fun request => userOf ctx request.callback

/-- A message that is sent until it is answered, and whose request goes with the answer. -/
structure Persistent (request : Packet) : Prop where
  con : request.type = .con
  token : request.token.bytes.length ≠ 0
  unobserved : request.isOption .observe = false

/-- A request can ask again, and has a transaction if it leads to a user. -/
structure Tended (ctx : ClientContext A U) (request : OngoingRequest (ClientCallback U)) :
    Prop where
  unobserved : request.observe = false
  sendable : ∀ ptr, request.callback.stateOf = some ptr → ∃ state,
    stateAt ctx ptr = some state ∧ Persistent state.request
  timed : userOf ctx request.callback ≠ none → request.transaction ≠ none

/-- What is still there was sent to be answered. -/
def AllConfirmable (ctx : ClientContext A U) : Prop := ∀ t node, ctx.transactionAt t = some node →
    node.type = .con

/-- Whoever waits has a timer, with some requests set aside. -/
structure Attended (aside : Set Nat) (ctx : ClientContext A U) : Prop where
  alive : Alive aside ctx
  confirmable : AllConfirmable ctx
  tended : ∀ r ∉ aside, ∀ request, ctx.ongoingAt r = some request → Tended ctx request

/-! ## Changes of the map -/

theorem userOf_congr (same : stateAt after = stateAt ctx) : userOf after = userOf ctx := by
  funext callback
  cases callback with
  | user callback => rfl
  | put ptr => rw [userOf, userOf, same]
  | request ptr => rw [userOf, userOf, same]

theorem stateAt_of_env (same : after.env = ctx.env) : stateAt after = stateAt ctx :=
  funext fun ptr => stateAt_congr same ptr

theorem waitsFor_congr (ongoing : after.ongoingAt = ctx.ongoingAt)
    (states : stateAt after = stateAt ctx) : waitsFor after = waitsFor ctx := by
  funext r
  rw [waitsFor, waitsFor, ongoing, userOf_congr states]

/-- One request comes, changes or goes. -/
theorem waitsFor_update {node : Option (OngoingRequest (ClientCallback U))}
    (ongoing : after.ongoingAt = Function.update ctx.ongoingAt r node)
    (states : stateAt after = stateAt ctx) : waitsFor after = Function.update (waitsFor ctx) r
      (node.bind fun request => userOf ctx request.callback) := by
  funext other
  rw [waitsFor, ongoing, userOf_congr states]
  by_cases same : other = r
  · rw [same, Function.update_self, Function.update_self]
  · rw [Function.update_of_ne same, Function.update_of_ne same, waitsFor]

/-- The user is found in the state of the callback alone. -/
theorem userOf_owned {callback : ClientCallback U}
    (same : ∀ ptr, callback.stateOf = some ptr → stateAt after ptr = stateAt ctx ptr) :
    userOf after callback = userOf ctx callback := by
  cases callback with
  | user callback => rfl
  | put ptr => rw [userOf, userOf, same ptr rfl]
  | request ptr => rw [userOf, userOf, same ptr rfl]

section Owned

variable {aside aside' : Set Nat} {request : OngoingRequest (ClientCallback U)}
  {entry : Option (RequestState U)}

/-- A spare state is no request's. -/
theorem Spare.elsewhere (spare : Spare aside ptr ctx)
    (states : stateAt after = Function.update (stateAt ctx) ptr entry)
    (out : r ∉ aside) (there : ctx.ongoingAt r = some request) :
    ∀ owned, request.callback.stateOf = some owned → stateAt after owned = stateAt ctx owned := by
  intro owned isOwner
  have different : owned ≠ ptr :=
    fun same => spare r out (ownerOf_some.mpr ⟨request, there, same ▸ isOwner⟩)
  rw [states, Function.update_of_ne different]

/-- A state that no request has may change. -/
theorem waitsFor_of_spare (spare : Spare aside ptr ctx) (ongoing : after.ongoingAt = ctx.ongoingAt)
    (states : stateAt after = Function.update (stateAt ctx) ptr entry) (out : r ∉ aside) :
    waitsFor after r = waitsFor ctx r := by
  rw [waitsFor, waitsFor, ongoing]
  cases there : ctx.ongoingAt r with
  | none => rfl
  | some request => exact userOf_owned (spare.elsewhere states out there)

theorem Tended.congr (tended : Tended ctx request)
    (same : ∀ ptr, request.callback.stateOf = some ptr → stateAt after ptr = stateAt ctx ptr) :
    Tended after request where
  unobserved := tended.unobserved
  sendable ptr owner := by
    obtain ⟨state, found, persistent⟩ := tended.sendable ptr owner
    exact ⟨state, (same ptr owner).trans found, persistent⟩
  timed := by
    rw [userOf_owned same]
    exact tended.timed

/-- Requests that are left alone stay tended. -/
theorem Attended.leave (attended : Attended aside ctx)
    (alive : Alive aside' after) (confirmable : AllConfirmable after)
    (leaves : ∀ r ∉ aside', ∀ request, after.ongoingAt r = some request → Tended after request ∨
      r ∉ aside ∧ ctx.ongoingAt r = some request ∧ ∀ ptr, request.callback.stateOf = some ptr →
      stateAt after ptr = stateAt ctx ptr) : Attended aside' after := by
  refine ⟨alive, confirmable, fun r out request there => ?_⟩
  rcases leaves r out request there with tended | ⟨outBefore, before, same⟩
  · exact tended
  · exact (attended.tended r outBefore request before).congr same

theorem AllConfirmable.update {node : Option (Transaction A)} (confirmable : AllConfirmable ctx)
    (updated : after.transactionAt = Function.update ctx.transactionAt t node)
    (con : ∀ one, node = some one → one.type = .con) : AllConfirmable after := by
  intro other one found
  rw [updated] at found
  by_cases same : other = t
  · rw [same, Function.update_self] at found
    exact con one found
  · rw [Function.update_of_ne same] at found
    exact confirmable other one found

theorem Attended.mono (attended : Attended aside ctx) (more : aside ⊆ aside') :
    Attended aside' ctx :=
  ⟨attended.alive.mono more, attended.confirmable,
    fun r out => attended.tended r fun member => out (more member)⟩

end Owned

/-! ## A message goes out -/

/-- A new transaction with its packet and its request, ready to be sent. -/
structure Armed (t : Nat) (message request : Packet) (callback : ClientCallback U)
    (ctx ready : ClientContext A U) : Prop where
  tidy : Tidy ready
  retries : 0 < ready.defaultRetransCnt
  env : ready.env = ctx.env
  others : ∀ other ≠ t, ready.transactionAt other = ctx.transactionAt other
  transaction : ∃ node,
    ready.transactionAt t = some node ∧ node.retransCounter = 0 ∧ node.type = message.type ∧
    node.ongoingRequest = if request.token.bytes.length = 0 then none else some ctx.nextPtr
  ongoing : ready.ongoingAt = if request.token.bytes.length = 0 then ctx.ongoingAt else
    Function.update ctx.ongoingAt ctx.nextPtr
      (some ⟨ctx.nextPtr, request.token.bytes, request.isOption .observe, some t, callback⟩)

section Sending

variable {message request : Packet} {callback : ClientCallback U}
  {packed ready sent : ClientContext A U}

/-- The request of a new transaction. -/
theorem setResponseHandler_armed (tidy : Tidy ctx) (fresh : Fresh t ctx) (request : Packet)
    (callback : ClientCallback U) : Tidy (coapSetResponseHandler t request callback ctx) ∧
    (coapSetResponseHandler t request callback ctx).defaultRetransCnt = ctx.defaultRetransCnt ∧
    (∀ other ≠ t, (coapSetResponseHandler t request callback ctx).transactionAt other =
      ctx.transactionAt other) ∧
    (∃ node, (coapSetResponseHandler t request callback ctx).transactionAt t = some node ∧
      node.retransCounter = 0 ∧
      (∀ before, ctx.transactionAt t = some before → node.type = before.type) ∧
      node.ongoingRequest = if request.token.bytes.length = 0 then none else some ctx.nextPtr) ∧
    (coapSetResponseHandler t request callback ctx).ongoingAt = if request.token.bytes.length =
      0 then ctx.ongoingAt else
        Function.update ctx.ongoingAt ctx.nextPtr (some ⟨ctx.nextPtr, request.token.bytes,
          request.isOption .observe, some t, callback⟩) := by
  obtain ⟨node, found, unsent, unarmed⟩ := fresh
  refine ⟨tidy.coapSetResponseHandler found unarmed request callback, ?_⟩
  by_cases token : request.token.bytes.length = 0
  · rw [coapSetResponseHandler_noToken token, if_pos token, if_pos token]
    refine ⟨rfl, fun _ _ => rfl, ⟨node, found, unsent, fun before same => ?_, unarmed⟩, rfl⟩
    rw [found] at same
    rw [some.inj same]
  · rw [if_neg token, if_neg token, coapSetResponseHandler_transactionAt callback token found,
      coapSetResponseHandler_ongoingAt t callback token tidy.allocated]
    refine ⟨?_, fun other different => Function.update_of_ne different ..,
      ⟨_, Function.update_self .., unsent, fun before same => ?_, rfl⟩, rfl⟩
    · rw [coapSetResponseHandler_token token]
      rfl
    · rw [found] at same
      rw [← some.inj same]

theorem armed_first (tidy : Tidy ctx) (retries : 0 < ctx.defaultRetransCnt) (fresh : Fresh t ctx)
    (packs : setTransactionPacket t message (coapSetResponseHandler t request callback ctx) =
      some ready) : Armed t message request callback ctx ready := by
  obtain ⟨tidyArmed, sameRetries, others, ⟨node, found, unsent, -, linked⟩, ongoing⟩ :=
    setResponseHandler_armed tidy fresh request callback
  obtain ⟨packet, rfl⟩ := setTransactionPacket_cases packs
  refine ⟨tidyArmed.modifyTransaction t _ (fun _ => rfl) fun _ => rfl, sameRetries.symm ▸ retries,
    coapSetResponseHandler_env t request callback ctx, fun other different => ?_,
    ⟨node.packed message.type packet, ?_, unsent, rfl, linked⟩, ongoing⟩
  · rw [modifyTransaction_at t (Transaction.packed message.type packet) fun _ => rfl,
      Function.update_of_ne different, others other different]
  · rw [modifyTransaction_at t (Transaction.packed message.type packet) fun _ => rfl,
      Function.update_self, found, map_some]

theorem armed_last (tidy : Tidy ctx) (retries : 0 < ctx.defaultRetransCnt) (fresh : Fresh t ctx)
    (packs : setTransactionPacket t message ctx = some packed) :
    Armed t message request callback ctx (coapSetResponseHandler t request callback packed) := by
  obtain ⟨node, found, unsent, unarmed⟩ := fresh
  obtain ⟨packet, rfl⟩ := setTransactionPacket_cases packs
  have here : (modifyTransaction t (Transaction.packed message.type packet) ctx).transactionAt t =
      some (node.packed message.type packet) := by
    rw [modifyTransaction_at t (Transaction.packed message.type packet) fun _ => rfl,
      Function.update_self, found, map_some]
  have tidyPacked :=
    tidy.modifyTransaction t (Transaction.packed message.type packet) (fun _ => rfl) fun _ => rfl
  obtain ⟨tidyArmed, sameRetries, others,
      ⟨armed, foundArmed, unsentArmed, type, linked⟩, ongoing⟩ :=
    setResponseHandler_armed tidyPacked ⟨_, here, unsent, unarmed⟩ request callback
  refine ⟨tidyArmed, sameRetries.symm ▸ retries, coapSetResponseHandler_env t request callback _,
    fun other different => ?_, ⟨armed, foundArmed, unsentArmed, type _ here, linked⟩, ongoing⟩
  rw [others other different, modifyTransaction_at t (Transaction.packed message.type packet)
    fun _ => rfl, Function.update_of_ne different]

/-- Only the new transaction differs. -/
theorem Armed.update (armed : Armed t message request callback ctx ready)
    (node : Option (Transaction A)) :
    Function.update ready.transactionAt t node = Function.update ctx.transactionAt t node := by
  funext other
  by_cases same : other = t
  · rw [same, Function.update_self, Function.update_self]
  · rw [Function.update_of_ne same, Function.update_of_ne same, armed.others other same]

/-- A confirmable message stays, and its request with it. -/
theorem Armed.send_con (armed : Armed t message request callback ctx ready)
    (con : message.type = .con) (sends : sendTransactionAt t ready = some sent) :
    sent.env = ctx.env ∧ sent.ongoingAt = ready.ongoingAt ∧ ∃ node,
    sent.transactionAt = Function.update ctx.transactionAt t (some node) ∧ node.type = .con := by
  obtain ⟨node, found, unsent, type, -⟩ := armed.transaction
  have waits : node.retransCounter.toUInt16 < ready.defaultRetransCnt := by
    rw [unsent]
    exact armed.retries
  have here := transactionAt_ptr found
  rw [sendTransactionAt, found, bind_some, coapSendTransaction, if_pos (type.trans con),
    if_pos waits] at sends
  cases sends
  refine ⟨armed.env, rfl, node.counted, ?_, type.trans con⟩
  change (modifyTransaction node.ptr Transaction.counted ready).transactionAt = _
  rw [here, modifyTransaction_at t Transaction.counted fun _ => rfl, found, map_some, armed.update]

/-- Any other message is sent once, and its request goes. -/
theorem Armed.send_once (armed : Armed t message request callback ctx ready)
    (allocated : Allocated ctx)
    (once : message.type ≠ .con) (sends : sendTransactionAt t ready = some sent) :
    sent.env = ctx.env ∧ sent.ongoingAt = ctx.ongoingAt ∧
    sent.transactionAt = Function.update ctx.transactionAt t none := by
  obtain ⟨node, found, unsent, type, linked⟩ := armed.transaction
  rw [sendTransactionAt, found, bind_some, coapSendTransaction,
    if_neg (fun con => once (type.symm.trans con))] at sends
  cases sends
  have tidySent : Tidy (transmit node.addr node.packet ready) :=
    ⟨⟨armed.tidy.allocated.transactions, armed.tidy.allocated.requests⟩, armed.tidy.transactions,
      armed.tidy.requests, armed.tidy.paired⟩
  have foundSent : (transmit node.addr node.packet ready).transactionAt t = some node := found
  refine ⟨(endTransaction_rest node _).env.trans armed.env, ?_,
    (endTransaction_transactionAt tidySent foundSent).trans (armed.update none)⟩
  have ongoing : (transmit node.addr node.packet ready).ongoingAt = _ := armed.ongoing
  by_cases token : request.token.bytes.length = 0
  · rw [if_pos token] at linked ongoing
    rw [endTransaction_single linked, coapClearTransaction_single linked]
    exact ongoing
  · rw [if_neg token] at linked ongoing
    rw [endTransaction_ongoingAt tidySent foundSent linked, ongoing, Function.update_idem,
      ← allocated.request_fresh, Function.update_eq_self]

end Sending

/-! ## A transfer goes on -/

theorem Persistent.block1 {request : Packet} (persistent : Persistent request) (num : UInt32)
    (more : Bool) (size : UInt16) : Persistent (coapSetHeaderBlock1 num more size request) := by
  unfold coapSetHeaderBlock1
  split
  · exact persistent
  · refine ⟨persistent.con, persistent.token, ?_⟩
    have unobserved : CoapOption.observe.number ∉ request.options :=
      of_decide_eq_false persistent.unobserved
    exact decide_eq_false fun member => unobserved
      ((Finset.mem_insert.mp member).resolve_left (by decide))

theorem Persistent.block2 {request : Packet} (persistent : Persistent request) (num : UInt32)
    (more : Bool) (size : UInt16) : Persistent (coapSetHeaderBlock2 num more size request) := by
  unfold coapSetHeaderBlock2
  split
  · exact persistent
  · refine ⟨persistent.con, persistent.token, ?_⟩
    have unobserved : CoapOption.observe.number ∉ request.options :=
      of_decide_eq_false persistent.unobserved
    exact decide_eq_false fun member => unobserved
      ((Finset.mem_insert.mp member).resolve_left (by decide))

theorem Persistent.nextPutBlock {state : RequestState U}
    {message : Packet} (persistent : Persistent state.request)
    (next : nextPutBlock state = some message) : Persistent message := by
  unfold Coap.nextPutBlock at next
  simp only [ite_none_right_eq_some] at next
  obtain ⟨-, next⟩ := next
  obtain rfl := some.inj next
  have taken (payload : List UInt8) : Persistent (coapSetPayload payload state.request) :=
    ⟨persistent.con, persistent.token, persistent.unobserved⟩
  exact (taken _).block1 _ _ _

/-- A transfer has sent its next message, and waits under a new request. -/
structure Renewed (callback : ClientCallback U) (state : RequestState U)
    (ctx after : ClientContext A U) : Prop where
  state : ∃ last, stateAt after = Function.update (stateAt ctx) state.ptr (some last) ∧
    Persistent last.request ∧ last.responseCallback = state.responseCallback
  called : after.env.called = ctx.env.called
  confirmable : AllConfirmable ctx → AllConfirmable after
  ongoing : ∃ token transaction, after.ongoingAt = Function.update ctx.ongoingAt (ctx.nextPtr + 1)
    (some ⟨ctx.nextPtr + 1, token, false, some transaction, callback⟩)

section Transfers

variable {aside : Set Nat} {state stored : RequestState U} {message request : Packet}
  {callback : ClientCallback U}
  {packed sent : ClientContext A U}

/-- A state is stored, and its confirmable message sent. -/
theorem sendStored (alive : Alive aside ctx) (state : RequestState U) (fresh : Fresh t ctx)
    (found : stateAt ctx state.ptr = some stored) (spare : Spare aside state.ptr ctx)
    (con : message.type = .con) (persistent : Persistent request) (packs : setTransactionPacket
      t message (coapSetResponseHandler t request callback (storeState state ctx)) = some packed)
    (sends : sendTransactionAt t packed = some sent) :
    stateAt sent = Function.update (stateAt ctx) state.ptr (some state) ∧
    sent.env.called = ctx.env.called ∧ sent.ongoingAt = Function.update ctx.ongoingAt ctx.nextPtr
      (some ⟨ctx.nextPtr, request.token.bytes, false, some t, callback⟩) ∧ ∃ node,
    sent.transactionAt = Function.update ctx.transactionAt t (some node) ∧ node.type = .con := by
  have aliveStored := alive.storeState spare
  have armed := armed_first aliveStored.tidy aliveStored.retries fresh packs
  obtain ⟨env, ongoing, live⟩ := armed.send_con con sends
  have armedOngoing := armed.ongoing
  rw [if_neg persistent.token, persistent.unobserved] at armedOngoing
  have called : sent.env.called = (storeState state ctx).env.called := congrArg ClientEnv.called env
  refine ⟨?_, called, ongoing.trans armedOngoing, live⟩
  rw [stateAt_of_env env, stateAt_storeState, found, map_some]

theorem sent_confirmable (alive : Alive aside ctx) {addr : A} {node : Transaction A}
    (live : sent.transactionAt = Function.update (coapNewTransaction (coapGetMid ctx).1 addr
      (coapGetMid ctx).2).2.transactionAt ctx.nextPtr (some node))
    (con : node.type = .con) (confirmable : AllConfirmable ctx) : AllConfirmable sent := by
  have allocated : Allocated (coapGetMid ctx).2 := alive.tidy.allocated.withEnv _
  have made : sent.transactionAt = Function.update ctx.transactionAt ctx.nextPtr (some node) := by
    rw [live, coapNewTransaction_at allocated]
    exact Function.update_idem ..
  exact confirmable.update made fun one isNode => some.inj isNode ▸ con

theorem continuePut_renewed (alive : Alive aside ctx) (found : stateAt ctx state.ptr = some stored)
    (spare : Spare aside state.ptr ctx) (persistent : Persistent state.request)
    (goes : continuePut state ctx = some after) : Renewed (.put state.ptr) state ctx after := by
  obtain ⟨old, -, goes⟩ := bind_eq_some_iff.mp goes
  obtain ⟨message, isNext, goes⟩ := bind_eq_some_iff.mp goes
  obtain ⟨made, fresh, -⟩ := alive.numberedTransaction old.addr
  obtain ⟨packed, packs, goes⟩ := bind_eq_some_iff.mp goes
  obtain ⟨sent, sends, rfl⟩ := map_eq_some_iff.mp goes
  have renewed : Persistent (state.renew (coapGetMid ctx).1 ctx.nextPtr).request :=
    ⟨persistent.con, persistent.token, persistent.unobserved⟩
  have whole := renewed.nextPutBlock isNext
  obtain ⟨states, called, ongoing, node, live, con⟩ :=
    sendStored made (state.renew (coapGetMid ctx).1 ctx.nextPtr) fresh found spare whole.con
      whole packs sends
  have stays : (sent.transactionAt ctx.nextPtr).isNone = false := by
    rw [live, Function.update_self]
    rfl
  rw [if_neg (Bool.eq_false_iff.mp stays)]
  exact ⟨⟨_, states, ⟨persistent.con, persistent.token, persistent.unobserved⟩, rfl⟩, called,
    sent_confirmable alive live con, _, _, ongoing⟩

theorem continueRequest_renewed (alive : Alive aside ctx)
    (found : stateAt ctx state.ptr = some stored)
    (spare : Spare aside state.ptr ctx) (persistent : Persistent state.request)
    (goes : continueRequest state ctx = some after) :
    Renewed (.request state.ptr) state ctx after := by
  obtain ⟨old, -, goes⟩ := bind_eq_some_iff.mp goes
  obtain ⟨made, fresh, -⟩ := alive.numberedTransaction old.addr
  obtain ⟨packed, packs, sends⟩ := bind_eq_some_iff.mp goes
  rw [storeState_setResponseHandler] at packs
  have renewed : Persistent (state.renew (coapGetMid ctx).1 ctx.nextPtr).request :=
    ⟨persistent.con, persistent.token, persistent.unobserved⟩
  have whole : Persistent (nextRequest (state.renew (coapGetMid ctx).1 ctx.nextPtr)) := by
    unfold nextRequest
    split
    · exact renewed.block2 _ _ _
    · exact renewed
  obtain ⟨states, called, ongoing, node, live, con⟩ :=
    sendStored made { state.renew (coapGetMid ctx).1 ctx.nextPtr with
    request := nextRequest (state.renew (coapGetMid ctx).1 ctx.nextPtr) } fresh found spare
      whole.con renewed packs sends
  exact ⟨⟨_, states, whole, rfl⟩, called, sent_confirmable alive live con, _, _, ongoing⟩

/-- The new request of a transfer waits for the same user, and nothing else changes. -/
theorem Renewed.waitsFor (renewed : Renewed callback state ctx after)
    (owner : callback.stateOf = some state.ptr)
    (spare : Spare aside state.ptr ctx) (out : r ∉ aside) :
    waitsFor after r = Function.update (waitsFor ctx)
    (ctx.nextPtr + 1) state.responseCallback r := by
  obtain ⟨last, states, -, sameUser⟩ := renewed.state
  obtain ⟨token, transaction, ongoing⟩ := renewed.ongoing
  by_cases new : r = ctx.nextPtr + 1
  · have here : stateAt after state.ptr = some last := by rw [states, Function.update_self]
    have user : userOf after callback = state.responseCallback := by
      cases callback with
      | user callback => cases owner
      | put ptr =>
        cases owner
        rw [userOf, here]
        exact sameUser
      | request ptr =>
        cases owner
        rw [userOf, here]
        exact sameUser
    rw [new, Function.update_self, Coap.waitsFor, ongoing, Function.update_self]
    exact user
  · rw [Function.update_of_ne new, Coap.waitsFor, Coap.waitsFor, ongoing, Function.update_of_ne new]
    cases there : ctx.ongoingAt r with
    | none => rfl
    | some request => exact userOf_owned (spare.elsewhere states out there)

theorem Renewed.attended (renewed : Renewed callback state ctx after)
    (attended : Attended aside ctx) (alive : Alive aside after)
    (owner : callback.stateOf = some state.ptr) (spare : Spare aside state.ptr ctx) :
    Attended aside after := by
  obtain ⟨last, states, persistent, -⟩ := renewed.state
  obtain ⟨token, transaction, ongoing⟩ := renewed.ongoing
  refine attended.leave alive (renewed.confirmable attended.confirmable)
    fun r out request there => ?_
  rw [ongoing] at there
  by_cases new : r = ctx.nextPtr + 1
  · rw [new, Function.update_self] at there
    obtain rfl := some.inj there
    refine .inl ⟨rfl, fun ptr isOwner => ⟨last, ?_, persistent⟩,
      fun _ => some_ne_none transaction⟩
    obtain rfl := some.inj (owner.symm.trans isOwner)
    rw [states, Function.update_self]
  · rw [Function.update_of_ne new] at there
    exact .inr ⟨out, there, spare.elsewhere states out there⟩

end Transfers

end Idrm.Coap
