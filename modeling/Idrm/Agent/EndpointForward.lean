import Idrm.Ilink.Frame
import Idrm.Trans.Sync
import Idrm.Coap.OverTcp
import Idrm.Coap.Transactions
import Idrm.Bus.RestConvert

/-!
# Cloud requests through an endpoint

A request from the cloud goes to its endpoint over UDP under a token of the agent's
own, and the response goes back to the cloud under what was saved of the request.
The saved token is the agent's own one, since it is set before it is saved: the cloud
gets its token back only where the two happen to be the same.

Each call has a context, which its callback frees. A request with Observe waits for more
responses than one, so its callback may be called on a context that is gone.

`Relay` adds to the endpoint context a record of what was forwarded and of the ilink
messages sent while a response to it was handled.
-/

namespace Idrm.Agent

open Idrm.Lib Idrm.Coap Idrm.Ilink Idrm.Trans Idrm.Bus Option List

/-- `coap_endpoint_call_t` -/
structure CoapEndpointCall where
  originCoapId : UInt16
  originIlinkId : UInt32
  hasIlinkMid : Bool
  token : ShortBytes

/-- The contexts that `trans_malloc_ctx` gives out for calls from the cloud and from the bus,
each kind numbered in order. -/
inductive CallContext where
  | cloud (call : Nat)
  | bus (call : Nat)
deriving DecidableEq

/-- The callbacks requests to endpoints wait with, and their data: the contents of the context
that was allocated for the call, and its number. -/
inductive EndpointCallback where
  /-- `cb_foward_ep_response_to_cloud` -/
  | cloud (data : CoapEndpointCall) (call : Nat)
  /-- `cb_foward_ep_response_to_bus` -/
  | bus (originBusMsgId : UInt32) (sourceModuleId : CString) (call : Nat)

/-- The context a callback gets as its `ctx_data`. -/
def EndpointCallback.context : EndpointCallback → CallContext
  | .cloud _ call => .cloud call
  | .bus _ _ call => .bus call

/-- What of the agent the endpoint context works on: the outgoing requests with their
id generator, the message id counter, how many contexts were given out and which of them
were freed, and what was sent to the cloud and to the bus. -/
structure AgentState (α κ ω : Type) where
  outgoing : SyncCtx α κ ω
  currentMid : UInt16
  calls : Nat
  busCalls : Nat
  released : List CallContext
  ilinkSent : List IlinkMessage
  published : List BusMessage

section Agent

variable {A α κ ω : Type}

/-- `g_endpoint_coap_ctx` -/
abbrev EndpointContext (A α κ ω : Type) := CoapContext A EndpointCallback (AgentState α κ ω)

/-- The ilink message of a response, with `COAP_OVER_TCP` as its type. -/
def ilinkResponse (data : CoapEndpointCall) (packet : List UInt8) : IlinkMessage :=
  { IlinkMessage.zero with
    hasMid := data.hasIlinkMid
    msgID := data.originIlinkId
    payloadLen := UInt32.ofNat packet.length
    payload := some packet }

/-- `trans_free_ctx` -/
def transFreeCtx (context : CallContext) (ctx : EndpointContext A α κ ω) :
    EndpointContext A α κ ω :=
  { ctx with env := { ctx.env with released := context :: ctx.env.released } }

/-- The body of a callback that reads its context and frees it at its end, on every way out. There
is no result where the context was freed by an earlier call. -/
def withCallContext (context : CallContext)
    (body : EndpointContext A α κ ω → Option (EndpointContext A α κ ω))
    (ctx : EndpointContext A α κ ω) : Option (EndpointContext A α κ ω) :=
  if context ∈ ctx.env.released then none else (body ctx).map (transFreeCtx context)

theorem withCallContext_eq_some {context : CallContext}
    {body : EndpointContext A α κ ω → Option (EndpointContext A α κ ω)}
    {ctx called : EndpointContext A α κ ω} (runs : withCallContext context body ctx = some called) :
    ∃ left, body ctx = some left ∧ called = transFreeCtx context left := by
  unfold withCallContext at runs
  split at runs
  · cases runs
  · obtain ⟨left, ran, same⟩ := map_eq_some_iff.mp runs
    exact ⟨left, ran, same.symm⟩

/-- `cb_foward_ep_response_to_cloud`; nothing is sent when the request timed out or
the response cannot be serialized. -/
def cbFowardEpResponseToCloud (data : CoapEndpointCall) (call : Nat) (response : Option Packet) :
    EndpointContext A α κ ω → Option (EndpointContext A α κ ω) :=
  withCallContext (.cloud call) fun ctx =>
    match response with
    | none => some ctx
    | some message =>
      let message :=
        if data.token.bytes.length ≠ 0 then coapSetToken data.token.bytes message
        else if data.hasIlinkMid then coapSetToken (leBytes 4 data.originIlinkId.toNat) message
        else message
      (coapSerializeMessageTcp message).map fun (packet, _) =>
        if packet.length = 0 then ctx
        else { ctx with env := { ctx.env with
          ilinkSent := ctx.env.ilinkSent ++ [ilinkResponse data packet] } }

/-- `cb_foward_ep_response_to_bus` -/
def cbFowardEpResponseToBus (originBusMsgId : UInt32) (sourceModuleId : CString) (call : Nat)
    (response : Option Packet) : EndpointContext A α κ ω → Option (EndpointContext A α κ ω) :=
  withCallContext (.bus call) fun ctx =>
    match response with
    | none => some ctx
    | some message =>
      some { ctx with env := { ctx.env with
        published := ctx.env.published ++
          [coapToBusMsg moduleAgent message originBusMsgId.toUInt64 (some sourceModuleId)] } }

/-- The callback of a request to an endpoint. Its return value is not used. -/
def runEndpointCallback :
    EndpointCallback → Option Packet → EndpointContext A α κ ω → Option (EndpointContext A α κ ω)
  | .cloud data call => cbFowardEpResponseToCloud data call
  | .bus originBusMsgId sourceModuleId call =>
    cbFowardEpResponseToBus originBusMsgId sourceModuleId call

/-- `coap_get_mid` -/
def coapGetMid (ctx : EndpointContext A α κ ω) : UInt16 × EndpointContext A α κ ω :=
  (ctx.env.currentMid + 1,
    { ctx with env := { ctx.env with currentMid := ctx.env.currentMid + 1 } })

/-- A new transaction for a packet, with the callback for its response, sent at once. -/
def sendToEndpoint (addr : A) (message : Packet) (callback : EndpointCallback)
    (ctx : EndpointContext A α κ ω) : Option (EndpointContext A α κ ω) :=
  let (transaction, ctx) := coapNewTransaction message.mid addr ctx
  let ctx := coapSetResponseHandler transaction message callback ctx
  (setTransactionPacket transaction message ctx).bind fun ctx =>
    (ctx.transactionAt transaction).bind fun t => coapSendTransaction runEndpointCallback t ctx

/-- What the agent knows about an endpoint: its connection, whether it may be asked,
and the url another resource stands for. -/
structure Endpoint (A : Type) where
  conn : Option A
  active : Bool
  separateUrl : Option (CString × Option CString)

/-- Replace the url by the separate one. -/
def setSeparateUrl (separateUrl : Option (CString × Option CString)) (message : Packet) : Packet :=
  match separateUrl with
  | none => message
  | some (url, none) => coapSetHeaderUriPath url message
  | some (url, some params) => coapSetHeaderUriQuery params (coapSetHeaderUriPath url message)

/-- `send_ilink_request_to_ep`: the agent's own token is set before the token is saved. -/
def sendIlinkRequestToEp (endpoint : Endpoint A) (ilinkMsg : IlinkMessage) (message : Packet)
    (ctx : EndpointContext A α κ ω) : Option (EndpointContext A α κ ω) :=
  match endpoint.conn with
  | none => some ctx
  | some addr =>
    if endpoint.active = false ∨ message.isOption .uriPath = false then some ctx
    else
      let message := setSeparateUrl endpoint.separateUrl message
      let (msgId, outgoing) := bhGenId ctx.env.outgoing
      let message := coapSetToken (leBytes 8 msgId.toNat) message
      let data : CoapEndpointCall :=
        { originCoapId := message.mid
          originIlinkId := if ilinkMsg.hasMid then ilinkMsg.msgID else 0
          hasIlinkMid := ilinkMsg.hasMid
          token := message.token }
      let call := ctx.env.calls
      let ctx := { ctx with env := { ctx.env with outgoing := outgoing, calls := call + 1 } }
      let (mid, ctx) := coapGetMid ctx
      sendToEndpoint addr { message with mid := mid, type := .con } (.cloud data call) ctx

/-- `send_bus_request_to_ep`: a packet that is not confirmable is sent once, its request is gone,
and its context is freed here. -/
def sendBusRequestToEp (endpoint : Endpoint A) (message : Packet) (busMsgId : UInt32)
    (srcModule : CString) (ctx : EndpointContext A α κ ω) : Option (EndpointContext A α κ ω) :=
  match endpoint.conn with
  | none => some ctx
  | some addr =>
    if endpoint.active = false then some ctx
    else
      let call := ctx.env.busCalls
      let ctx := { ctx with env := { ctx.env with busCalls := call + 1 } }
      let message := coapSetToken (leBytes 4 busMsgId.toNat) message
      let (mid, ctx) := coapGetMid ctx
      (sendToEndpoint addr { message with mid := mid } (.bus busMsgId srcModule call) ctx).map
        fun ctx => if message.type = .con then ctx else transFreeCtx (.bus call) ctx

/-! ## Runs -/

/-- A forwarded request: what the cloud sent, and the token it went on with. -/
structure Forwarded where
  token : ShortBytes
  hasMid : Bool
  msgID : UInt32
  wireToken : List UInt8

/-- The endpoint context, the requests forwarded so far, by the number of their call,
and the ilink messages sent while a response to a request was handled. -/
structure Relay (A α κ ω : Type) where
  ctx : EndpointContext A α κ ω
  forwarded : List Forwarded
  replies : List (Nat × IlinkMessage)

/-- An agent that has just started. -/
def Relay.start (outgoing : SyncCtx α κ ω) (currentMid : UInt16) : Relay A α κ ω where
  ctx := coapContextNew ⟨outgoing, currentMid, 0, 0, [], [], []⟩
  forwarded := []
  replies := []

/-- What can happen to the endpoint context. `answer` is a response of an endpoint to a
forwarded request, `packet` any other packet that is no request. -/
inductive RelayEvent (A α κ ω : Type) where
  | forward (endpoint : Endpoint A) (ilinkMsg : IlinkMessage) (message : Packet)
  | busRequest (endpoint : Endpoint A) (message : Packet) (busMsgId : UInt32) (srcModule : CString)
  | answer (request : Nat) (source : A) (message : Packet)
  | packet (source : A) (message : Packet)
  | expire (transaction : Nat)
  /-- The rest of the agent takes ids and message ids. -/
  | elsewhere (outgoing : SyncCtx α κ ω) (currentMid : UInt16)

/-- Whether a request is forwarded at all. -/
def accepts (endpoint : Endpoint A) (message : Packet) : Bool :=
  endpoint.conn.isSome && endpoint.active && message.isOption .uriPath

/-- The token the next request goes on with. -/
def nextToken (relay : Relay A α κ ω) : List UInt8 :=
  leBytes 8 (bhGenId relay.ctx.env.outgoing).1.toNat

/-- The ilink messages added since. -/
def newReplies (before after : EndpointContext A α κ ω) : List IlinkMessage :=
  after.env.ilinkSent.drop before.env.ilinkSent.length

/-- One event. -/
def Relay.perform : RelayEvent A α κ ω → Relay A α κ ω → Option (Relay A α κ ω)
  | .forward endpoint ilinkMsg message, relay =>
    (sendIlinkRequestToEp endpoint ilinkMsg message relay.ctx).map fun ctx =>
      { relay with
        ctx := ctx
        forwarded := if accepts endpoint message then
            relay.forwarded ++ [⟨message.token, ilinkMsg.hasMid, ilinkMsg.msgID, nextToken relay⟩]
          else relay.forwarded }
  | .busRequest endpoint message busMsgId srcModule, relay =>
    (sendBusRequestToEp endpoint message busMsgId srcModule relay.ctx).map fun ctx =>
      { relay with ctx := ctx }
  | .answer request source message, relay =>
    (coapHandleResponse runEndpointCallback source message relay.ctx).map fun ctx =>
      { relay with
        ctx := ctx
        replies := relay.replies ++ (newReplies relay.ctx ctx).map fun reply => (request, reply) }
  | .packet source message, relay =>
    (coapHandleResponse runEndpointCallback source message relay.ctx).map fun ctx =>
      { relay with ctx := ctx }
  | .expire transaction, relay =>
    match relay.ctx.transactionAt transaction with
    | none => some relay
    | some t => (resendTransaction runEndpointCallback t relay.ctx).map fun ctx =>
      { relay with ctx := ctx }
  | .elsewhere outgoing currentMid, relay =>
    some { relay with ctx := { relay.ctx with
      env := { relay.ctx.env with outgoing := outgoing, currentMid := currentMid } } }

/-- A reply carries the token and the message id of a request. -/
def Carries (request : Forwarded) (reply : IlinkMessage) : Prop :=
  reply.payload.bind tcpTokenOf = some request.token.bytes ∧ reply.hasMid = request.hasMid ∧
    (request.hasMid = true → reply.msgID = request.msgID)

/-- Every reply sent for a response to a request with a token carries what is the
request's. -/
def Correlated (relay : Relay A α κ ω) : Prop :=
  ∀ number reply, (number, reply) ∈ relay.replies → ∀ request,
    relay.forwarded[number]? = some request → request.token.bytes ≠ [] → Carries request reply

/-- A response to a forwarded request has the token the request went on with. -/
def Answers (relay : Relay A α κ ω) (number : Nat) (message : Packet) : Prop :=
  coapIsRequest message = false ∧
    ∃ request, relay.forwarded[number]? = some request ∧ message.token.bytes = request.wireToken

/-- Whether a response may be taken for one to an outstanding request: by the message
id of its transaction, or by its token. -/
def MatchedBy (relay : Relay A α κ ω) (message : Packet)
    (r : OngoingRequest EndpointCallback) : Prop :=
  (∃ t ∈ relay.ctx.transactions, t.mid = message.mid ∧
    relay.ctx.requestAt t.ongoingRequest = some r) ∨
    (r ∈ relay.ctx.ongoingRequests ∧ r.token = message.token.bytes)

variable {message : Packet} {relay : Relay A α κ ω}

theorem MatchedBy.outstanding {r : OngoingRequest EndpointCallback}
    (isMatched : MatchedBy relay message r) : r ∈ relay.ctx.ongoingRequests := by
  rcases isMatched with ⟨t, -, -, linked⟩ | ⟨outstanding, -⟩
  · exact requestAt_mem linked
  · exact outstanding

/-- A request whose callback was called: a request with Observe waits for more responses behind
the first. -/
def Spent (relay : Relay A α κ ω) (r : OngoingRequest EndpointCallback) : Prop :=
  r.callback.context ∈ relay.ctx.env.released

/-- When a step keeps requests and responses together: a request comes with the very
token the agent puts in its place, a response has neither token nor message id of
another request for the cloud that is outstanding, and no packet and no timeout comes for a
request that was called back. -/
def KeepsTogether (relay : Relay A α κ ω) : RelayEvent A α κ ω → Prop
  | .forward endpoint _ message => accepts endpoint message = true → message.token.bytes ≠ [] →
      message.token.bytes = nextToken relay
  | .answer number _ message => Answers relay number message ∧ (∀ r, MatchedBy relay message r →
      ∀ data other, r.callback = .cloud data other → other = number) ∧
      ∀ r, MatchedBy relay message r → ¬Spent relay r
  | .packet _ message => ∀ r, MatchedBy relay message r → ¬Spent relay r
  | .expire transaction => ∀ t, relay.ctx.transactionAt transaction = some t →
      ∀ r, relay.ctx.requestAt t.ongoingRequest = some r → ¬Spent relay r
  | _ => True

/-! ## The invariant -/

/-- What was saved of a request: its ilink id, and the token it went on with. -/
def Saved (data : CoapEndpointCall) (request : Forwarded) : Prop :=
  data.token.bytes = request.wireToken ∧ data.hasIlinkMid = request.hasMid ∧
    (request.hasMid = true → data.originIlinkId = request.msgID)

/-- Every outstanding call for the cloud leads to the request it was made for. -/
structure Tracked (relay : Relay A α κ ω) : Prop where
  calls : relay.forwarded.length = relay.ctx.env.calls
  saved : ∀ r ∈ relay.ctx.ongoingRequests, ∀ data number, r.callback = .cloud data number →
    ∃ request, relay.forwarded[number]? = some request ∧ Saved data request
  wire : ∀ request ∈ relay.forwarded, request.wireToken ≠ []
  same : ∀ request ∈ relay.forwarded, request.token.bytes ≠ [] →
    request.token.bytes = request.wireToken
  numbered : ∀ number reply, (number, reply) ∈ relay.replies → number < relay.forwarded.length
  correlated : Correlated relay

/-- Nothing but requests that were there before is left, and no call was made. -/
structure Thins (before after : EndpointContext A α κ ω) : Prop where
  calls : after.env.calls = before.env.calls
  requests : ∀ r ∈ after.ongoingRequests, ∃ old ∈ before.ongoingRequests, old.callback = r.callback

theorem OnlyLeaves.thins {before after : EndpointContext A α κ ω}
    (leaves : OnlyLeaves before after) : Thins before after where
  calls := by rw [leaves.env]
  requests := by
    intro r member
    obtain ⟨old, oldMember, -, callback⟩ := leaves.requests r member
    exact ⟨old, oldMember, callback⟩

theorem Thins.trans {first second third : EndpointContext A α κ ω} (one : Thins first second)
    (two : Thins second third) : Thins first third where
  calls := two.calls.trans one.calls
  requests := by
    intro r member
    obtain ⟨middle, middleMember, callback⟩ := two.requests r member
    obtain ⟨old, oldMember, oldCallback⟩ := one.requests middle middleMember
    exact ⟨old, oldMember, oldCallback.trans callback⟩

/-- Contexts that only lose requests stay tracked. -/
theorem Tracked.thins (tracked : Tracked relay) {ctx : EndpointContext A α κ ω}
    (thins : Thins relay.ctx ctx) : Tracked { relay with ctx := ctx } :=
  { tracked with
    calls := tracked.calls.trans thins.calls.symm
    saved := by
      intro r member data number isCall
      obtain ⟨old, oldMember, callback⟩ := thins.requests r member
      exact tracked.saved old oldMember data number (callback.trans isCall) }

/-! ## Callbacks -/

variable {callback : EndpointCallback}

/-- A callback adds no request and no call. -/
theorem runEndpointCallback_thins {response : Option Packet} {ctx called : EndpointContext A α κ ω}
    (runs : runEndpointCallback callback response ctx = some called) : Thins ctx called := by
  have unchanged : called.ongoingRequests = ctx.ongoingRequests ∧
      called.env.calls = ctx.env.calls := by
    cases callback with
    | cloud data call =>
      rw [runEndpointCallback, cbFowardEpResponseToCloud] at runs
      obtain ⟨left, ran, rfl⟩ := withCallContext_eq_some runs
      cases response with
      | none =>
        cases ran
        exact ⟨rfl, rfl⟩
      | some message =>
        obtain ⟨packet, -, rfl⟩ := map_eq_some_iff.mp ran
        dsimp only
        split <;> exact ⟨rfl, rfl⟩
    | bus originBusMsgId sourceModuleId call =>
      rw [runEndpointCallback, cbFowardEpResponseToBus] at runs
      obtain ⟨left, ran, rfl⟩ := withCallContext_eq_some runs
      cases response <;> cases ran <;> exact ⟨rfl, rfl⟩
  refine ⟨unchanged.2, fun r member => ⟨r, ?_, rfl⟩⟩
  rwa [unchanged.1] at member

/-- What a callback sends to the cloud: at most one message, with the saved token and
message id. -/
theorem runEndpointCallback_sends
    {ctx called : EndpointContext A α κ ω}
    (runs : runEndpointCallback callback (some message) ctx = some called) :
    called.env.ilinkSent = ctx.env.ilinkSent ∨ ∃ data call packet, callback = .cloud data call ∧
      called.env.ilinkSent = ctx.env.ilinkSent ++ [ilinkResponse data packet] ∧
      (data.token.bytes ≠ [] → tcpTokenOf packet = some data.token.bytes) := by
  cases callback with
  | bus originBusMsgId sourceModuleId call =>
    rw [runEndpointCallback, cbFowardEpResponseToBus] at runs
    obtain ⟨left, ran, rfl⟩ := withCallContext_eq_some runs
    cases ran
    exact .inl rfl
  | cloud data call =>
    rw [runEndpointCallback, cbFowardEpResponseToCloud] at runs
    obtain ⟨left, ran, rfl⟩ := withCallContext_eq_some runs
    obtain ⟨⟨packet, left⟩, written, rfl⟩ := map_eq_some_iff.mp ran
    dsimp only [transFreeCtx]
    split
    · exact .inl rfl
    · rename_i filled
      refine .inr ⟨data, call, packet, rfl, rfl, fun token => ?_⟩
      have present : data.token.bytes.length ≠ 0 := by rwa [ne_eq, length_eq_zero_iff]
      rw [if_pos present] at written
      have restored : tcpToken (coapSetToken data.token.bytes message) = data.token := by
        rw [tcpToken, coapSetToken, if_neg]
        · exact ShortBytes.copy_bytes data.token
        · rwa [ShortBytes.copy_bytes]
      rw [tcpTokenOf_written written fun empty => filled (by rw [empty]; rfl), restored]

/-! ## Steps -/

variable {ctx next : EndpointContext A α κ ω}

theorem coapSendTransaction_thins {t : Transaction A}
    (sends : coapSendTransaction runEndpointCallback t ctx = some next) : Thins ctx next := by
  rcases coapSendTransaction_cases sends with leaves | ⟨request, called, -, runs, leaves⟩
  · exact OnlyLeaves.thins leaves
  · exact (runEndpointCallback_thins runs).trans (OnlyLeaves.thins leaves)

theorem coapHandleResponse_thins {source : A}
    (handled : coapHandleResponse runEndpointCallback source message ctx = some next) :
    Thins ctx next := by
  obtain ⟨middle, matched, acknowledged⟩ := coapHandleResponse_cases handled
  refine Thins.trans ?_ (OnlyLeaves.thins acknowledged)
  rcases matchResponse_cases matched with leaves | ⟨request, called, -, runs, leaves⟩
  · exact OnlyLeaves.thins leaves
  · exact (runEndpointCallback_thins runs).trans (OnlyLeaves.thins leaves)

/-- A request sent to an endpoint adds its own callback and no other. -/
theorem sendToEndpoint_requests {addr : A}
    (sends : sendToEndpoint addr message callback ctx = some next) :
    next.env.calls = ctx.env.calls ∧ ∀ r ∈ next.ongoingRequests,
    r.callback = callback ∨ ∃ old ∈ ctx.ongoingRequests, old.callback = r.callback := by
  obtain ⟨armed, written, rest⟩ := bind_eq_some_iff.mp sends
  obtain ⟨t, -, sent⟩ := bind_eq_some_iff.mp rest
  obtain ⟨packet, -, rfl⟩ := map_eq_some_iff.mp written
  have thins := coapSendTransaction_thins sent
  refine ⟨thins.calls.trans ?_, fun r member => ?_⟩
  · unfold coapSetResponseHandler
    split <;> rfl
  · obtain ⟨old, oldMember, same⟩ := thins.requests r member
    change old ∈ (coapSetResponseHandler _ message callback
      (coapNewTransaction message.mid addr ctx).2).ongoingRequests at oldMember
    unfold coapSetResponseHandler at oldMember
    split at oldMember
    · exact .inr ⟨old, oldMember, same⟩
    · rcases mem_append.mp oldMember with before | new
      · exact .inr ⟨old, before, same⟩
      · rw [mem_singleton] at new
        exact .inl (by rw [← same, new])

variable {endpoint : Endpoint A}

/-- A request is refused, or it adds a call with what is saved of it: the token saved is
the one the agent has just set. -/
theorem sendIlinkRequestToEp_cases {ilinkMsg : IlinkMessage}
    (sends : sendIlinkRequestToEp endpoint ilinkMsg message ctx = some next) :
    (accepts endpoint message = false ∧ next = ctx) ∨
      (accepts endpoint message = true ∧ next.env.calls = ctx.env.calls + 1 ∧
        ∀ r ∈ next.ongoingRequests,
          (∃ data, r.callback = .cloud data ctx.env.calls ∧
            Saved data ⟨message.token, ilinkMsg.hasMid, ilinkMsg.msgID,
              leBytes 8 (bhGenId ctx.env.outgoing).1.toNat⟩) ∨
          ∃ old ∈ ctx.ongoingRequests, old.callback = r.callback) := by
  unfold sendIlinkRequestToEp at sends
  cases connected : endpoint.conn with
  | none =>
    rw [connected] at sends
    cases sends
    exact .inl ⟨by simp [accepts, connected], rfl⟩
  | some addr =>
    rw [connected] at sends
    simp only at sends
    split at sends
    · rename_i refused
      cases sends
      refine .inl ⟨?_, rfl⟩
      rcases refused with passive | noUrl
      · simp [accepts, passive]
      · simp [accepts, noUrl]
    · rename_i accepted
      have accepted' : accepts endpoint message = true := by
        simpa [accepts, connected] using accepted
      obtain ⟨calls, requests⟩ := sendToEndpoint_requests sends
      refine .inr ⟨accepted', calls, fun r member => ?_⟩
      rcases requests r member with new | old
      · refine .inl ⟨_, new, ?_, rfl, ?_⟩
        · exact take_of_length_le (by simp [shortLen])
        · exact fun hasMid => if_pos hasMid
      · exact .inr old

/-- Forwarding a request whose token is the agent's own keeps track of it. -/
theorem Tracked.forward (tracked : Tracked relay) {ilinkMsg : IlinkMessage} {next : Relay A α κ ω}
    (together : KeepsTogether relay (.forward endpoint ilinkMsg message))
    (performed : Relay.perform (.forward endpoint ilinkMsg message) relay = some next) :
    Tracked next := by
  obtain ⟨ctx, sends, rfl⟩ := map_eq_some_iff.mp performed
  rcases sendIlinkRequestToEp_cases sends with ⟨refused, rfl⟩ | ⟨accepted, calls, requests⟩
  · rw [refused]
    exact tracked
  · rw [accepted]
    have last : (relay.forwarded ++ [⟨message.token, ilinkMsg.hasMid, ilinkMsg.msgID,
        nextToken relay⟩])[ relay.forwarded.length]? = some ⟨message.token, ilinkMsg.hasMid,
        ilinkMsg.msgID, nextToken relay⟩ :=
      List.getElem?_concat_length
    have known : ∀ {number : Nat} {request : Forwarded}, relay.forwarded[number]? = some request →
        (relay.forwarded ++ [⟨message.token, ilinkMsg.hasMid, ilinkMsg.msgID,
        nextToken relay⟩])[number]? = some request := by
      intro number request found
      rw [List.getElem?_append_left (List.getElem?_eq_some_iff.mp found).1, found]
    refine ⟨?_, ?_, ?_, ?_, ?_, ?_⟩
    · rw [if_pos rfl, length_append, tracked.calls, calls]
      rfl
    · intro r member data number isCall
      rw [if_pos rfl]
      rcases requests r member with ⟨data', new, saved⟩ | ⟨old, oldMember, same⟩
      · rw [isCall] at new
        cases new
        exact ⟨_, by rw [← tracked.calls]; exact last, saved⟩
      · obtain ⟨request, found, saved⟩ :=
          tracked.saved old oldMember data number (same.trans isCall)
        exact ⟨request, known found, saved⟩
    · intro request member
      rw [if_pos rfl] at member
      rcases mem_append.mp member with before | new
      · exact tracked.wire request before
      · rw [mem_singleton] at new
        intro empty
        have width : (nextToken relay).length = 8 := leBytes_length 8 _
        rw [new] at empty
        change nextToken relay = [] at empty
        rw [empty] at width
        cases width
    · intro request member filled
      rw [if_pos rfl] at member
      rcases mem_append.mp member with before | new
      · exact tracked.same request before filled
      · rw [mem_singleton] at new
        rw [new] at filled ⊢
        exact together accepted filled
    · intro number reply member
      rw [if_pos rfl, length_append]
      exact Nat.lt_add_right _ (tracked.numbered number reply member)
    · intro number reply member request found filled
      rw [if_pos rfl, List.getElem?_append_left (tracked.numbered number reply member)] at found
      exact tracked.correlated number reply member request found filled

/-- A reply with what was saved of a request carries its own token and message id. -/
theorem Tracked.carries (tracked : Tracked relay) {number : Nat}
    {request : Forwarded} (found : relay.forwarded[number]? = some request)
    (filled : request.token.bytes ≠ []) {data : CoapEndpointCall} (saved : Saved data request)
    {packet : List UInt8} (token : tcpTokenOf packet = some data.token.bytes) :
    Carries request (ilinkResponse data packet) := by
  obtain ⟨savedToken, hasMid, msgID⟩ := saved
  have same := tracked.same request (mem_of_getElem? found) filled
  refine ⟨?_, hasMid, msgID⟩
  change tcpTokenOf packet = some request.token.bytes
  rw [token, savedToken, same]

/-- A response that is taken for no other request keeps replies and requests together. -/
theorem Tracked.answer (tracked : Tracked relay) {number : Nat} {source : A} {next : Relay A α κ ω}
    (together : KeepsTogether relay (.answer number source message))
    (performed : Relay.perform (.answer number source message) relay = some next) :
    Tracked next := by
  obtain ⟨ctx, handled, rfl⟩ := map_eq_some_iff.mp performed
  obtain ⟨⟨-, request, found, -⟩, own, -⟩ := together
  have thinned := tracked.thins (coapHandleResponse_thins handled)
  have replies : ∀ reply ∈ newReplies relay.ctx ctx, request.token.bytes ≠ [] →
      Carries request reply := by
    obtain ⟨middle, matched, acknowledged⟩ := coapHandleResponse_cases handled
    rcases matchResponse_cases matched with leaves | ⟨r, called, isMatched, runs, leaves⟩
    · intro reply member
      rw [newReplies, acknowledged.env, leaves.env, drop_length] at member
      cases member
    · rcases runEndpointCallback_sends runs with silent | ⟨data, other, packet, isCall, sent, token⟩
      · intro reply member
        rw [newReplies, acknowledged.env, leaves.env, silent, drop_length] at member
        cases member
      · intro reply member filled
        rw [newReplies, acknowledged.env, leaves.env, sent, drop_left, mem_singleton] at member
        have isOwn := own r isMatched data other isCall
        obtain ⟨request', found', saved⟩ :=
          tracked.saved r (MatchedBy.outstanding isMatched) data other isCall
        rw [isOwn, found] at found'
        cases found'
        have wire := tracked.wire request (mem_of_getElem? found)
        rw [member]
        exact tracked.carries found filled saved (token (by rwa [saved.1]))
  refine { thinned with numbered := ?_, correlated := ?_ }
  · intro other reply member
    rcases mem_append.mp member with before | new
    · exact tracked.numbered other reply before
    · obtain ⟨_, -, same⟩ := List.mem_map.mp new
      cases same
      exact (List.getElem?_eq_some_iff.mp found).1
  · intro other reply member request' found' filled
    rcases mem_append.mp member with before | new
    · exact tracked.correlated other reply before request' found' filled
    · obtain ⟨_, newMember, same⟩ := List.mem_map.mp new
      cases same
      change relay.forwarded[number]? = some request' at found'
      rw [found] at found'
      cases found'
      exact replies reply newMember filled

/-- A request from the bus adds no call for the cloud. -/
theorem sendBusRequestToEp_requests {busMsgId : UInt32}
    {srcModule : CString}
    (sends : sendBusRequestToEp endpoint message busMsgId srcModule ctx = some next) :
    next.env.calls = ctx.env.calls ∧ ∀ r ∈ next.ongoingRequests,
      r.callback = .bus busMsgId srcModule ctx.env.busCalls ∨
        ∃ old ∈ ctx.ongoingRequests, old.callback = r.callback := by
  unfold sendBusRequestToEp at sends
  split at sends
  · cases sends
    exact ⟨rfl, fun r member => .inr ⟨r, member, rfl⟩⟩
  · split at sends
    · cases sends
      exact ⟨rfl, fun r member => .inr ⟨r, member, rfl⟩⟩
    · simp only [coapGetMid] at sends
      obtain ⟨sent, forwards, rfl⟩ := map_eq_some_iff.mp sends
      obtain ⟨calls, requests⟩ := sendToEndpoint_requests forwards
      split <;> exact ⟨calls, requests⟩

/-- Every step that keeps requests and responses together keeps the invariant. -/
theorem Tracked.step {relay next : Relay A α κ ω} {event : RelayEvent A α κ ω}
    (tracked : Tracked relay)
    (together : KeepsTogether relay event) (performed : Relay.perform event relay = some next) :
    Tracked next := by
  cases event with
  | forward endpoint ilinkMsg message => exact tracked.forward together performed
  | answer number source message => exact tracked.answer together performed
  | busRequest endpoint message busMsgId srcModule =>
    obtain ⟨ctx, sends, rfl⟩ := map_eq_some_iff.mp performed
    obtain ⟨calls, requests⟩ := sendBusRequestToEp_requests sends
    refine { tracked with calls := tracked.calls.trans calls.symm, saved := ?_ }
    intro r member data number isCall
    rcases requests r member with bus | ⟨old, oldMember, same⟩
    · rw [isCall] at bus
      cases bus
    · exact tracked.saved old oldMember data number (same.trans isCall)
  | packet source message =>
    obtain ⟨ctx, handled, rfl⟩ := map_eq_some_iff.mp performed
    exact tracked.thins (coapHandleResponse_thins handled)
  | expire transaction =>
    simp only [Relay.perform] at performed
    split at performed
    · cases performed
      exact tracked
    · obtain ⟨ctx, resends, rfl⟩ := map_eq_some_iff.mp performed
      obtain ⟨sent, sends, leaves⟩ := resendTransaction_cases resends
      exact tracked.thins ((coapSendTransaction_thins sends).trans (OnlyLeaves.thins leaves))
  | elsewhere outgoing currentMid =>
    cases performed
    exact tracked.thins ⟨rfl, fun r member => ⟨r, member, rfl⟩⟩

theorem Tracked.start (outgoing : SyncCtx α κ ω) (currentMid : UInt16) :
    Tracked (Relay.start outgoing currentMid : Relay A α κ ω) where
  calls := rfl
  saved := fun _ member => absurd member not_mem_nil
  wire := fun _ member => absurd member not_mem_nil
  same := fun _ member => absurd member not_mem_nil
  numbered := fun _ _ member => absurd member not_mem_nil
  correlated := fun _ _ member => absurd member not_mem_nil

/-- In every run whose steps keep requests and responses together, however requests,
responses and timeouts are interleaved, each reply to the cloud carries the token and
the ilink message id of the request that was answered. -/
theorem run_correlated (outgoing : SyncCtx α κ ω)
    (currentMid : UInt16) {events : List (RelayEvent A α κ ω)} {final : Relay A α κ ω}
    (runs : RunsUnder Relay.perform KeepsTogether (Relay.start outgoing currentMid) events final) :
    Correlated final :=
  (runs.keeps (fun tracked together performed => tracked.step together performed)
    (Tracked.start outgoing currentMid)).correlated

end Agent

/-! ## Single exchanges -/

/-- A `GET` of the path `r` with a token. -/
def cloudGet (token : List UInt8) : Packet :=
  { coapSetToken token (coapInitMessage .non coapGet 0) with uriPath := [0x72], options := {11} }

/-- An ilink request with message id 9. -/
def cloudFrame : IlinkMessage :=
  { IlinkMessage.zero with hasMid := true, isReq := true, msgID := 9 }

/-- The response the endpoint returns to the first request forwarded. -/
def endpointContent : Packet := coapSetToken (leBytes 8 0) (coapInitMessage .ack content205 1)

/-- The request comes in for an endpoint that may be asked. -/
def forwardGet (token : List UInt8) : RelayEvent Unit Unit Unit Unit :=
  .forward ⟨some (), true, none⟩ cloudFrame (cloudGet token)

/-- The response to it. -/
def answerGet : RelayEvent Unit Unit Unit Unit := .answer 0 () endpointContent

/-- An agent with no requests, whose ids and message ids start at zero. -/
def freshRelay : Relay Unit Unit Unit Unit := Relay.start ⟨[], 0, 0, 0⟩ 0

/-- The number of the call a callback is for, if it is for the cloud. -/
def EndpointCallback.number : EndpointCallback → Option Nat
  | .cloud _ call => some call
  | .bus _ _ _ => none

/-- The agent after an event that has a result. -/
def after (event : RelayEvent Unit Unit Unit Unit) (relay : Relay Unit Unit Unit Unit) :
    Relay Unit Unit Unit Unit :=
  (relay.perform event).getD relay

theorem perform_after {event : RelayEvent Unit Unit Unit Unit} {relay : Relay Unit Unit Unit Unit}
    (isSome : (relay.perform event).isSome = true) :
    relay.perform event = some (after event relay) := by
  obtain ⟨next, performed⟩ := isSome_iff_exists.mp isSome
  rw [after, performed, getD_some]

/-- The agent after a request whose token is the one it is about to choose. -/
def askedRelay : Relay Unit Unit Unit Unit := after (forwardGet (leBytes 8 0)) freshRelay

/-- The agent after the response to that. -/
def answeredRelay : Relay Unit Unit Unit Unit := after answerGet askedRelay

/-- With the token the agent is about to choose, the response comes back correlated. -/
theorem run_correlated_sameToken : RunsUnder Relay.perform KeepsTogether freshRelay
      [forwardGet (leBytes 8 0), answerGet] answeredRelay ∧
    answeredRelay.replies.length = 1 ∧ Correlated answeredRelay := by
  have forwards : freshRelay.perform (forwardGet (leBytes 8 0)) = some askedRelay :=
    perform_after (by decide +kernel)
  have answers : askedRelay.perform answerGet = some answeredRelay :=
    perform_after (by decide +kernel)
  have wire : (askedRelay.forwarded.map (·.wireToken)) = [leBytes 8 0] := by decide +kernel
  have numbers : ∀ r ∈ askedRelay.ctx.ongoingRequests,
    r.callback.number = some 0 := by decide +kernel
  have unspent : askedRelay.ctx.env.released = [] := by decide +kernel
  have runs : RunsUnder Relay.perform KeepsTogether freshRelay [forwardGet (leBytes 8 0), answerGet]
      answeredRelay := by
    refine .call (fun _ _ => ?_) forwards (.call ⟨?_, ?_, ?_⟩ answers (.done _))
    · decide
    · obtain ⟨request, isForwarded, isWire⟩ := map_eq_singleton_iff.mp wire
      refine ⟨by decide, request, by rw [isForwarded]; rfl, ?_⟩
      rw [isWire]
      decide
    · intro r isMatched data other isCall
      have number := numbers r isMatched.outstanding
      rw [isCall] at number
      cases number
      rfl
    · intro r _ spent
      rw [Spent, unspent] at spent
      cases spent
  exact ⟨runs, by decide +kernel, run_correlated _ _ runs⟩

/-- The request with Observe. -/
def observeGet : RelayEvent Unit Unit Unit Unit :=
  .forward ⟨some (), true, none⟩ cloudFrame
    { cloudGet (leBytes 8 0) with observe := 0, options := {6, 11} }

/-- A notification, under the token of the request and a message id of the endpoint's own. -/
def notification : Packet := coapSetToken (leBytes 8 0) (coapInitMessage .non content205 40)

/-- The agent after a request with Observe and its response. -/
def observingRelay : Relay Unit Unit Unit Unit := after answerGet (after observeGet freshRelay)

theorem observingRelay_answers : Answers observingRelay 0 notification := by
  have wire : (observingRelay.forwarded.map (·.wireToken)) = [leBytes 8 0] := by decide +kernel
  obtain ⟨request, isForwarded, isWire⟩ := map_eq_singleton_iff.mp wire
  refine ⟨by decide, request, by rw [isForwarded]; rfl, ?_⟩
  rw [isWire]
  decide

/-- A request with token `01` is answered under the token of eight zero bytes that the
agent put in its place. -/
theorem singleExchange_otherToken :
    ∃ middle final, runAll Relay.perform [forwardGet [1]] freshRelay = some middle ∧
    Answers middle 0 endpointContent ∧
    runAll Relay.perform [forwardGet [1], answerGet] freshRelay = some final ∧
    ¬Correlated final := by
  have sent : ((runAll Relay.perform [forwardGet [1]] freshRelay).map fun middle =>
      middle.forwarded.map (·.wireToken)) = some [leBytes 8 0] := by
    decide +kernel
  have tokens : ((runAll Relay.perform [forwardGet [1], answerGet] freshRelay).map fun final =>
      (final.forwarded.map (·.token.bytes), final.replies.map fun reply =>
        (reply.1, reply.2.payload.bind tcpTokenOf))) =
      some ([[1]], [(0, some (leBytes 8 0))]) := by
    decide +kernel
  obtain ⟨middle, forwards, wire⟩ := map_eq_some_iff.mp sent
  obtain ⟨final, runs, shown⟩ := map_eq_some_iff.mp tokens
  obtain ⟨request, isForwarded, isWire⟩ := map_eq_singleton_iff.mp wire
  obtain ⟨lone, isLone, isToken⟩ := map_eq_singleton_iff.mp (Prod.mk.inj shown).1
  obtain ⟨reply, isReply, isSent⟩ := map_eq_singleton_iff.mp (Prod.mk.inj shown).2
  refine ⟨middle, final, forwards, ⟨by decide, request, by rw [isForwarded]; rfl, ?_⟩, runs,
    fun correlated => ?_⟩
  · rw [isWire]
    decide
  · have answered : (0, reply.2) ∈ final.replies := by
      rw [isReply, ← (Prod.mk.inj isSent).1]
      exact mem_singleton_self _
    have carries :=
      correlated 0 reply.2 answered lone (by rw [isLone]; rfl) (by rw [isToken]; decide)
    have carried := carries.1
    rw [(Prod.mk.inj isSent).2, isToken] at carried
    exact absurd carried (by decide)

/-- Both ways to miss the guarantee: the other token, and a second response to a request with
Observe, for which the callback reads the context that the first response had freed. -/
theorem singleExchange_uncorrelated :
    (∃ middle final, runAll Relay.perform [forwardGet [1]] freshRelay = some middle ∧
      Answers middle 0 endpointContent ∧ runAll Relay.perform [forwardGet [1],
      answerGet] freshRelay = some final ∧ ¬Correlated final) ∧
    runAll Relay.perform [observeGet, answerGet] freshRelay = some observingRelay ∧
    Answers observingRelay 0 notification ∧
    observingRelay.perform (.answer 0 () notification) = none := by
  have asks : freshRelay.perform observeGet = some (after observeGet freshRelay) :=
    perform_after (by decide +kernel)
  have answers : (after observeGet freshRelay).perform answerGet = some observingRelay :=
    perform_after (by decide +kernel)
  refine ⟨singleExchange_otherToken, ?_, observingRelay_answers, ?_⟩
  · rw [runAll, asks, bind_some, runAll, answers]
    rfl
  · exact isNone_iff_eq_none.mp (by decide +kernel)

end Idrm.Agent
