import Idrm.Agent.Outgoing
import Idrm.Trans.Owned
import Idrm.Coap.Answering

/-!
# Requests of the agent

`SendRequest` takes a request over the cloud link, the bus or CoAP, as its target says. A
response handler is left with the transport: on the bus it waits in the context of the outgoing
requests for two seconds, at an endpoint in the CoAP context. Where nothing keeps it, it is
called with nothing before `SendRequest` returns.

A run records what every call sent, the responses that were matched with it, and that its timer
ran out. Handlers are given by the number of their call.
-/

namespace Idrm.Agent.SendRequest

open Idrm.Lib Idrm.Coap Idrm.Trans Idrm.Bus

/-! ## Targets -/

/-- `iUrl_t` -/
structure IUrl where
  standard : CString
  device : CString
  resUri : CString
deriving DecidableEq

/-- `parse_iUrl_body` -/
def parseIUrlBody (rawUri : CString) : Option IUrl :=
  let uri := Url.skipSlash rawUri.bytes
  match uri.dropWhile (· ≠ Url.slash) with
  | [] => none
  | _ :: rest =>
    match rest.dropWhile (· ≠ Url.slash) with
    | [] => none
    | _ :: resource =>
      some ⟨.ofBytes (uri.takeWhile (· ≠ Url.slash)), .ofBytes (rest.takeWhile (· ≠ Url.slash)),
        .ofBytes (Url.slash :: resource)⟩

/-- `url_parser_url_t` of a url that was parsed; `endpoint` is the address of a host that exists,
if a port is given. -/
structure ParsedUrl (A : Type) where
  protocol : CString
  path : CString
  endpoint : Option A

/-- What `SendRequest` finds around it. -/
structure Surroundings (A : Type) where
  /-- `parse_url`, if it succeeds with a path -/
  parseUrl : CString → Option (ParsedUrl A)
  /-- `m_standard` of the client that `FindClient` finds -/
  standardOf : CString → Option CString
  /-- `get_endpoint_conn` -/
  endpointConn : CString → Option A
  ready : Bool
  selfAgentId : CString
  moduleId : CString
  /-- The time in milliseconds -/
  time : Int64
  /-- The properties of a message can be allocated. -/
  allocates : Bool

/-- Where a request goes. -/
inductive Route (A : Type) where
  | nowhere
  /-- To an endpoint without a connection, or a host without an address. -/
  | unconnected
  | endpoint (addr : A) (resUri : CString)
  | device (addr : A) (path : CString)
  | ibroker (path : CString)
  | bus (uri : CString) (dest : Option CString)

/-- `ADDR_BUS`, `"gwbus"` -/
def addrBus : CString := ⟨[0x67, 0x77, 0x62, 0x75, 0x73], by decide⟩
/-- `ADDR_COAP`, `"coap"` -/
def addrCoap : CString := ⟨[0x63, 0x6F, 0x61, 0x70], by decide⟩
/-- `"ep"` -/
def standardEp : CString := .ofBytes [0x65, 0x70]
/-- `"dev"` -/
def standardDev : CString := .ofBytes [0x64, 0x65, 0x76]
/-- `"module"` -/
def standardModule : CString := ⟨[0x6D, 0x6F, 0x64, 0x75, 0x6C, 0x65], by decide⟩
/-- `"ibroker"` -/
def standardIbroker : CString := ⟨[0x69, 0x62, 0x72, 0x6F, 0x6B, 0x65, 0x72], by decide⟩
/-- `"/"` -/
def slashString : CString := ⟨[Url.slash], by decide⟩

section Targets

variable {A : Type}

/-- The surroundings as the branch for `ibroker` sees them. -/
def Surroundings.context (env : Surroundings A) (msgId : UInt32) : SendContext :=
  ⟨env.ready, env.selfAgentId, env.moduleId, msgId, env.time⟩

/-- The standard of a url on the bus, with the uri and the module a message is sent to. A device
whose standard is left open takes the one of its client. -/
def busAddress (env : Surroundings A) (path : CString) (url : IUrl) :
    CString × CString × Option CString :=
  if url.standard = standardModule then (url.standard, url.resUri, some url.device)
  else if url.standard = standardDev then
    match env.standardOf url.device with
    | none => (url.standard, path, none)
    | some known =>
      if known = .empty then (url.standard, path, none)
      else (known, .snprintf 200 (slashString ++ known ++ slashString ++ url.device ++ url.resUri),
        none)
  else (url.standard, path, none)

/-- The branch of `SendRequest` for `gwbus` -/
def busRoute (env : Surroundings A) (path : CString) : Route A :=
  if Url.checkUrlStart path.bytes ibrokerStem ≠ 0 then .ibroker path
  else
    match parseIUrlBody path with
    | none => .nowhere
    | some url =>
      let (standard, uri, dest) := busAddress env path url
      if standard = standardEp ∨ standard = addrCoap then
        match env.endpointConn url.device with
        | none => .unconnected
        | some addr => .endpoint addr url.resUri
      else if standard = standardIbroker then .ibroker path
      else .bus uri dest

/-- The branches of `SendRequest`. A target without a protocol is one of the bus. -/
def route (env : Surroundings A) (target : CString) : Route A :=
  if protocolMark <:+: target.bytes then
    match env.parseUrl target with
    | none => .nowhere
    | some url =>
      if url.protocol = addrBus then busRoute env url.path
      else if url.protocol = addrCoap then
        match url.endpoint with
        | none => .unconnected
        | some addr => .device addr url.path
      else .nowhere
  else
    let path := target.bytes.dropWhile (· = Url.slash)
    if path = [] then .nowhere else busRoute env (.ofBytes path)

end Targets

/-! ## Messages -/

/-- A call of `SendRequest`: whether it has a response handler, and whether its user data is not
`NULL`. -/
structure SendCall where
  args : SendArgs
  handler : Bool
  userData : Bool
deriving DecidableEq

/-- The type of a CoAP request. -/
def SendCall.type (call : SendCall) : CoapMessageType :=
  if call.args.requireResponse || call.handler then .con else .non

/-- The request to an endpoint on the bus. -/
def endpointPacket (call : SendCall) (msgId : UInt32) (resUri : CString) : Packet :=
  let request := coapInitMessage call.type call.args.msgcode msgId.toUInt16
  coapSetPayload call.args.payload
    (coapSetHeaderContentFormat call.args.fmt.toUInt32 (coapSetHeaderUriPath resUri request))

/-- The request to a device with an address of its own. -/
def devicePacket (call : SendCall) (msgId : UInt32) (path : CString) : Packet :=
  let request := coapInitMessage call.type call.args.msgcode msgId.toUInt16
  let request :=
    coapSetHeaderContentFormat call.args.fmt.toUInt32 (coapSetToken (leBytes 8 msgId.toNat) request)
  coapSetHeaderUriPath path (coapSetPayloadTcp call.args.payload request)

/-- The message to the bus. -/
def busRequest (moduleId : CString) (args : SendArgs) (msgId : UInt32) (uri : CString)
    (dest : Option CString) : BusMessage :=
  let tag := if args.requireResponse then tagRestReq else tagEvent
  let message :=
    setupBusRestfulMessage moduleId tag args.fmt (some uri) none args.msgcode.toNat args.payload
  let message := match dest with
    | none => message
    | some dest => message.set .dest dest
  message.set .mid (decimal msgId.toNat)

/-- What a call hands to its transport. -/
inductive Message where
  | bus (message : BusMessage)
  | cloud (message : IbrokerMessage)
  | coap (packet : Packet)

/-- A message that asks its receiver for a response. -/
def Message.Asks : Message → Prop
  | .bus message => message.properties .tag = some tagRestReq
  | .cloud message => message.packet.type = .con
  | .coap packet => packet.type = .con

/-! ## Calls -/

/-- Where a handler waits: at a node of the outgoing requests, or in the CoAP context. -/
inductive Place where
  | node (ptr : Nat)
  | endpoint
deriving DecidableEq

/-- What a call of `SendRequest` did: the message it sent, the one it left to the cache instead,
and the place of its handler. -/
structure SentRequest where
  call : SendCall
  sent : Option Message
  cached : Option BusMessage
  place : Option Place

/-- The handler is called at the end of `SendRequest`, unless it was handed over or its user data
is `NULL`. -/
def SentRequest.calledAtEnd (request : SentRequest) : Bool :=
  request.call.handler && request.call.userData && request.place.isNone

/-- A call that sends nothing. -/
def unsent (call : SendCall) : SentRequest := ⟨call, none, none, none⟩

/-- The outgoing requests, `g_endpoint_coap_ctx`, and the records of the run: the calls, the
responses that were matched with one, and the calls whose timer ran out. -/
structure SendState (A : Type) where
  outgoing : World Handle (Option Nat) Unit
  endpoint : ClientContext A Nat
  requests : List SentRequest
  arrived : List (Nat × Handle)
  expired : List Nat

section Calls

variable {A : Type}

namespace SendState

/-- An agent that has sent nothing yet. -/
def start (created : UInt64) (mid : UInt16) : SendState A :=
  ⟨World.start created, coapContextNew ⟨mid, [], []⟩, [], [], []⟩

/-- `bh_gen_id` -/
def genId (state : SendState A) : UInt32 × SendState A :=
  ((bhGenId state.outgoing.ctx).1,
    { state with outgoing := { state.outgoing with ctx := (bhGenId state.outgoing.ctx).2 } })

/-- A call is over. -/
def record (request : SentRequest) (state : SendState A) : SendState A :=
  { state with requests := state.requests ++ [request] }

/-- `bh_wait_response_async` for a handler, or for another request in the same context. -/
def wait (now : UInt64) (id : UInt32) (handler : Option Nat) (timeout : UInt32)
    (workThread : Option Unit) (state : SendState A) : SendState A :=
  { state with
    outgoing := (bhWaitResponseAsync now id (some handler) timeout workThread state.outgoing).2 }

end SendState

/-- The end of `SendRequest` for the bus. -/
def sendToBus (env : Surroundings A) (now : UInt64) (call : SendCall) (uri : CString)
    (dest : Option CString) (state : SendState A) : SendState A :=
  let (id, state) := state.genId
  if env.allocates = false then state.record (unsent call)
  else
    let message := busRequest env.moduleId call.args id uri dest
    if call.handler then
      (state.wait now id (some state.requests.length) 2000 none).record
        ⟨call, some (.bus message), none, some (.node state.outgoing.nextPtr)⟩
    else state.record ⟨call, some (.bus message), none, none⟩

/-- The end of `SendRequest` for the cloud. While the link is not ready, data points are left to
the cache. `none` is a write behind the option buffer. -/
def sendToIbroker (env : Surroundings A) (call : SendCall) (path : CString) (state : SendState A) :
    Option (SendState A) :=
  let (id, generated) := state.genId
  if env.ready = false then
    match sendToCache (env.context id) call.args path.bytes with
    | .bus message =>
      if env.allocates = false then some (state.record (unsent call))
      else some (generated.record ⟨call, none, some message, none⟩)
    | _ => some (state.record (unsent call))
  else if env.allocates = false then some (generated.record (unsent call))
  else
    (coapSerializeMessageTcp (directPacket (env.context id) call.args path.bytes)).map
      fun (payload, packet) =>
      generated.record ⟨call,
        some (.cloud ⟨id, vheaderOf [(kAgentId, env.selfAgentId)], packet, payload⟩), none, none⟩

/-- The end of `SendRequest` for CoAP. -/
def sendToEndpoint (call : SendCall) (addr : A) (packet : Packet) (state : SendState A) :
    Option (SendState A) :=
  let handler := if call.handler then some state.requests.length else none
  (coapNonblockingRequest addr packet handler state.endpoint).map fun endpoint =>
    { state with endpoint := endpoint }.record
      ⟨call, some (.coap packet), none, if call.handler then some .endpoint else none⟩

/-- `SendRequest` -/
def sendRequest (env : Surroundings A) (now : UInt64) (call : SendCall) (state : SendState A) :
    Option (SendState A) :=
  match route env call.args.target with
  | .nowhere => some (state.record (unsent call))
  | .unconnected => some (state.genId.2.record (unsent call))
  | .endpoint addr resUri =>
    sendToEndpoint call addr (endpointPacket call state.genId.1 resUri) state.genId.2
  | .device addr path =>
    sendToEndpoint call addr (devicePacket call state.genId.1 path) state.genId.2
  | .ibroker path => sendToIbroker env call path state
  | .bus uri dest => some (sendToBus env now call uri dest state)

/-! ## Runs -/

/-- What happens to the requests. -/
inductive SendEvent (A : Type) where
  | send (env : Surroundings A) (call : SendCall)
  /-- `bh_gen_id`, for a request that waits elsewhere or not at all -/
  | genId
  /-- Another request is registered in the same context. -/
  | wait (id timeout : UInt32) (workThread : Option Unit)
  /-- A response of the bus or the cloud. -/
  | response (id : UInt32) (handle : Handle)
  /-- `bh_handle_expired_trans` -/
  | expire
  /-- A posted callback is executed. -/
  | execute (index : Nat)
  /-- `coap_handle_packet` in the context of the endpoints -/
  | packet (source : A) (message : Packet)
  /-- `coap_check_transactions` finds a transaction whose timer ran out. -/
  | resend (transaction : Nat)

/-- How a response is fed. -/
def responseOf : Handle → Response Handle
  | .busMessage message => busResponse message
  | .coapPacket packet => cloudResponse packet

/-- The call that a node waits for. -/
def numberOf (node : SyncNode Handle (Option Nat) Unit) : Option Nat := node.callback.join

/-- The calls that wait for a response under an id. -/
def waitingUnder (id : UInt32) (world : World Handle (Option Nat) Unit) : List Nat :=
  (world.ctx.list.filter (·.id = id)).filterMap numberOf

/-- The calls that a check finds to have run out. -/
def ranOut (now : UInt64) (world : World Handle (Option Nat) Unit) : List Nat :=
  (world.ctx.list.filter (!·.stays (bhGetElpasedMs now world.ctx.lastCheck).1)).filterMap numberOf

/-- The callbacks of the CoAP context; `coap_response_callback` never answers `STOP_REQUEST`. -/
def runCallback : Run A Nat := runRequestCallback fun _ => false

/-- One event, at a time in milliseconds. A request of a peer is served elsewhere. -/
def perform (malloc : UInt32 → Bool) : Nat × SendEvent A → SendState A → Option (SendState A)
  | (time, .send env call), state => sendRequest env (UInt64.ofNat time) call state
  | (_, .genId), state => some state.genId.2
  | (time, .wait id timeout workThread), state =>
    some (state.wait (UInt64.ofNat time) id none timeout workThread)
  | (_, .response id handle), state =>
    (bhFeedResponse malloc id (responseOf handle) state.outgoing).map fun outgoing =>
      { state with
        outgoing := outgoing
        arrived := state.arrived ++ (waitingUnder id state.outgoing).map (·, handle) }
  | (time, .expire), state =>
    some { state with
      outgoing := (bhHandleExpiredTrans (UInt64.ofNat time) state.outgoing).2
      expired := state.expired ++ ranOut (UInt64.ofNat time) state.outgoing }
  | (_, .execute index), state =>
    (executeCallbackNode index state.outgoing).map fun outgoing =>
      { state with outgoing := outgoing }
  | (_, .packet source message), state =>
    if isRequest message then some state
    else
      (coapHandleResponse runCallback source message state.endpoint).map fun endpoint =>
        { state with
          endpoint := endpoint
          arrived := state.arrived ++ (answeredUser message state.endpoint).toList.map
            (·, .coapPacket message) }
  | (_, .resend ptr), state =>
    (state.endpoint.transactionAt ptr).bind fun transaction =>
      (resendTransaction runCallback transaction state.endpoint).map fun endpoint =>
        { state with
          endpoint := endpoint
          expired := state.expired ++ (expiredUser ptr state.endpoint).toList }

/-! ## The contract -/

/-- What the handler of a call was called with, by `SendRequest` itself, by the outgoing requests
and by the CoAP context. -/
def callsOf (number : Nat) (state : SendState A) : List (Option Handle) :=
  (if ((state.requests[number]?).map SentRequest.calledAtEnd).getD false then [none] else []) ++
    (state.outgoing.invoked.filter (·.cb = some number)).map (·.response.data) ++
      (keptWith state.endpoint.env.called number).map (Option.map .coapPacket)

/-- A handler waits in the list of the outgoing requests, or for the thread that calls it, or at
an endpoint with a transaction whose timer runs. -/
def Waits (number : Nat) (state : SendState A) : Prop :=
  (∃ node ∈ state.outgoing.ctx.list, numberOf node = some number) ∨
    (∃ callback ∈ state.outgoing.posted, numberOf callback.transaction = some number) ∨
    ∃ r, waitsFor state.endpoint r = some number ∧
    ∃ t, state.endpoint.transactionOf r = some t ∧ (state.endpoint.transactionAt t).isSome = true

/-- A response was matched with the call; or, for no response, its timer ran out or its peer reset
it. -/
def Occurred (number : Nat) (state : SendState A) : Option Handle → Prop
  | some handle => (number, handle) ∈ state.arrived
  | none => number ∈ state.expired ∨ ∃ reset : Packet,
      reset.type = .rst ∧ (number, .coapPacket reset) ∈ state.arrived

/-- The handler of a call that sent nothing was called once, with nothing. One that sent a message
asked for a response, and its handler waits uncalled, or was called once with what occurred. -/
def AnsweredOnce (number : Nat) (request : SentRequest) (state : SendState A) : Prop :=
  (request.sent = none → callsOf number state = [none]) ∧
    ∀ message, request.sent = some message → message.Asks ∧
      (Waits number state ∧ callsOf number state = [] ∨
        ∃ value, Occurred number state value ∧ callsOf number state = [value])

/-- Every handler is answered once. -/
def AnswersOnce (state : SendState A) : Prop :=
  ∀ number request, state.requests[number]? = some request → request.call.handler = true →
    AnsweredOnce number request state

/-- A call with a handler that goes over the bus or CoAP, requires a response on the bus, and has
user data where nothing is sent. -/
def Suits (env : Surroundings A) (call : SendCall) : Prop :=
  match route env call.args.target with
  | .nowhere | .unconnected => call.userData = true
  | .endpoint _ _ | .device _ _ => True
  | .ibroker _ => (env.ready = true → env.allocates = false) ∧ call.userData = true
  | .bus _ _ => if env.allocates then call.args.requireResponse = true else call.userData = true

/-- Calls with a handler suit, and a packet for a handler that waits answers it plainly. -/
def Permitted (state : SendState A) : Nat × SendEvent A → Prop
  | (_, .send env call) => call.handler = true → Suits env call
  | (_, .packet _ message) => isRequest message = false → AnswersPlainly state.endpoint message
  | _ => True

end Calls

end Idrm.Agent.SendRequest
