import Idrm.Agent.BusRequests
import Idrm.Agent.Routing
import Idrm.Trans.Suited

/-!
# The outgoing requests

Requests to the bus, to the cloud and to endpoints wait in one context and take their ids
from one counter. A response from the cloud and a response from the bus are both fed by
their id alone, so a response of one transport completes the request of another that has
its id: the callback then takes a packet for a bus message, or fails the assertion on the
format.
-/

namespace Idrm.Agent

open Idrm.Lib Idrm.Coap Idrm.Ilink Idrm.Devices Idrm.Trans Idrm.Bus

/-- `T_Coap_Parsed` -/
def tCoapParsed : UInt8 := 3
/-- `T_Broker_Message_Handle` -/
def tBrokerMessageHandle : UInt8 := 5

/-- What the data of a response points to. -/
inductive Handle where
  | busMessage (message : BusMessage)
  | coapPacket (packet : Packet)

/-- What a request was sent over. -/
inductive Transport where
  | bus
  | cloud
  | endpoint
deriving DecidableEq, Repr

/-- The callbacks of the outgoing requests. -/
inductive OutgoingCallback where
  /-- `cb_foward_bus_response_to_cloud` -/
  | busResponseToCloud
  /-- `cb_foward_bus_response_to_client` -/
  | busResponseToClient
  /-- `cb_refresher_request` for a read over the bus -/
  | refresherRequest (refresherId : Nat)
  /-- `cb_refresher_request` for a read from an endpoint -/
  | refresherEndpointRequest (refresherId : Nat)
  /-- The response handler given to `SendRequest` for a target on the bus. -/
  | sendRequestHandler
  /-- `cb_foward_ibroker_response_to_bus` -/
  | ibrokerResponseToBus (call : ModuleToEndpointCall)
  /-- `cb_foward_cloud_response_to_client` -/
  | cloudResponseToClient
deriving DecidableEq

namespace OutgoingCallback

/-- What the request of a callback was sent over. -/
def transport : OutgoingCallback → Transport
  | busResponseToCloud | busResponseToClient | refresherRequest _ | sendRequestHandler => .bus
  | ibrokerResponseToBus _ | cloudResponseToClient => .cloud
  | refresherEndpointRequest _ => .endpoint

/-- `post_cb_rd_thread`, for reads over the bus. -/
def workThread : OutgoingCallback → Option Unit
  | refresherRequest _ => some ()
  | _ => none

/-- The id a request is registered with. The one of a read from an endpoint is a CoAP message
id of 16 bits. -/
def registeredId : OutgoingCallback → UInt32 → UInt32
  | refresherEndpointRequest _, id => id.toUInt16.toUInt32
  | _, id => id

end OutgoingCallback

/-- `cb_foward_ibroker_response_to_bus`, with what it publishes; `none` is a failed assertion,
or a bus message taken for a packet. -/
def cbFowardIbrokerResponseToBus (call : ModuleToEndpointCall) (response : Response Handle) :
    Option (Option BusMessage) :=
  match response.data with
  | none => some none
  | some data =>
    if response.format ≠ tCoapParsed then none
    else
      match data with
      | .busMessage _ => none
      | .coapPacket packet =>
        some (some (coapToBusMsg moduleAgent packet call.originBusMsgId.toUInt64
          (some call.sourceModuleId)))

/-- `get_outgoing_requests_ctx` with what was done with it. -/
abbrev OutgoingWorld := World Handle OutgoingCallback Unit

/-- What happens to the outgoing requests. -/
inductive OutgoingEvent where
  /-- `bh_gen_id`, for a request that waits elsewhere or not at all -/
  | genId
  /-- A request is registered under a generated id. -/
  | request (callback : OutgoingCallback) (timeout : UInt32)
  /-- `handle_ilink_message` of a frame from the cloud -/
  | cloudMessage (link : CloudLink) (directory : Directory) (message : CloudMessage)
  /-- `Iagent_Receive` of a message from the bus -/
  | busMessage (message : BusMessage)
  /-- `bh_handle_expired_trans` -/
  | expire
  /-- A posted callback is executed. -/
  | execute (index : Nat)

/-- `bh_gen_id` followed by `bh_wait_response_async` -/
def registerRequest (now : UInt64) (callback : OutgoingCallback) (timeout : UInt32)
    (world : OutgoingWorld) : OutgoingWorld :=
  let (id, ctx) := bhGenId world.ctx
  (bhWaitResponseAsync now (callback.registeredId id) (some callback) timeout callback.workThread
    { world with ctx := ctx }).2

/-- A response of the cloud, as `handle_type_coap` feeds it. -/
def cloudResponse (packet : Packet) : Response Handle := ⟨some (.coapPacket packet), 8, tCoapParsed⟩

/-- A response of the bus, as `Iagent_Receive` feeds it. -/
def busResponse (message : BusMessage) : Response Handle :=
  ⟨some (.busMessage message), 0, tBrokerMessageHandle⟩

/-- A frame from the cloud. What else it starts shows in the events that follow; there is no
result where the agent ends. -/
def receiveFromCloud (malloc : UInt32 → Bool) (link : CloudLink) (directory : Directory)
    (message : CloudMessage) (world : OutgoingWorld) : Option OutgoingWorld :=
  match handleIlinkMessage link directory message with
  | .error _ => none
  | .ok (.response id packet) => bhFeedResponse malloc id (cloudResponse packet) world
  | .ok _ => some world

/-- A message from the bus. -/
def receiveFromBus (malloc : UInt32 → Bool) (message : BusMessage) (world : OutgoingWorld) :
    Option OutgoingWorld :=
  match iagentReceive message with
  | none => none
  | some (.response id) => bhFeedResponse malloc id (busResponse message) world
  | some _ => some world

/-- One event, at a time in milliseconds. -/
def performOutgoing (malloc : UInt32 → Bool) : Nat × OutgoingEvent → OutgoingWorld →
    Option OutgoingWorld
  | (_, .genId), world => some { world with ctx := (bhGenId world.ctx).2 }
  | (time, .request callback timeout), world =>
    some (registerRequest (UInt64.ofNat time) callback timeout world)
  | (_, .cloudMessage link directory message), world =>
    receiveFromCloud malloc link directory message world
  | (_, .busMessage message), world => receiveFromBus malloc message world
  | (time, .expire), world => some (bhHandleExpiredTrans (UInt64.ofNat time) world).2
  | (_, .execute index), world => executeCallbackNode index world

/-! ## Which callback gets what -/

/-- A response of the transport a callback waits for, or none. -/
def OwnTransport (callback : OutgoingCallback) (response : Response Handle) : Prop :=
  response.data = none ∨
    match callback.transport with
    | .bus => ∃ message, response = busResponse message
    | .cloud => ∃ packet, response = cloudResponse packet
    | .endpoint => True

/-- The assertion on the format holds. -/
def FormatAsserted : OutgoingCallback → Response Handle → Prop
  | .ibrokerResponseToBus call, response =>
    (cbFowardIbrokerResponseToBus call response).isSome = true
  | _, _ => True

/-- A response comes with an id under which no request of the other transport is found. -/
def Answered (world : OutgoingWorld) : Nat × OutgoingEvent → Prop
  | (_, .cloudMessage link directory message) => ∀ id packet,
      handleIlinkMessage link directory message = .ok (.response id packet) →
      ∀ callback ∈ world.answers id, callback.transport ≠ .bus
  | (_, .busMessage message) => ∀ id, iagentReceive message = some (.response id) →
      ∀ callback ∈ world.answers id, callback.transport ≠ .cloud
  | _ => True

theorem ownTransport_timeout (callback : OutgoingCallback) :
    OwnTransport callback ⟨none, 0, tEmpty⟩ := .inl rfl

variable {callback : OutgoingCallback}

theorem ownTransport_cloud (fits : callback.transport ≠ .bus) (packet : Packet) :
    OwnTransport callback (cloudResponse packet) := by
  right
  cases sent : callback.transport with
  | bus => exact absurd sent fits
  | cloud => exact ⟨packet, rfl⟩
  | endpoint => trivial

theorem ownTransport_bus (fits : callback.transport ≠ .cloud) (message : BusMessage) :
    OwnTransport callback (busResponse message) := by
  right
  cases sent : callback.transport with
  | bus => exact ⟨message, rfl⟩
  | cloud => exact absurd sent fits
  | endpoint => trivial

/-- A callback of a cloud request that gets a packet or nothing passes its assertion. -/
theorem formatAsserted_of_ownTransport {response : Response Handle}
    (own : OwnTransport callback response) : FormatAsserted callback response := by
  cases callback with
  | ibrokerResponseToBus call =>
    rcases own with timeout | ⟨packet, rfl⟩
    · simp [FormatAsserted, cbFowardIbrokerResponseToBus, timeout]
    · rfl
  | _ => trivial

/-- One event that brings no response to the other transport. -/
theorem performOutgoing_suited {malloc : UInt32 → Bool}
    {world next : OutgoingWorld} {event : Nat × OutgoingEvent}
    (suited : Suited OwnTransport world) (answered : Answered world event)
    (performed : performOutgoing malloc event world = some next) : Suited OwnTransport next := by
  obtain ⟨time, event⟩ := event
  cases event with
  | genId =>
    cases performed
    exact ⟨suited.posted, suited.invoked⟩
  | request callback timeout =>
    cases performed
    exact ⟨suited.posted, suited.invoked⟩
  | cloudMessage link directory message =>
    have received : receiveFromCloud malloc link directory message world = some next := performed
    unfold receiveFromCloud at received
    split at received
    · cases received
    · rename_i id packet routed
      exact suited.feedResponse (fun callback found => ownTransport_cloud
        (answered id packet routed callback found) packet) received
    · cases received
      exact suited
  | busMessage message =>
    have received : receiveFromBus malloc message world = some next := performed
    unfold receiveFromBus at received
    split at received
    · cases received
    · rename_i id routed
      exact suited.feedResponse (fun callback found => ownTransport_bus
        (answered id routed callback found) message) received
    · cases received
      exact suited
  | expire =>
    cases performed
    exact suited.handleExpiredTrans ownTransport_timeout _
  | execute index => exact suited.executeCallbackNode performed

/-- In a run in which every response comes with an id of its own transport, callbacks only
get what they are written for. -/
theorem invoked_ownTransport {malloc : UInt32 → Bool}
    {created : UInt64} {events : List (Nat × OutgoingEvent)} {world : OutgoingWorld}
    (runs : RunsUnder (performOutgoing malloc) Answered (World.start created) events world) :
    ∀ invocation ∈ world.invoked, OwnTransport invocation.cb invocation.response ∧
    FormatAsserted invocation.cb invocation.response := by
  have suited : Suited OwnTransport world :=
    runs.keeps performOutgoing_suited (suited_start created)
  intro invocation member
  have own := suited.invoked invocation member
  exact ⟨own, formatAsserted_of_ownTransport own⟩

/-- A response on the bus with the message id 0. -/
def busReply : BusMessage :=
  ((setupBusRestfulMessage .empty tagRestResp (-1) none none content205.toNat []).set .mid
    (decimal 0)).set .dest moduleAgent

/-- A request of the cloud waits for the bus, and the bus answers. -/
def answeredRun : List (Nat × OutgoingEvent) :=
  [(0, .request .busResponseToCloud 10000), (1, .busMessage busReply)]

theorem invoked_ownTransport_answered : ∃ world : OutgoingWorld,
    RunsUnder (performOutgoing fun _ => true) Answered (World.start 0) answeredRun world ∧
    world.invoked.map (·.cb) = [.busResponseToCloud] ∧ ∀ invocation ∈ world.invoked,
    OwnTransport invocation.cb invocation.response ∧
    FormatAsserted invocation.cb invocation.response := by
  have runs : RunsUnder (performOutgoing fun _ => true) Answered (World.start 0) answeredRun _ :=
    .call trivial rfl (.call
      (fun id routed callback found => by
        cases routed
        cases found
        decide) rfl (.done _))
  exact ⟨_, runs, rfl, invoked_ownTransport runs⟩

/-- A response of the bus with the id of a request to the cloud fails the assertion on the
format, and one of the cloud reaches the callback of a request on the bus. -/
theorem invoked_otherTransport : (∃ world : OutgoingWorld, runAll (performOutgoing fun _ => true)
      [(0, .request (.ibrokerResponseToBus ⟨1, .empty⟩) 10000),
      (1, .busMessage busReply)] (World.start 0) = some world ∧
      ∃ invocation ∈ world.invoked, ¬ FormatAsserted invocation.cb invocation.response) ∧
    ∃ world : OutgoingWorld,
    runAll (performOutgoing fun _ => true) [(0, .request .busResponseToCloud 10000),
      (1, .cloudMessage shakenLink .start (coapFrame fixedcharRespinse [0x00, content205]))]
      (World.start 0) = some world ∧
    ∃ invocation ∈ world.invoked, ¬ OwnTransport invocation.cb invocation.response := by
  refine ⟨⟨_, rfl, _, List.mem_cons_self, Bool.false_ne_true⟩, _, rfl, _, List.mem_cons_self, ?_⟩
  rintro (absent | ⟨message, same⟩)
  · cases absent
  · cases same

end Idrm.Agent
