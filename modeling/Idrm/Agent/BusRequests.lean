import Idrm.Bus.RestConvert
import Idrm.Coap.OverTcp
import Idrm.Ilink.Vheader
import Idrm.Url.Start

/-!
# Requests from the bus to the cloud

`Iagent_Receive` sorts the messages of the bus. A request under `/ibroker/` is converted
to CoAP and sent to the cloud with the time the message names; `SendRequest` sends a
target under `ibroker` the same way, or hands a data point to the cache while the link is
down. Ids of messages are those the context of the outgoing requests generates.
-/

namespace Idrm.Agent

open Idrm.Lib Idrm.Coap Idrm.Ilink Idrm.Bus

/-! ## What the bus brings -/

/-- What `Iagent_Receive` starts for a message. -/
inductive AgentTask where
  | ignored
  /-- `bh_feed_response` with the message -/
  | response (id : UInt32)
  /-- `handle_bus_rd_event` -/
  | rdEvent
  /-- `handle_bus_rd_monitor_post` -/
  | rdMonitorPost
  /-- `handle_bus_rd_get` -/
  | rdGet
  /-- `handle_bus_rd_delete` -/
  | rdDelete
  /-- `handle_data_point` -/
  | dataPoint
  /-- `handle_bus_calibration` -/
  | calibration
  /-- `handle_refresher_data` -/
  | refresherData
  /-- `handle_bus_endpoint` -/
  | endpoint (epname url : CString) (id : UInt32) (src : Option CString)
  /-- `handle_bus_ibroker` -/
  | ibroker (url : CString) (src tm : Option CString)
  /-- `handle_bus_default`, where a service is found for the url. -/
  | service
deriving DecidableEq

/-- `"/rd/"` -/
def busRd : List UInt8 := [0x2F, 0x72, 0x64, 0x2F]
/-- `"/rd/monitor"` -/
def busRdMonitor : List UInt8 := [0x2F, 0x72, 0x64, 0x2F, 0x6D, 0x6F, 0x6E, 0x69, 0x74, 0x6F, 0x72]
/-- `"/dp/"` -/
def busDp : List UInt8 := [0x2F, 0x64, 0x70, 0x2F]
/-- `"/cal/"` -/
def busCal : List UInt8 := [0x2F, 0x63, 0x61, 0x6C, 0x2F]
/-- `"/refresher"` -/
def busRefresher : List UInt8 := [0x2F, 0x72, 0x65, 0x66, 0x72, 0x65, 0x73, 0x68, 0x65, 0x72]
/-- `"/ep/"` -/
def busEp : List UInt8 := [0x2F, 0x65, 0x70, 0x2F]
/-- `"/ibroker/"` -/
def busIbroker : List UInt8 := [0x2F, 0x69, 0x62, 0x72, 0x6F, 0x6B, 0x65, 0x72, 0x2F]

/-- A request for the resource directory, by its action. -/
def rdTask (uri action : CString) : AgentTask :=
  if Url.checkUrlStart uri.bytes busRdMonitor ≠ 0 ∧ action = restActionStr 2 then .rdMonitorPost
  else if action = restActionStr 2 ∨ action = restActionStr 3 then .rdEvent
  else if action = restActionStr 1 then .rdGet
  else if action = restActionStr 4 then .rdDelete
  else .ignored

/-- A request for an endpoint, whose name is up to the next slash. -/
def endpointTask (uri : CString) (id : UInt32) (src : Option CString) : AgentTask :=
  let rest := uri.bytes.drop 4
  let name := rest.takeWhile (· ≠ Url.slash)
  if Url.slash ∈ rest ∧ name.length < 100 then
    .endpoint (.ofBytes name) (.ofBytes (rest.drop (name.length + 1))) id src
  else .ignored

/-- The part of `Iagent_Receive` for requests. -/
def requestTask (properties : Properties) (uri : CString) (id : UInt32) : Option AgentTask :=
  if Url.checkUrlStart uri.bytes busRd ≠ 0 then (properties .action).map (rdTask uri)
  else if Url.checkUrlStart uri.bytes busCal ≠ 0 then some .calibration
  else if Url.checkUrlStart uri.bytes busRefresher ≠ 0 then some .refresherData
  else if Url.checkUrlStart uri.bytes busEp ≠ 0 then some (endpointTask uri id (properties .src))
  else if Url.checkUrlStart uri.bytes busIbroker ≠ 0 then
    some (.ibroker (.ofBytes (uri.bytes.drop 9)) (properties .src) (properties .tm))
  else some .service

/-- `Iagent_Receive`; `none` is a comparison with `NULL`. -/
def iagentReceive (message : BusMessage) : Option AgentTask :=
  let properties := message.properties
  if (properties .dest).any (· ≠ moduleAgent) then some .ignored
  else
    match properties .tag with
    | none => some .ignored
    | some tag =>
      if tag = tagRestResp then
        (properties .dest).map fun _ =>
          match properties .mid with
          | none => .ignored
          | some mid => .response (atoi mid).toUInt32
      else
        match properties .uri with
        | none => some .ignored
        | some uri =>
          if tag = tagEvent then
            if Url.checkUrlStart uri.bytes busRd ≠ 0 then some .rdEvent
            else if Url.checkUrlStart uri.bytes busDp ≠ 0 then some .dataPoint
            else some .ignored
          else if tag = tagRestReq then
            match properties .mid with
            | none => some .ignored
            | some mid => requestTask properties uri (atoi mid).toUInt32
          else some .ignored

/-! ## What goes to the cloud -/

/-- `K_TIME`, `"_tm"` -/
def kTime : CString := ⟨[0x5F, 0x74, 0x6D], by decide⟩
/-- `K_AGENT_ID`, `"_aid"` -/
def kAgentId : CString := ⟨[0x5F, 0x61, 0x69, 0x64], by decide⟩

/-- A vheader with strings set one after the other. -/
def vheaderOf (values : List (CString × CString)) : IlinkVheader :=
  ⟨values.map fun (key, value) => ⟨key, true, .sVal value⟩⟩

/-- A request to the cloud: its vheader, the packet, and the packet as it was serialized. -/
structure IbrokerMessage where
  msgId : UInt32
  vheader : IlinkVheader
  packet : Packet
  payload : List UInt8

/-- `module_to_endpoint_call_t` -/
structure ModuleToEndpointCall where
  originBusMsgId : UInt32
  sourceModuleId : CString
deriving DecidableEq

/-- `send_bus_request_to_ibroker`, with the call its response is waited for under. Nothing is
sent where the packet cannot be serialized; `none` is a failed assertion, a `NULL` time or a
write behind the option buffer. -/
def sendBusRequestToIbroker (selfAgentId : CString) (msgId : UInt32) (srcModule tm : Option CString)
    (message : Packet) : Option (Option (ModuleToEndpointCall × IbrokerMessage)) :=
  if message.token.bytes.length ≠ 4 then none
  else tm.bind fun time =>
    let call : ModuleToEndpointCall :=
      ⟨UInt32.ofNat (beNat message.token.bytes.reverse), srcModule.getD .empty⟩
    let message := coapSetToken (leBytes 4 msgId.toNat) message
    (coapSerializeMessageTcp message).map fun (packet, message) =>
      if packet.length = 0 then none
      else some (call, ⟨msgId, vheaderOf [(kTime, time), (kAgentId, selfAgentId)], message, packet⟩)

/-- `handle_bus_ibroker` -/
def handleBusIbroker (selfAgentId : CString) (msgId : UInt32) (message : BusMessage) (url : CString)
    (srcModule tm : Option CString) : Option (Option (ModuleToEndpointCall × IbrokerMessage)) :=
  match convertBusMsgToCoap message with
  | none => some none
  | some packet =>
    sendBusRequestToIbroker selfAgentId msgId srcModule tm (coapSetHeaderUriPath url packet)

/-! ## Sending -/

/-- The arguments of `SendRequest`, but for the handler of the response. -/
structure SendArgs where
  target : CString
  fmt : Int32
  payload : List UInt8
  requireResponse : Bool
  msgcode : UInt8
  query : Option CString
deriving DecidableEq

/-- What `SendRequest` finds around it: whether the link is ready, the names of agent and
module, the id it generates and the time in milliseconds. -/
structure SendContext where
  ready : Bool
  selfAgentId : CString
  moduleId : CString
  msgId : UInt32
  time : Int64

/-- Where a request goes. -/
inductive Sent where
  /-- To no cloud target, or dropped. -/
  | elsewhere
  | bus (message : BusMessage)
  | cloud (message : IbrokerMessage)

/-- `"://"` -/
def protocolMark : List UInt8 := [0x3A, 0x2F, 0x2F]
/-- `"ibroker"` -/
def ibrokerStem : List UInt8 := [0x69, 0x62, 0x72, 0x6F, 0x6B, 0x65, 0x72]
/-- `"ibroker/dp/"` -/
def ibrokerDp : List UInt8 := ibrokerStem ++ [0x2F, 0x64, 0x70, 0x2F]
/-- `"/dp-cache/"` -/
def dpCacheSlash : List UInt8 := [0x2F, 0x64, 0x70, 0x2D, 0x63, 0x61, 0x63, 0x68, 0x65, 0x2F]

/-- The path of a target without a protocol of its own. One that names a protocol but starts
with a slash names none that is known, and nothing is sent to it. -/
def targetPath (target : CString) : Option (List UInt8) :=
  if protocolMark <:+: target.bytes then none
  else
    let path := target.bytes.dropWhile (· = Url.slash)
    if path = [] then none else some path

/-- A data point is handed to the cache. -/
def sendToCache (context : SendContext) (args : SendArgs) (path : List UInt8) : Sent :=
  let offset := Url.checkUrlStart path ibrokerDp
  if offset ≠ 0 then
    let newUri := CString.ofBytes ((dpCacheSlash ++ path.drop offset).take 1023)
    .bus (((setupBusRestfulMessage context.moduleId tagRestReq args.fmt (some newUri)
      none args.msgcode.toNat args.payload).set .mid (decimal context.msgId.toNat)).set .tm
      (decimal context.time.toInt))
  else .elsewhere

/-- The packet of a request that goes to the cloud at once. -/
def directPacket (context : SendContext) (args : SendArgs) (path : List UInt8) : Packet :=
  let type := if args.requireResponse then CoapMessageType.con else .non
  let request := coapInitMessage type args.msgcode context.msgId.toUInt16
  let offset := Url.checkUrlStart path (Url.slash :: ibrokerStem)
  let request := coapSetHeaderUriPath (.ofBytes (path.drop offset)) request
  let request := coapSetHeaderContentFormat args.fmt.toUInt32 request
  let request := match args.query with
    | none => request
    | some query => coapSetHeaderUriQuery query request
  coapSetToken (leBytes 4 context.msgId.toNat) (coapSetPayloadTcp args.payload request)

/-- The branch of `SendRequest` for targets under `ibroker`; `none` is a write behind the
option buffer. -/
def sendRequest (context : SendContext) (args : SendArgs) : Option Sent :=
  match targetPath args.target with
  | none => some .elsewhere
  | some path =>
    if Url.checkUrlStart path ibrokerStem = 0 then some .elsewhere
    else if context.ready = false then some (sendToCache context args path)
    else
      (coapSerializeMessageTcp (directPacket context args path)).map fun (packet, message) =>
        .cloud ⟨context.msgId, vheaderOf [(kAgentId, context.selfAgentId)], message, packet⟩

end Idrm.Agent
