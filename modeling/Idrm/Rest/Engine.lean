import Idrm.Coap.Blockwise
import Idrm.Coap.OverTcp
import Idrm.Coap.OverUdp

/-!
# The REST engine

Resources are registered under their urls. A request goes to the first one registered whose url
covers its path: the url itself, or for a resource with sub-resources a path below it. Over
`serve_request` the answer is cut into the blocks the request asks for, over
`serve_request_from_tcp` it is sent whole.

A handler writes into a buffer of the caller and says where the next block starts, `-1` behind the
last one, by an offset that the caller has set to the start of the block. `none` is an access
outside of a buffer.
-/

namespace Idrm.Rest

open Idrm.Lib Idrm.Coap

/-- `METHOD_NOT_ALLOWED_4_05` -/
def methodNotAllowed405 : UInt8 := 133
/-- `PACKET_SERIALIZATION_ERROR` -/
def packetSerializationError : UInt8 := 193

/-- `NoServiceCallbck` -/
def noServiceCallbck : List UInt8 :=
  [78, 111, 83, 101, 114, 118, 105, 99, 101, 67, 97, 108, 108, 98, 99, 107]
/-- `NoBlock1Support` -/
def noBlock1Support : List UInt8 :=
  [78, 111, 66, 108, 111, 99, 107, 49, 83, 117, 112, 112, 111, 114, 116]
/-- `BlockOutOfScope` -/
def blockOutOfScope : List UInt8 :=
  [66, 108, 111, 99, 107, 79, 117, 116, 79, 102, 83, 99, 111, 112, 101]
/-- `Serialized header exceeds COAP_MAX_HEADER_SIZE` -/
def headerExceeds : List UInt8 :=
  [83, 101, 114, 105, 97, 108, 105,
    122, 101, 100, 32, 104, 101, 97, 100, 101, 114, 32, 101, 120, 99, 101, 101, 100, 115,
    32, 67, 79, 65, 80, 95, 77, 65, 88, 95, 72, 69, 65, 68, 69, 82, 95, 83, 73, 90, 69]

/-- An `int32_t` converted to a `size_t`. -/
def asSize (value : Int32) : Nat := (value.toInt % 2 ^ 64).toNat

/-! ## Resources -/

/-- What a `resource_t` says about itself. -/
structure Service where
  url : CString
  hasSubResources : Bool
  attributes : Option CString

/-- `restful_handler`. It sees the registered resources, and is called with the request, the
response prepared so far, the memory at its buffer, the preferred size, the offset and the state of
the application. -/
abbrev RestfulHandler (E : Type) :=
  List Service → Packet → Packet → List UInt8 → UInt16 → Int32 → E → Option (Packet × Int32 × E)

/-- `resource_t`, known by its address. -/
structure Resource (E : Type) extends Service where
  address : Nat
  getHandler : Option (RestfulHandler E)
  postHandler : Option (RestfulHandler E)
  putHandler : Option (RestfulHandler E)
  deleteHandler : Option (RestfulHandler E)

/-- The comparison by which a resource is found for a path. -/
def Service.covers (path : List UInt8) (service : Service) : Bool :=
  (path.length = service.url.bytes.length || (path.length > service.url.bytes.length &&
    service.hasSubResources && path[service.url.bytes.length]? = some 0x2F)) &&
    service.url.bytes.isPrefixOf path

variable {E : Type}

/-- The engine with its list of resources, the counter of message ids, the message of the last error
and the state of the application. The service callback is set when the engine is initialized. -/
structure Engine (E : Type) where
  initialized : Bool
  restfulServices : List (Resource E)
  currentMid : UInt16
  coapErrorMessage : List UInt8
  app : E

/-- `rest_activate_resource`: a resource that is registered already moves to the end. -/
def restActivateResource (resource : Resource E) (path : CString) (engine : Engine E) : Engine E :=
  { engine with
    restfulServices := engine.restfulServices.eraseP (·.address = resource.address) ++
      [{ resource with url := path }] }

/-- `coap_get_rest_method` of a request. -/
def coapGetRestMethod (request : Packet) : UInt8 := 1 <<< (request.code - 1)

/-- The handler of a resource for a method. -/
def Resource.handlerFor (request : Packet) (resource : Resource E) : Option (RestfulHandler E) :=
  let method := coapGetRestMethod request
  if method &&& 1 ≠ 0 ∧ resource.getHandler.isSome then resource.getHandler
  else if method &&& 2 ≠ 0 ∧ resource.postHandler.isSome then resource.postHandler
  else if method &&& 4 ≠ 0 ∧ resource.putHandler.isSome then resource.putHandler
  else if method &&& 8 ≠ 0 ∧ resource.deleteHandler.isSome then resource.deleteHandler
  else none

/-- `rest_invoke_restful_service`: whether a resource was found and the method allowed, the
response, the offset and the state. -/
def restInvokeRestfulService (services : List (Resource E))
    (request response : Packet) (buffer : List UInt8)
    (bufferSize : UInt16) (offset : Int32) (app : E) : Option (Bool × Packet × Int32 × E) :=
  match services.find? fun resource => resource.covers (coapGetHeaderUriPath request) with
  | none => some (false, coapSetStatusCode notFound404 response, offset, app)
  | some resource =>
    match resource.handlerFor request with
    | none => some (false, coapSetStatusCode methodNotAllowed405 response, offset, app)
    | some handler =>
      (handler (services.map Resource.toService) request response buffer bufferSize offset app).map
        (true, ·)

/-- The call of the service callback. -/
def Engine.serviceCbk (request response : Packet) (buffer : List UInt8) (bufferSize : UInt16)
    (offset : Int32) (engine : Engine E) : Option (Bool × Packet × Int32 × E) :=
  if engine.initialized then
    restInvokeRestfulService engine.restfulServices request response buffer bufferSize
      offset engine.app
  else some (false, response, offset, engine.app)

/-! ## Serving -/

/-- The response a request is served into. -/
def Engine.prepare (request : Packet) (engine : Engine E) : Packet × Engine E :=
  let (response, engine) :=
    if request.type = .con then (coapInitMessage .ack content205 request.mid, engine)
    else (coapInitMessage .non content205 (engine.currentMid + 1),
      { engine with currentMid := engine.currentMid + 1 })
  (if request.token.bytes.length ≠ 0 then coapSetToken request.token.bytes response
    else response, engine)

/-- The part of `serve_request` that makes a block of what the handler set. An offset that is left
where it was says that the resource knows no blocks. -/
def blockResponse (request : Packet) (block : Block) (newOffset : Int32)
    (response : Packet) : Packet :=
  let payload := response.payload
  if request.isOption .block2 then
    if newOffset.toUInt32 = block.offset then
      if block.offset.toNat ≥ payload.length then
        coapSetPayload blockOutOfScope (coapSetStatusCode badOption402 response)
      else
        let rest := payload.drop block.offset.toNat
        coapSetPayload (rest.take (min rest.length block.size.toNat))
          (coapSetHeaderBlock2 block.num (rest.length > block.size.toNat) block.size response)
    else
      let response := coapSetHeaderBlock2 block.num
        (newOffset ≠ -1 || payload.length > block.size.toNat) block.size response
      if payload.length > block.size.toNat then
        coapSetPayload (payload.take block.size.toNat) response else response
  else if newOffset ≠ 0 then
    let response := coapSetHeaderBlock2 0 (newOffset ≠ -1 || payload.length > 1024) 1024 response
    if payload.length > 1024 then coapSetPayload (payload.take 1024) response else response
  else response

/-- The status and the message of an error, or the response. -/
def servedResponse (request : Packet) (served : Bool) (newOffset : Int32) (response : Packet) :
    Except (UInt8 × List UInt8) Packet :=
  if served then
    if request.isOption .block1 ∧ response.code < badRequest400 ∧ ¬response.isOption .block1 then
      .error (notImplemented501, noBlock1Support)
    else .ok (blockResponse request (requestedBlock2 request) newOffset response)
  else .error (notImplemented501, noServiceCallbck)

/-- What is sent for an error. -/
def Engine.errorResponse (status : UInt8) (response : Packet) (engine : Engine E) : Packet :=
  coapSetPayload engine.coapErrorMessage (coapSetStatusCode status response)

/-- The end of `serve_request`: the datagram, and whether the request has been served. -/
def sendServed (result : Except (UInt8 × List UInt8) Packet) (response : Packet)
    (engine : Engine E) : Option (Bool × List UInt8 × Engine E) :=
  let fail (status : UInt8) (response : Packet) (engine : Engine E) :=
    let response := engine.errorResponse status response
    (coapSerializeMessage coapMaxPacketSize response).map fun packet =>
      (decide (response.code ≠ notImplemented501), packet, engine)
  match result with
  | .error (status, message) => fail status response { engine with coapErrorMessage := message }
  | .ok response =>
    (coapSerializeMessage coapMaxPacketSize response).bind fun packet =>
      if packet.length = 0 then
        fail packetSerializationError response { engine with coapErrorMessage := headerExceeds }
      else some (decide (response.code ≠ notImplemented501), packet, engine)

/-- `serve_request`, whose callers have a buffer of `COAP_MAX_PACKET_SIZE` bytes for the datagram.
`buffer` is what the part of it is filled with that is given to the handler. -/
def serveRequest (buffer : List UInt8) (request : Packet) (engine : Engine E) :
    Option (Bool × List UInt8 × Engine E) :=
  let (response, engine) := engine.prepare request
  let block := requestedBlock2 request
  (engine.serviceCbk request response buffer block.size block.offset.toInt32).bind
    fun (served, response, newOffset, app) =>
    sendServed (servedResponse request served newOffset response) response
      { engine with app := app }

/-- The number of bytes `coap_set_payload_tcp` takes for an offset, which it clamps and keeps in 16
bits. -/
def offsetLength (offset : Int32) : Nat := min (1024 * 1024) (asSize offset) % 65536

/-- `serve_request_from_tcp`: the offset the handler leaves is taken for the length of the
payload. -/
def serveRequestFromTcp (buffer : List UInt8) (request : Packet) (engine : Engine E) :
    Option (Bool × List UInt8 × Engine E) :=
  let (response, engine) := engine.prepare request
  (engine.serviceCbk request response buffer 4096 0).bind fun (served, response, offset, app) =>
    let engine := { engine with app := app }
    let fail (status : UInt8) (response : Packet) (engine : Engine E) :=
      let response := engine.errorResponse status response
      (coapSerializeMessageTcp response).map fun (packet, response) =>
        (decide (response.code ≠ notImplemented501), packet, engine)
    if served then
      if offsetLength offset ≤ response.payload.length then
        let response := { response with payload := response.payload.take (offsetLength offset) }
        (coapSerializeMessageTcp response).bind fun (packet, response) =>
          if packet.length = 0 then fail packetSerializationError response engine
          else some (decide (response.code ≠ notImplemented501), packet, engine)
      else none
    else fail notImplemented501 response { engine with coapErrorMessage := noServiceCallbck }

end Idrm.Rest
