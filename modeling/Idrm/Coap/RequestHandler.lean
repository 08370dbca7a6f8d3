import Idrm.Coap.Blockwise
import Idrm.Coap.OverUdp

/-!
# Serving requests

`coap_request_handler`: block-wise transfers are taken in or answered from the store,
everything else goes to the first resource handler whose url matches, and a long
representation is kept for the blocks the client has yet to ask for.

A handler works on the application's state and answers with a status, a payload of at
most a chunk, a content format, and possibly a representation of its own that may be
longer.
-/

namespace Idrm.Coap

open Idrm.Lib

/-- `MANUAL_RESPONSE` -/
def manualResponse : UInt8 := 194

/-! ## Resources -/

/-- A string behind one leading slash. -/
def skipSlash (string : List UInt8) : List UInt8 :=
  match string with
  | 0x2F :: rest => rest
  | rest => rest

/-- `strncmp` of two strings, the first of which is at least as long as asked for. -/
def sameStart (length : Nat) (pattern matched : List UInt8) : Bool :=
  pattern.take length = matched.take length

/-- `match_url` -/
def matchUrl (pattern matched : CString) : Bool :=
  let pattern := skipSlash pattern.bytes
  let matched := skipSlash matched.bytes
  let matchedLen := if matched.getLast? = some 0x2F then matched.length - 1 else matched.length
  if matchedLen = 0 then false
  else match pattern.getLast? with
    | none => false
    | some last =>
      if last = 0x2F then
        let len := pattern.length - 1
        sameStart len pattern matched &&
          (len = matchedLen || (len < matchedLen && matched[len]? = some 0x2F))
      else if last = 0x2A then sameStart (pattern.length - 1) pattern matched
      else pattern = matched

/-- What a handler makes of a request. -/
structure HandlerResult where
  status : UInt8
  payload : List UInt8
  contentFormat : Option UInt32
  outPayload : List UInt8

/-- `CoAP_Res_Handler`, on the state of the application. -/
abbrev Handler (E : Type) := Packet → E → HandlerResult × E

/-- `coap_resource_handler_t` -/
structure ResourceHandler (E : Type) where
  url : CString
  getHandler : Option (Handler E)
  putHandler : Option (Handler E)
  postHandler : Option (Handler E)
  otherHandler : Option (Handler E)

section Serve

variable {A E : Type}

/-- The handler of a resource for a method. -/
def ResourceHandler.handlerFor (resource : ResourceHandler E) (code : UInt8) : Option (Handler E) :=
  if code = coapGet then resource.getHandler
  else if code = coapPost then resource.postHandler
  else if code = coapPut then resource.putHandler
  else resource.otherHandler

/-- Whether a handler is given a place for a representation of its own. -/
def takesOutPayload (code : UInt8) : Bool := code = coapGet || code = coapPost

/-- The first handler of the list that matches a url and serves a method. -/
def findHandler (url : CString) (code : UInt8) : List (ResourceHandler E) → Option (Handler E)
  | [] => none
  | resource :: rest =>
    if matchUrl resource.url url then
      match resource.handlerFor code with
      | some handler => some handler
      | none => findHandler url code rest
    else findHandler url code rest

/-- The server's side of a context, with the requests its handlers were called with and
the datagrams it sent. -/
structure ServerContext (A E : Type) where
  blockwise : BlockStore A
  resources : List (ResourceHandler E)
  requestHandler : Option (Packet → E → UInt8 × E)
  responseOnNotFound : Bool
  currentMid : UInt16
  app : E
  handled : List Packet
  txData : List (A × List UInt8)

/-- The fields of a response a handler sets. -/
def applyResult (result : HandlerResult) (response : Packet) : Packet :=
  let response := coapSetPayload result.payload response
  match result.contentFormat with
  | none => response
  | some format => coapSetHeaderContentFormat format response

/-- `coap_handle_request_internal`: the status, the response, and the representation
that was given apart from it. -/
def coapHandleRequestInternal (request response : Packet) (server : ServerContext A E) :
    UInt8 × Packet × List UInt8 × ServerContext A E :=
  let url := coapGetHeaderUriPath request
  if url.length = 0 ∨ url.length ≥ 256 then (255, response, [], server)
  else match findHandler (.ofBytes url) request.code server.resources with
    | none => (notImplemented501, response, [], server)
    | some handler =>
      let (result, app) := handler request server.app
      (result.status, applyResult result response,
        if takesOutPayload request.code then result.outPayload else [],
        { server with app := app, handled := server.handled ++ [request] })

/-- `send_coap_msg` -/
def ServerContext.send (source : A) (message : Packet) (server : ServerContext A E) :
    Option (ServerContext A E) :=
  (coapSerializeMessage coapMaxPacketSize message).map fun packet =>
    if packet.length > 0 then
      { server with txData := server.txData ++ [(source, packet)] } else server

/-- The end of `coap_request_handler` for a `GET`: the block asked for is sent, and a
representation that has more is kept. Without a path the code keeps it under `NULL`, and crashes
when it next compares that; here nothing is kept then, and `Named` rules it out in runs. -/
def respondGet [DecidableEq A] (now : UInt32) (source : A) (request response : Packet)
    (outPayload : List UInt8) (server : ServerContext A E) : Option (ServerContext A E) :=
  let block := requestedBlock2 request
  let payloadLen := if outPayload.length = 0 then response.payload.length else outPayload.length
  let more := UInt32.ofNat payloadLen - block.offset > block.size.toUInt32
  let outPayload := if more ∧ outPayload.length = 0 then response.payload else outPayload
  let response := if more then
      coapSetHeaderSize2 (UInt32.ofNat payloadLen)
        (coapSetHeaderBlock2 block.num true block.size response)
    else response
  let start := block.offset.toNat
  let send (response : Packet) : Option (ServerContext A E) :=
    (server.send source response).map fun server =>
      if more ∨ block.more then
        match coapGetFullUrlAlloc request with
        | none => server
        | some url => { server with
            blockwise := setResBlockwise now source url outPayload (Int32.ofNat outPayload.length)
              block.num response.contentFormat.toUInt16 server.blockwise }
      else server
  if outPayload.length ≠ 0 then
    let count := (min (UInt32.ofNat outPayload.length - block.offset) block.size.toUInt32).toNat
    if start + count ≤ outPayload.length then
      send (coapSetPayload ((outPayload.drop start).take count) response)
    else none
  else if block.offset ≠ 0 then
    if more ∨ block.more then none
    else
      let count := (UInt32.ofNat response.payload.length - block.offset).toNat
      if start + min restMaxChunkSize count ≤ response.payload.length then
        send (coapSetPayload ((response.payload.drop start).take count) response)
      else none
  else send response

/-- `coap_request_handler` from the call of the REST framework on. -/
def serveRequest [DecidableEq A] (now : UInt32) (source : A) (request response : Packet)
    (server : ServerContext A E) : Option (ServerContext A E) :=
  let (status, response, outPayload, server) := coapHandleRequestInternal request response server
  let (status, server) :=
    if status = notImplemented501 then
      match server.requestHandler with
      | none => (status, server)
      | some handler =>
        let (status, app) := handler request server.app
        (status, { server with app := app })
    else (status, server)
  let response := coapSetStatusCode status response
  if status = manualResponse then some server
  else if status ≠ notImplemented501 then
    if request.code = coapGet then respondGet now source request response outPayload server
    else server.send source response
  else if server.responseOnNotFound then server.send source response
  else some server

/-- The response `coap_request_handler` starts from. -/
def prepareResponse (request : Packet) (server : ServerContext A E) : Packet × ServerContext A E :=
  let (response, server) :=
    if request.type = .con then (coapInitMessage .ack content205 request.mid, server)
    else (coapInitMessage .non content205 (server.currentMid + 1),
      { server with currentMid := server.currentMid + 1 })
  (if request.token.bytes.length ≠ 0 then coapSetToken request.token.bytes response
    else response, server)

/-- `coap_request_handler` -/
def coapRequestHandler [DecidableEq A] (now : UInt32) (source : A) (request : Packet)
    (server : ServerContext A E) : Option (ServerContext A E) :=
  let (response, server) := prepareResponse request server
  if request.code = coapGet then
    (checkBlockwiseTransferGet now source request response server.blockwise).bind
      fun (check, response, store) =>
        let server := { server with blockwise := store }
        match check with
        | .notBlockwise => serveRequest now source request response server
        | _ => server.send source response
  else if request.code = coapPost ∨ request.code = coapPut then
    (checkBlockwiseTransferPut now source request response server.blockwise).bind
      fun (check, response, store) =>
        let server := { server with blockwise := store }
        match check with
        | .notBlockwise => serveRequest now source request response server
        | .completed payload =>
          serveRequest now source { request with payload := payload } response server
        | _ => server.send source response
  else serveRequest now source request response server

/-- `coap_handle_packet` of a server. It has sent no request itself, so a response finds
none to belong to. -/
def serverHandlePacket [DecidableEq A] (now : UInt32) (source : A) (data : List UInt8)
    (server : ServerContext A E) : Option (ServerContext A E) :=
  (coapParseMessage data).bind fun
    | .error _ => some server
    | .ok parsed =>
      let message := received parsed
      if isRequest message then coapRequestHandler now source message server
      else if message.type = .con then server.send source (coapInitMessage .ack 0 message.mid)
      else some server

end Serve

end Idrm.Coap
