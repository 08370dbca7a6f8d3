import Idrm.Lib.Run
import Idrm.Coap.OverTcp
import Idrm.Coap.OverUdp

/-!
# Blocking requests

`coap_blocking_request` and `coap_blocking_request_tcp` send a request block by block and
wait for each response themselves. Between two calls of `rx_data` the state of such a loop
is `Waiting`; a step takes what the call brought, and either waits again or returns.

`make_blocking_request` runs one of them with `blocking_request_handler`, which collects the
payload. Memory is taken to suffice. `none` is a read or a write outside of a buffer, or a
length that leaves its `int`.
-/

namespace Idrm.Coap

open Idrm.Lib

/-- What a loop reads of its `coap_context_t`. -/
structure RetransDefaults where
  defaultRetransCnt : UInt16
  defaultRetransMs : UInt32

/-- What a call of `rx_data` brings: a packet, or a timeout; and the time that
`get_elpased_ms` measures before it. -/
structure Reception where
  elapsedMs : UInt32
  data : Option (List UInt8)

/-- A loop that waits for a packet, with the data of its callback. `resBlock` and `more` are
what the last block option said. -/
structure Waiting (D : Type) where
  currentMid : UInt16
  request : Packet
  packet : List UInt8
  blockNum : UInt32
  resend : Nat
  blockError : UInt8
  resBlock : UInt32
  more : Bool
  waitingMs : Int32
  sent : List (List UInt8)
  userData : D

/-- A loop goes on waiting, or has returned. -/
inductive Progress (D : Type) where
  | waits (state : Waiting D)
  | returns (ret : Int) (userData : D)

/-- `restful_response_handler`: what it returns, and the user data it leaves. -/
abbrev ResponseHandler (D : Type) := D → Option Packet → Option (Int × D)

/-- `STOP_REQUEST` -/
def stopRequest : Int := -1

/-- `COAP_MAX_ATTEMPTS` -/
def coapMaxAttempts : UInt8 := 4

/-- The waiting time of a context, with its default. -/
def RetransDefaults.waitingMs (defaults : RetransDefaults) : Int32 :=
  if defaults.defaultRetransMs.toInt32 = 0 then 2000 else defaults.defaultRetransMs.toInt32

section Loop

variable {D : Type}

/-- The state before the first request; the number of a request is one above the last. -/
def Waiting.start (defaults : RetransDefaults) (currentMid : UInt16) (request : Packet)
    (userData : D) : Waiting D where
  currentMid := currentMid
  request := request
  packet := []
  blockNum := 0
  resend := 0
  blockError := 0
  resBlock := 0
  more := false
  waitingMs := defaults.waitingMs
  sent := []
  userData := userData

/-- `tx_data` -/
def Waiting.transmit (packet : List UInt8) (state : Waiting D) : Waiting D :=
  { state with packet := packet, sent := state.sent ++ [packet] }

/-- `coap_get_header_block2` into the variables of the loop, which stay as they are when the
response has no such option. -/
def Waiting.note (response : Packet) (state : Waiting D) : Waiting D :=
  match coapGetHeaderBlock2 response with
  | some block => { state with resBlock := block.num, more := block.more }
  | none => state

/-- The end of a round: the request is over with the last block, goes on with the next one, or
is given up with what `ret` holds by then. -/
def Waiting.proceed (ret : Int) (sendNext : Waiting D → Option (Progress D)) (state : Waiting D) :
    Option (Progress D) :=
  if state.more = false then some (.returns 0 state.userData)
  else if state.blockError < coapMaxAttempts then sendNext state
  else some (.returns ret state.userData)

/-- What a round does with a response to its request. A block that is not the one asked for is
counted; `stopped` is returned for a callback that stops the request. -/
def Waiting.respond (callback : ResponseHandler D)
    (stopped ret : Int) (sendNext : Waiting D → Option (Progress D))
    (response : Packet) (state : Waiting D) : Option (Progress D) :=
  let state := state.note response
  if state.resBlock = state.blockNum then
    (callback state.userData (some response)).bind fun (answer, userData) =>
      if answer = stopRequest then some (.returns stopped userData)
      else { state with userData := userData, blockNum := state.blockNum + 1 }.proceed ret sendNext
  else { state with blockError := state.blockError + 1 }.proceed ret sendNext

/-! ## Over UDP -/

/-- The head of the loop of `coap_blocking_request`. -/
def Waiting.sendNext (defaults : RetransDefaults) (state : Waiting D) : Option (Progress D) :=
  let mid := state.currentMid + 1
  let request := coapSetHeaderBlock2 state.blockNum false (UInt16.ofNat restMaxChunkSize)
    { state.request with mid := mid }
  (coapSerializeMessage coapMaxPacketSize request).map fun packet =>
    .waits ({ state with
      currentMid := mid, request := request, resend := 0, waitingMs :=
        defaults.waitingMs }.transmit packet)

/-- The response to a request that a datagram holds, if it does hold one; for anything else
the loop receives again. -/
def matchingResponse (request : Packet) (data : List UInt8) : Option (Option Packet) :=
  (coapParseMessage data).map fun parsed =>
    match parsed with
    | .error _ => none
    | .ok parsed =>
      let response := received parsed
      if isRequest response = true ∨ response.mid ≠ request.mid then none else some response

/-- A round of `coap_blocking_request`, from one `rx_data` to the next. -/
def coapBlockingRequest (defaults : RetransDefaults) (callback : ResponseHandler D)
    (reception : Reception) (state : Waiting D) : Option (Progress D) :=
  let state := { state with
    waitingMs := if state.waitingMs.toUInt32 > reception.elapsedMs then
      state.waitingMs - reception.elapsedMs.toInt32 else 1 }
  match reception.data with
  | none =>
    if state.resend = defaults.defaultRetransCnt.toNat then some (.returns (-1) state.userData)
    else some (.waits ({ state with
      resend := state.resend + 1
      waitingMs := defaults.waitingMs }.transmit state.packet))
  | some data =>
    (matchingResponse state.request data).bind fun found =>
      match found with
      | none => some (.waits state)
      | some response => state.respond callback 0 data.length (·.sendNext defaults) response

/-! ## Over TCP -/

/-- The head of the loop of `coap_blocking_request_tcp`: the message id is also the token. A
request that is not written ends the loop with what `ret` holds by then. -/
def Waiting.sendNextTcp (ret : Int) (state : Waiting D) : Option (Progress D) :=
  let mid := state.currentMid + 1
  let request := coapSetHeaderBlock2 state.blockNum false (UInt16.ofNat restMaxChunkSize)
    (coapSetToken (midBytes mid) { state.request with mid := mid })
  (coapSerializeMessageTcp request).map fun (packet, request) =>
    let state := { state with currentMid := mid, request := request }
    if packet.length = 0 then .returns ret state.userData else .waits (state.transmit packet)

/-- The first two bytes of a token field, which is zero behind its token. -/
def tokenWord (token : List UInt8) : UInt16 :=
  (token.getD 0 0).toUInt16 ||| ((token.getD 1 0).toUInt16 <<< 8)

/-- The response to a request that a message holds, if it does hold one. -/
def matchingResponseTcp (request : Packet) (data : List UInt8) : Option (Option Packet) :=
  (coapParseMessageTcp data).map fun parsed =>
    match parsed with
    | .error _ => none
    | .ok parsed =>
      let response := received parsed
      if isRequest response = true ∨ tokenWord response.token.bytes ≠ request.mid then none
        else some response

/-- The callback is told that there will be no response. -/
def Waiting.abandon (callback : ResponseHandler D) (state : Waiting D) : Option (Progress D) :=
  (callback state.userData none).map fun (_, userData) => .returns (-1) userData

/-- A round of `coap_blocking_request_tcp`, from one `rx_data` to the next. The waiting time is
one for all rounds. -/
def coapBlockingRequestTcp (callback : ResponseHandler D) (reception : Reception)
    (state : Waiting D) : Option (Progress D) :=
  let state := { state with waitingMs := state.waitingMs - reception.elapsedMs.toInt32 }
  if state.waitingMs ≤ 0 then state.abandon callback
  else match reception.data with
    | none => state.abandon callback
    | some data =>
      if data.length = 0 then state.abandon callback
      else (matchingResponseTcp state.request data).bind fun found =>
        match found with
        | none => some (.waits state)
        | some response =>
          state.respond callback (-1) data.length (·.sendNextTcp data.length) response

end Loop

/-! ## The payload as a whole -/

/-- The result of a `coap_request_user_data_t`. -/
inductive RequestResult where
  | fail
  | success
  | timeout
deriving DecidableEq, Repr

/-- `coap_request_user_data_t`; `len` is the length of the payload. -/
structure RequestUserData where
  payload : List UInt8
  result : RequestResult
deriving DecidableEq

/-- `coap_request_user_data_t` after `memset`. -/
def RequestUserData.zero : RequestUserData := ⟨[], .fail⟩

/-- `blocking_request_handler` -/
def blockingRequestHandler : ResponseHandler RequestUserData
  | userCtx, none => some (stopRequest, { userCtx with result := .timeout })
  | userCtx, some resp =>
    if resp.code > content205 ∨ created201 > resp.code then
      some (stopRequest, { userCtx with result := .fail })
    else if userCtx.payload.length + resp.payload.length ≥ 2 ^ 31 - 1 then none
    else some (0, ⟨userCtx.payload ++ resp.payload, .success⟩)

/-- How `make_blocking_request` reaches its server: over UDP when it is given an address. -/
inductive Transport where
  | udp
  | tcp
deriving DecidableEq, Repr

/-- The first request is sent. -/
def Transport.begin (transport : Transport) (defaults : RetransDefaults) (currentMid : UInt16)
    (request : Packet) : Option (Progress RequestUserData) :=
  let state := Waiting.start defaults currentMid request .zero
  match transport with
  | .udp => state.sendNext defaults
  | .tcp => state.sendNextTcp (-1)

/-- A round of the loop; one that has returned receives no more. -/
def Transport.round (transport : Transport) (defaults : RetransDefaults) (reception : Reception) :
    Progress RequestUserData → Option (Progress RequestUserData)
  | .returns ret userData => some (.returns ret userData)
  | .waits state =>
    match transport with
    | .udp => coapBlockingRequest defaults blockingRequestHandler reception state
    | .tcp => coapBlockingRequestTcp blockingRequestHandler reception state

/-- `make_blocking_request`, as far as the packets and timeouts received let it come. -/
def makeBlockingRequest (transport : Transport) (defaults : RetransDefaults) (currentMid : UInt16)
    (request : Packet) (receptions : List Reception) : Option (Progress RequestUserData) :=
  (transport.begin defaults currentMid request).bind (runAll (transport.round defaults) receptions)

/-- The user data that `make_blocking_request` returns; it is `NULL` for a loop that failed. -/
def Progress.handedOut : Progress RequestUserData → Option RequestUserData
  | .waits _ => none
  | .returns ret userData => if ret ≠ -1 then some userData else none

end Idrm.Coap
