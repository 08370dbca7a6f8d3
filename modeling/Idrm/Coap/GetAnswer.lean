import Idrm.Coap.RequestHandler

/-!
# The answer to a `GET`

The part of `coap_request_handler` behind the handler of a `GET`, taken apart: the answer
it makes of what the handler returned, and the representation it keeps. The answer does not
depend on the server.
-/

namespace Idrm.Coap

open Idrm.Lib

/-- The payload a handler returned, apart from the response or in it. -/
def returnedPayload (response : Packet) (outPayload : List UInt8) : List UInt8 :=
  if outPayload.length = 0 then response.payload else outPayload

/-- Whether the handler's payload goes on behind the block asked for. The difference is
unsigned, and wraps when the block starts behind the payload. -/
def moreBehind (request : Packet) (payload : List UInt8) : Bool :=
  UInt32.ofNat payload.length - (requestedBlock2 request).offset >
    (requestedBlock2 request).size.toUInt32

/-- The response a `GET` is answered with, given what the handler set and returned; without
one where the code reads outside of the payload, or fails its assertion. -/
def getAnswer (request response : Packet) (outPayload : List UInt8) : Option Packet :=
  let block := requestedBlock2 request
  let payload := returnedPayload response outPayload
  let more := moreBehind request payload
  let kept := if more ∧ outPayload.length = 0 then response.payload else outPayload
  let response := if more then
      coapSetHeaderSize2 (UInt32.ofNat payload.length)
        (coapSetHeaderBlock2 block.num true block.size response)
    else response
  if kept.length ≠ 0 then
    let count := (min (UInt32.ofNat kept.length - block.offset) block.size.toUInt32).toNat
    if block.offset.toNat + count ≤ kept.length then
      some (coapSetPayload ((kept.drop block.offset.toNat).take count) response)
    else none
  else if block.offset ≠ 0 then
    if more ∨ block.more then none
    else
      let count := (UInt32.ofNat response.payload.length - block.offset).toNat
      if block.offset.toNat + min restMaxChunkSize count ≤ response.payload.length then
        some (coapSetPayload ((response.payload.drop block.offset.toNat).take count) response)
      else none
  else some response

section Keep

variable {A E : Type} [DecidableEq A]

/-- A server behind the answer to a `GET`: a representation that has more blocks, or whose
client set the more bit, is kept. -/
def ServerContext.keep (now : UInt32) (source : A) (request answer : Packet)
    (payload outPayload : List UInt8) (server : ServerContext A E) : ServerContext A E :=
  let more := moreBehind request payload
  let kept := if more ∧ outPayload.length = 0 then payload else outPayload
  if more ∨ (requestedBlock2 request).more then
    match coapGetFullUrlAlloc request with
    | none => server
    | some url => { server with
        blockwise := setResBlockwise now source url kept (Int32.ofNat kept.length)
          (requestedBlock2 request).num answer.contentFormat.toUInt16 server.blockwise }
  else server

theorem returnedPayload_length (response : Packet) (outPayload : List UInt8) :
    (returnedPayload response outPayload).length =
      if outPayload.length = 0 then response.payload.length else outPayload.length := by
  unfold returnedPayload
  split <;> rfl

/-- The end of a `GET` is its answer, sent, and what is kept. -/
theorem respondGet_eq (now : UInt32)
    (source : A) (request response : Packet) (outPayload : List UInt8)
    (server : ServerContext A E) : respondGet now source request response outPayload server =
      (getAnswer request response outPayload).bind fun answer =>
        (server.send source answer).map fun server =>
          server.keep now source request answer
            (returnedPayload response outPayload) outPayload := by
  have kept : (if moreBehind request (returnedPayload response outPayload) = true ∧
    outPayload.length = 0 then
      returnedPayload response outPayload else outPayload) = if moreBehind request
        (returnedPayload response outPayload) = true ∧ outPayload.length = 0 then
          response.payload else outPayload := by
    split
    · rename_i empty
      exact if_pos empty.2
    · rfl
  unfold ServerContext.keep
  simp only [kept]
  unfold respondGet getAnswer
  simp only [moreBehind, decide_eq_true_eq, returnedPayload_length]
  generalize (if UInt32.ofNat (if outPayload.length = 0 then
    response.payload.length else outPayload.length) - (requestedBlock2 request).offset >
    (requestedBlock2 request).size.toUInt32 ∧ outPayload.length = 0 then
      response.payload else outPayload) = kept
  generalize (if UInt32.ofNat (if outPayload.length = 0 then
    response.payload.length else outPayload.length) -
    (requestedBlock2 request).offset > (requestedBlock2 request).size.toUInt32 then
      coapSetHeaderSize2 _ (coapSetHeaderBlock2 _ _ _ response) else response) = answered
  by_cases full : kept.length ≠ 0
  · rw [if_pos full, if_pos full]
    split
    · rfl
    · rfl
  rw [if_neg full, if_neg full]
  by_cases inside : (requestedBlock2 request).offset ≠ 0
  · rw [if_pos inside, if_pos inside]
    generalize (if outPayload.length = 0 then response.payload.length else outPayload.length) =
      payloadLen
    by_cases more : UInt32.ofNat payloadLen - (requestedBlock2 request).offset >
        (requestedBlock2 request).size.toUInt32 ∨ (requestedBlock2 request).more = true
    · rw [if_pos more, if_pos more]
      rfl
    · rw [if_neg more, if_neg more]
      simp only [if_neg more]
      split
      · rfl
      · rfl
  · rw [if_neg inside, if_neg inside]
    rfl

end Keep

end Idrm.Coap
