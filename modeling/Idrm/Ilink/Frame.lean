import Idrm.Ilink.Vheader

/-!
# The ilink frame encoder and the receiving state machine

`composeIlinkFrame` writes a message as leading byte, optional message id, type
byte, length and body. `onByteArrive` is the receiver, one byte at a time;
`onPayloadBlock` is its fast path for body bytes and `handleCloudPacket` the loop
which feeds one received chunk to both.

The receiver is a partial function of its context: `none` is a failed assertion
or a memory access outside its block. Return codes are the source's integers.
-/

namespace Idrm.Ilink

open Idrm.Lib

/-! ## Messages -/

/-- `FIXEDCHAR_NO_MSGID` -/
def fixedcharNoMsgid : UInt8 := 0xBA
/-- `FIXEDCHAR_REQUEST` -/
def fixedcharRequest : UInt8 := 0xFA
/-- `FIXEDCHAR_RESPINSE` -/
def fixedcharRespinse : UInt8 := 0xCE

/-- `ilink_message_t`. A pointer is the block from the byte it points to, or
`none` for `NULL`; the message id is kept to the 32 bits the wire carries. -/
structure IlinkMessage where
  leadingByte : UInt8
  hasMid : Bool
  isReq : Bool
  msgID : UInt32
  msgType : UInt8
  hasVheader : Bool
  isPayloadAlloc : Bool
  isVheaderAlloc : Bool
  vheaderLen : UInt32
  payloadLen : UInt32
  vheader : Option (List UInt8)
  payload : Option (List UInt8)
deriving DecidableEq

namespace IlinkMessage

/-- A message after `memset (msg, 0, sizeof (*msg))`. -/
def zero : IlinkMessage where
  leadingByte := 0
  hasMid := false
  isReq := false
  msgID := 0
  msgType := 0
  hasVheader := false
  isPayloadAlloc := false
  isVheaderAlloc := false
  vheaderLen := 0
  payloadLen := 0
  vheader := none
  payload := none

/-- The bytes the vheader pointer and its length describe. -/
def vheaderBytes (msg : IlinkMessage) : List UInt8 :=
  (msg.vheader.getD []).take msg.vheaderLen.toNat

/-- The bytes the payload pointer and its length describe. -/
def payloadBytes (msg : IlinkMessage) : List UInt8 :=
  (msg.payload.getD []).take msg.payloadLen.toNat

end IlinkMessage

/-! ## Composing -/

/-- The length field. From `0x80000000` on the source stores two `htons` results
through 32-bit pointers, which leaves each of them followed by two zero bytes. -/
def composeIlinkLength (msg : IlinkMessage) : List UInt8 :=
  let msgLen := msg.payloadLen + msg.vheaderLen
  if msgLen ≥ 0x80000000 then
    beBytes 2 (msgLen &&& 0x00007FFF).toNat ++ beBytes 2 0 ++
      (beBytes 2 ((msgLen &&& 0x7FFF8000) >>> 15).toNat ++ beBytes 2 0)
  else
    beBytes 2 msgLen.toNat

/-- The type byte, with the vheader flag in its top bit. -/
def composeIlinkType (msg : IlinkMessage) : UInt8 :=
  if msg.vheaderLen ≠ 0 then msg.msgType ||| 0x80 else msg.msgType

/-- The header before its length field: leading byte, message id if any, type byte. -/
def composeIlinkFront (msg : IlinkMessage) : List UInt8 :=
  (if !msg.hasMid then [fixedcharNoMsgid]
    else if msg.isReq then [fixedcharRequest]
    else [fixedcharRespinse]) ++
  (if msg.hasMid then beBytes 4 msg.msgID.toNat else []) ++
  [composeIlinkType msg]

/-- `compose_ilink_header` -/
def composeIlinkHeader (msg : IlinkMessage) : List UInt8 :=
  composeIlinkFront msg ++ composeIlinkLength msg

/-- `compose_ilink_frame` -/
def composeIlinkFrame (msg : IlinkMessage) : List UInt8 :=
  composeIlinkHeader msg ++ msg.vheaderBytes ++ msg.payloadBytes

/-! ## Receiving -/

/-- The receive phases `P_Not_Start` … `P_In_Payload`. -/
inductive Phase where
  | notStart
  | inMid
  | inType
  | inBaseLen
  | inExtLen
  | inPayload
deriving DecidableEq, Repr

/-- `recv_context_t`. The inline body buffer is only ever reached through
`ilinkMsg.payload`, which holds its bytes. -/
structure RecvContext where
  phase : Phase
  offset : Nat
  phaseLen : Int
  headBuff : List UInt8
  msglen : UInt32
  msglenex : UInt32
  ilinkMsg : IlinkMessage
deriving DecidableEq

/-- `sizeof (ctx->buffer)` -/
def bufferSize : Nat := 1024

/-- A context after `memset (ctx, 0, sizeof (recv_context_t))`. -/
def RecvContext.zero : RecvContext where
  phase := .notStart
  offset := 0
  phaseLen := 0
  headBuff := List.replicate 10 0
  msglen := 0
  msglenex := 0
  ilinkMsg := .zero

section Receiver

-- `malloc` of a size: the fresh block with whatever it contains, or `NULL`.
variable (malloc : Nat → Option (List UInt8))

/-- `payload_recieve_done`: close the message and split a vheader off its body. -/
def payloadRecieveDone (ctx : RecvContext) : Option RecvContext :=
  let ctx : RecvContext := { ctx with phase := .notStart, phaseLen := 1, offset := 0 }
  if ctx.ilinkMsg.hasVheader then
    match ctx.ilinkMsg.payload with
    | none => none
    | some block =>
      if block.length < 2 then none
      else
        let vheaderLen := UInt32.ofNat (beNat (block.take 2))
        some { ctx with ilinkMsg := { ctx.ilinkMsg with
          vheaderLen := vheaderLen
          vheader := some block
          isVheaderAlloc := ctx.ilinkMsg.isPayloadAlloc
          isPayloadAlloc := false
          payloadLen := ctx.ilinkMsg.payloadLen - vheaderLen
          payload := some (block.drop vheaderLen.toNat) } }
  else some ctx

/-- `length_recieve_done`: the body starts, in the inline buffer or in a fresh block. -/
def lengthRecieveDone (ctx : RecvContext) : Option (Int × RecvContext) :=
  if ctx.ilinkMsg.payload ≠ none then none
  else
    let ctx : RecvContext := { ctx with
      phase := .inPayload
      phaseLen := ctx.msglen.toInt32.toInt
      offset := 0
      ilinkMsg := { ctx.ilinkMsg with payloadLen := ctx.msglen } }
    if ctx.ilinkMsg.payloadLen = 0 then
      some (0, { ctx with phase := .notStart, phaseLen := 1 })
    else if ctx.ilinkMsg.payloadLen.toNat < bufferSize then
      some (1, { ctx with ilinkMsg := { ctx.ilinkMsg with
        payload := some (List.replicate bufferSize 0)
        isPayloadAlloc := false } })
    else
      match malloc ctx.ilinkMsg.payloadLen.toNat with
      | none => some (-1, { ctx with phase := .notStart, phaseLen := 1 })
      | some block => some (1, { ctx with ilinkMsg := { ctx.ilinkMsg with
          payload := some block
          isPayloadAlloc := true } })

/-- Record a header byte at the current offset. -/
def pushHead (ch : UInt8) (ctx : RecvContext) : Option RecvContext :=
  (store ctx.headBuff ctx.offset ch).map fun headBuff =>
    { ctx with headBuff := headBuff, offset := ctx.offset + 1 }

/-- The `END` label of `on_byte_arrive`: a header byte was taken and more follow. -/
def endOfByte (ch : UInt8) (ctx : RecvContext) : Option (Int × RecvContext) :=
  if ctx.phase = .inPayload then none
  else (pushHead ch ctx).map fun ctx => (1, ctx)

/-- `on_byte_arrive`, with its return code: `1` more bytes needed, `0` message
complete, `2` inside the body, `-1` no memory. -/
def onByteArrive (ch : UInt8) (ctx : RecvContext) : Option (Int × RecvContext) :=
  match ctx.phase with
  | .notStart =>
    -- `reset_ilink_message` and `memset` leave nothing of the previous message.
    let ctx := RecvContext.zero
    if ch = fixedcharNoMsgid then
      endOfByte ch { ctx with
        phase := .inType
        phaseLen := 1
        ilinkMsg := { ctx.ilinkMsg with leadingByte := ch, hasMid := false } }
    else if ch = fixedcharRequest ∨ ch = fixedcharRespinse then
      endOfByte ch { ctx with
        phase := .inMid
        phaseLen := 4
        ilinkMsg := { ctx.ilinkMsg with
          leadingByte := ch
          hasMid := true
          isReq := decide (ch = fixedcharRequest) } }
    else
      some (1, { ctx with phase := .notStart })
  | .inMid =>
    let ctx : RecvContext := { ctx with
      ilinkMsg := { ctx.ilinkMsg with msgID := shiftInByte ctx.ilinkMsg.msgID ch }
      phaseLen := ctx.phaseLen - 1 }
    if ctx.phaseLen = 0 then endOfByte ch { ctx with phase := .inType, phaseLen := 1 }
    else endOfByte ch ctx
  | .inType =>
    let ctx : RecvContext := { ctx with phaseLen := ctx.phaseLen - 1 }
    if ctx.phaseLen = 0 then
      endOfByte ch { ctx with
        phase := .inBaseLen
        phaseLen := 2
        ilinkMsg := { ctx.ilinkMsg with
          msgType := ch &&& 0x7F
          hasVheader := ctx.ilinkMsg.hasVheader || decide (ch &&& 0x80 ≠ 0) } }
    else endOfByte ch ctx
  | .inBaseLen =>
    let ctx : RecvContext := { ctx with
      msglen := shiftInByte ctx.msglen ch
      phaseLen := ctx.phaseLen - 1 }
    if ctx.phaseLen = 0 then
      if ctx.msglen &&& 0x00008000 ≠ 0 then
        endOfByte ch { ctx with phase := .inExtLen, phaseLen := 2 }
      else
        (pushHead ch ctx).bind fun ctx => lengthRecieveDone malloc ctx
    else endOfByte ch ctx
  | .inExtLen =>
    let ctx : RecvContext := { ctx with
      msglenex := shiftInByte ctx.msglenex ch
      phaseLen := ctx.phaseLen - 1 }
    if ctx.phaseLen = 0 then
      let ctx : RecvContext := { ctx with
        msglen := ((ctx.msglenex <<< 15) &&& 0x7FFF8000) ||| (ctx.msglen &&& 0x00007FFF) }
      (pushHead ch ctx).bind fun ctx => lengthRecieveDone malloc ctx
    else endOfByte ch ctx
  | .inPayload =>
    match ctx.ilinkMsg.payload with
    | none => none
    | some block =>
      (store block ctx.offset ch).bind fun block =>
        let ctx : RecvContext := { ctx with
          phaseLen := ctx.phaseLen - 1
          offset := ctx.offset + 1
          ilinkMsg := { ctx.ilinkMsg with payload := some block } }
        if ctx.phaseLen = 0 then
          (payloadRecieveDone ctx).map fun ctx => (0, ctx)
        else some (2, ctx)

/-- The smaller of the bytes at hand and the bytes the body still needs. -/
def copyLen (len : Nat) (phaseLen : Int) : Int :=
  if (len : Int) < phaseLen then len else phaseLen

/-- `on_payload_block`: copy as much of `buffer` as the body still needs. Returns
the code (`0` complete, `1` more needed), the number of bytes taken and the
context. A negative remainder would reach `memcpy` as a huge size. -/
def onPayloadBlock (ctx : RecvContext) (buffer : List UInt8) : Option (Int × Nat × RecvContext) :=
  if ctx.phase ≠ .inPayload then none
  else
    let copyLen := copyLen buffer.length ctx.phaseLen
    if copyLen < 0 then none
    else
      match ctx.ilinkMsg.payload with
      | none => none
      | some block =>
        (storeAll block ctx.offset (buffer.take copyLen.toNat)).bind fun block =>
          let ctx : RecvContext := { ctx with
            phaseLen := ctx.phaseLen - copyLen
            offset := ctx.offset + copyLen.toNat
            ilinkMsg := { ctx.ilinkMsg with payload := some block } }
          if ctx.phaseLen = 0 then
            (payloadRecieveDone ctx).map fun ctx => (0, copyLen.toNat, ctx)
          else some (1, copyLen.toNat, ctx)

/-- What a receiver run leaves: the messages handed to `handle_ilink_message`, in
order, and the context. -/
structure Received where
  delivered : List IlinkMessage
  ctx : RecvContext
deriving DecidableEq

/-- Put the deliveries of an earlier part of a run in front. -/
def Received.after (earlier : List IlinkMessage) (later : Received) : Received :=
  { later with delivered := earlier ++ later.delivered }

/-- The loop of `handle_cloud_packet`; `stringLen` counts the bytes left. -/
def handleCloudPacketLoop : Nat → List UInt8 → RecvContext → Option Received
  | 0, _, ctx => some ⟨[], ctx⟩
  | _ + 1, [], ctx => some ⟨[], ctx⟩
  | stringLen + 1, ch :: pos, ctx =>
    (onByteArrive malloc ch ctx).bind fun (result, ctx) =>
      if result = 2 then
        (onPayloadBlock ctx pos).bind fun (done, len, ctx) =>
          (handleCloudPacketLoop stringLen (pos.drop len) ctx).map
            (·.after (if done = 0 then [ctx.ilinkMsg] else []))
      else
        (handleCloudPacketLoop stringLen pos ctx).map
          (·.after (if result = 0 then [ctx.ilinkMsg] else []))

/-- `handle_cloud_packet` on one received chunk. -/
def handleCloudPacket (message : List UInt8) (ctx : RecvContext) : Option Received :=
  handleCloudPacketLoop malloc message.length message ctx

/-- The receive loop: one `handle_cloud_packet` for every chunk `recv` returns. -/
def handleCloudPackets : List (List UInt8) → RecvContext → Option Received
  | [], ctx => some ⟨[], ctx⟩
  | chunk :: rest, ctx =>
    (handleCloudPacket malloc chunk ctx).bind fun first =>
      (handleCloudPackets rest first.ctx).map (·.after first.delivered)

/-- Every byte through `on_byte_arrive`, delivering on each return of `0`. -/
def feedBytes : List UInt8 → RecvContext → Option Received
  | [], ctx => some ⟨[], ctx⟩
  | ch :: rest, ctx =>
    (onByteArrive malloc ch ctx).bind fun (result, ctx) =>
      (feedBytes rest ctx).map (·.after (if result = 0 then [ctx.ilinkMsg] else []))

end Receiver

end Idrm.Ilink
