import Mathlib.Data.Nat.Bitwise
import Idrm.Ilink.Chunks

/-!
# Frames on the wire

What the receiver makes of the encoder's output. `feedBytes_frame` is the result
for one frame with a short length; `handleCloudPacket_frames` lifts it to any
sequence of frames with noise between them.

Lengths from `0x8000` on are another matter: the decoder continues the length in
an extension field, which the encoder only writes from `0x80000000` on.
`composeIlinkHeader_large` shows that no such header decodes to its own length.
-/

namespace Idrm.Ilink

open Idrm.Lib Option List

/-- A byte that opens a frame. -/
def IsSync (byte : UInt8) : Prop :=
  byte = fixedcharNoMsgid ∨ byte = fixedcharRequest ∨ byte = fixedcharRespinse

instance (byte : UInt8) : Decidable (IsSync byte) := inferInstanceAs (Decidable (_ ∨ _ ∨ _))

/-- `malloc` succeeds: every size gets a block of that size. -/
def MallocSucceeds (malloc : Nat → Option (List UInt8)) : Prop :=
  ∀ size, ∃ block, malloc size = some block ∧ block.length = size

/-- The length a message puts in its header. -/
def IlinkMessage.frameLen (msg : IlinkMessage) : Nat := msg.vheaderLen.toNat + msg.payloadLen.toNat

/-- A message as its senders build it: a request has an id, the type leaves room
for the vheader flag, the vheader is absent or came from `vheader_compose`, and
the recorded lengths are those of the bytes. -/
structure Sendable (msg : IlinkMessage) : Prop where
  requestHasMid : msg.isReq = true → msg.hasMid = true
  typeBound : msg.msgType.toNat < 128
  vheaderComposed : msg.vheaderLen = 0 ∨
    ∃ vheader bytes, vheaderCompose vheader = some bytes ∧ bytes ≠ [] ∧
      msg.vheader = some bytes ∧ msg.vheaderLen.toNat = bytes.length
  payloadLength : (msg.payload.getD []).length = msg.payloadLen.toNat
  short : msg.frameLen < 0x8000

/-- The receiver was handed what was composed; a frame without a message id
carries none. -/
structure Carries (sent received : IlinkMessage) : Prop where
  hasMid : received.hasMid = sent.hasMid
  isReq : received.isReq = sent.isReq
  msgID : received.msgID = if sent.hasMid then sent.msgID else 0
  msgType : received.msgType = sent.msgType
  vheader : received.vheaderBytes = sent.vheaderBytes
  payload : received.payloadBytes = sent.payloadBytes

section Receiver

variable (malloc : Nat → Option (List UInt8))

/-! ## Header phases -/

/-- A context inside a header, with `count` of its bytes recorded. -/
structure InHeader (phase : Phase) (phaseLen : Int) (count : Nat) (msglen : UInt32)
    (msg : IlinkMessage) (ctx : RecvContext) : Prop where
  phaseIs : ctx.phase = phase
  phaseLenIs : ctx.phaseLen = phaseLen
  offsetIs : ctx.offset = count
  headSize : ctx.headBuff.length = 10
  msglenIs : ctx.msglen = msglen
  msgIs : ctx.ilinkMsg = msg

variable {ctx : RecvContext}

theorem pushHead_room {ch : UInt8} (room : ctx.offset < ctx.headBuff.length) :
    pushHead ch ctx =
      some { ctx with headBuff := ctx.headBuff.set ctx.offset ch, offset := ctx.offset + 1 } := by
  simp [pushHead, store, room]

variable {msg : IlinkMessage} {count : Nat}

/-- While the head buffer has room, `END` records the byte and asks for more. -/
theorem endOfByte_inHeader {ch : UInt8} {phase : Phase} {phaseLen : Int} {msglen : UInt32}
    (header : InHeader phase phaseLen count msglen msg ctx) (notBody : phase ≠ .inPayload)
    (room : count < 10) :
    ∃ next, endOfByte ch ctx = some (1, next) ∧
      InHeader phase phaseLen (count + 1) msglen msg next := by
  have space :
    ctx.offset < ctx.headBuff.length := by rw [header.offsetIs, header.headSize]; exact room
  refine ⟨_, by rw [endOfByte, header.phaseIs, if_neg notBody, pushHead_room space]; rfl, ?_⟩
  exact ⟨header.phaseIs, header.phaseLenIs, by simp [header.offsetIs], by simp [header.headSize],
    header.msglenIs, header.msgIs⟩

/-- Noise between frames leaves the receiver waiting for a sync byte. -/
theorem onByteArrive_noise {ch : UInt8} (idle : ctx.phase = .notStart)
    (noise : ¬ IsSync ch) : onByteArrive malloc ch ctx = some (1, RecvContext.zero) := by
  simp only [IsSync, not_or] at noise
  obtain ⟨notPlain, notRequest, notResponse⟩ := noise
  simp [onByteArrive, idle, notPlain, notRequest, notResponse, RecvContext.zero]

theorem feedBytes_noise {noise : List UInt8} (idle : ctx.phase = .notStart)
    (quiet : ∀ byte ∈ noise, ¬ IsSync byte) :
    ∃ next, feedBytes malloc noise ctx = some ⟨[], next⟩ ∧ next.phase = .notStart := by
  induction noise generalizing ctx with
  | nil => exact ⟨ctx, rfl, idle⟩
  | cons byte rest ih =>
    have zeroIdle : RecvContext.zero.phase = .notStart := rfl
    obtain ⟨next, fed, nextIdle⟩ := ih zeroIdle
      (fun other member => quiet other (mem_cons_of_mem _ member))
    refine ⟨next, ?_, nextIdle⟩
    rw [feedBytes, onByteArrive_noise malloc idle (quiet byte mem_cons_self)]
    simp [fed, Received.after]

/-- The leading byte of a frame without id opens the type phase. -/
theorem onByteArrive_noMsgid (idle : ctx.phase = .notStart) :
    ∃ next, onByteArrive malloc fixedcharNoMsgid ctx = some (1, next) ∧
      InHeader .inType 1 1 0 { IlinkMessage.zero with leadingByte := fixedcharNoMsgid } next := by
  simp only [onByteArrive, idle, if_true]
  exact endOfByte_inHeader
    ⟨rfl, rfl, rfl, by simp [RecvContext.zero], rfl, rfl⟩ (by decide) (by decide)

/-- The leading byte of a request or response opens the id phase. -/
theorem onByteArrive_mid (idle : ctx.phase = .notStart) (isReq : Bool) :
    ∃ next, onByteArrive malloc (if isReq then fixedcharRequest else fixedcharRespinse) ctx =
        some (1, next) ∧
      InHeader .inMid 4 1 0
        { IlinkMessage.zero with
          leadingByte := if isReq then fixedcharRequest else fixedcharRespinse
          hasMid := true
          isReq := isReq } next := by
  cases isReq
  · simp only [onByteArrive, idle, Bool.false_eq_true, if_false,
      show fixedcharRespinse ≠ fixedcharNoMsgid by decide, or_true, if_true]
    exact endOfByte_inHeader
      ⟨rfl, rfl, rfl, by simp [RecvContext.zero], rfl, by rfl⟩ (by decide) (by decide)
  · simp only [onByteArrive, idle, if_true,
      show fixedcharRequest ≠ fixedcharNoMsgid by decide, if_false, true_or]
    exact endOfByte_inHeader
      ⟨rfl, rfl, rfl, by simp [RecvContext.zero], rfl, by rfl⟩ (by decide) (by decide)

/-- One byte of the id field; the last one opens the type phase. -/
theorem onByteArrive_midByte (ch : UInt8)
    {remaining count : Nat} (header : InHeader .inMid (remaining + 1) count 0 msg ctx)
    (room : count < 10) : ∃ next, onByteArrive malloc ch ctx = some (1, next) ∧
    InHeader (if remaining = 0 then .inType else .inMid) (if remaining = 0 then 1 else remaining)
    (count + 1) 0 { msg with msgID := shiftInByte msg.msgID ch } next := by
  obtain ⟨phase, phaseLen, offset, headSize, msglen, rfl⟩ := header
  have countdown : ctx.phaseLen - 1 = remaining := by omega
  simp only [onByteArrive, phase, countdown]
  by_cases last : remaining = 0
  · simp only [last, Nat.cast_zero, if_true]
    exact endOfByte_inHeader ⟨rfl, rfl, offset, headSize, msglen, rfl⟩ (by decide) room
  · simp only [last, Nat.cast_eq_zero, if_false]
    exact endOfByte_inHeader ⟨rfl, rfl, offset, headSize, msglen, rfl⟩ (by decide) room

/-- The id field shifts its bytes into the message id and opens the type phase. -/
theorem feedBytes_midField (bytes : List UInt8)
    (header : InHeader .inMid bytes.length count 0 msg ctx) (nonempty : bytes ≠ [])
    (room : count + bytes.length ≤ 10) :
    ∃ next, feedBytes malloc bytes ctx = some ⟨[], next⟩ ∧
      InHeader .inType 1 (count + bytes.length) 0
        { msg with msgID := bytes.foldl shiftInByte msg.msgID } next := by
  induction bytes generalizing ctx count msg with
  | nil => exact absurd rfl nonempty
  | cons ch rest ih =>
    simp only [length_cons] at header room
    obtain ⟨middle, arrived, advanced⟩ :=
      onByteArrive_midByte malloc ch (by exact_mod_cast header) (by omega)
    cases rest with
    | nil => exact ⟨middle, by simp [feedBytes, arrived], advanced⟩
    | cons second others =>
      obtain ⟨next, fed, field⟩ := ih (by simpa using advanced) (by simp) (by omega)
      refine ⟨next, by rw [feedBytes, arrived]; simp [fed], ?_⟩
      simpa [Nat.add_assoc, Nat.add_comm 1] using field

/-- The type byte splits into the type and the vheader flag. -/
theorem onByteArrive_typeByte (ch : UInt8)
    (header : InHeader .inType 1 count 0 msg ctx) (room : count < 10) :
    ∃ next, onByteArrive malloc ch ctx = some (1, next) ∧
      InHeader .inBaseLen 2 (count + 1) 0
        { msg with
          msgType := ch &&& 0x7F
          hasVheader := msg.hasVheader || decide (ch &&& 0x80 ≠ 0) } next := by
  obtain ⟨phase, phaseLen, offset, headSize, msglen, rfl⟩ := header
  simp only [onByteArrive, phase, phaseLen, Int.sub_self, if_true]
  exact endOfByte_inHeader ⟨rfl, rfl, offset, headSize, msglen, rfl⟩ (by decide) room

/-- The first byte of the base length only advances the field. -/
theorem onByteArrive_baseLenFirst (high : UInt8) (header : InHeader .inBaseLen 2 count 0 msg ctx)
    (room : count < 10) : ∃ next, onByteArrive malloc high ctx = some (1, next) ∧
    InHeader .inBaseLen 1 (count + 1) (shiftInByte 0 high) msg next := by
  obtain ⟨phase, phaseLen, offset, headSize, msglen, rfl⟩ := header
  have unfinished : (2 : Int) - 1 ≠ 0 := by decide
  simp only [onByteArrive, phase, phaseLen, msglen, unfinished, if_false]
  exact endOfByte_inHeader ⟨rfl, rfl, offset, headSize, rfl, rfl⟩ (by decide) room

/-- The second byte completes the field, and its top bit decides what follows. -/
theorem onByteArrive_baseLenLast (low : UInt8) {msglen : UInt32}
    (header : InHeader .inBaseLen 1 count msglen msg ctx) (room : count < 10) :
    ∃ last, InHeader .inBaseLen 0 (count + 1) (shiftInByte msglen low) msg last ∧
    onByteArrive malloc low ctx = if shiftInByte msglen low &&& 0x00008000 ≠ 0 then
          some (1, { last with phase := .inExtLen, phaseLen := 2 })
        else lengthRecieveDone malloc last := by
  obtain ⟨phase, phaseLen, offset, headSize, rfl, rfl⟩ := header
  have space : ctx.offset < ctx.headBuff.length := by omega
  refine ⟨{ ctx with
    msglen := shiftInByte ctx.msglen low
    phaseLen := 0
    headBuff := ctx.headBuff.set ctx.offset low
    offset := ctx.offset + 1 }, ⟨phase, rfl, by simp [offset], by simp [headSize], rfl, rfl⟩, ?_⟩
  simp only [onByteArrive, phase, phaseLen, Int.sub_self, if_true]
  split
  · rw [endOfByte, pushHead_room (by exact space)]
    simp
  · rw [pushHead_room (by exact space)]
    simp

/-! ## A whole header -/

/-- What the receiver knows of a message once the type byte is in. -/
def frontMessage (msg : IlinkMessage) : IlinkMessage :=
  { IlinkMessage.zero with
    leadingByte := if !msg.hasMid then fixedcharNoMsgid
      else if msg.isReq then fixedcharRequest else fixedcharRespinse
    hasMid := msg.hasMid
    isReq := msg.hasMid && msg.isReq
    msgID := if msg.hasMid then msg.msgID else 0
    msgType := composeIlinkType msg &&& 0x7F
    hasVheader := decide (composeIlinkType msg &&& 0x80 ≠ 0) }

/-- The four id bytes shift back into the id. -/
theorem foldl_shiftInByte_id (id : UInt32) : (beBytes 4 id.toNat).foldl shiftInByte 0 = id := by
  apply UInt32.toNat_inj.mp
  have bound := id.toNat_lt
  rw [shiftInBytes_toNat, beNat_beBytes]
  simp only [UInt32.toNat_zero, Nat.zero_mul, Nat.zero_add]
  omega

/-- Feeding the front of a header reaches the length field. -/
theorem feedBytes_front (msg : IlinkMessage) (idle : ctx.phase = .notStart) :
    ∃ count next, feedBytes malloc (composeIlinkFront msg) ctx = some ⟨[], next⟩ ∧ count ≤ 6 ∧
      InHeader .inBaseLen 2 count 0 (frontMessage msg) next := by
  cases withMid : msg.hasMid with
  | false =>
    obtain ⟨opened, open_, header⟩ := onByteArrive_noMsgid malloc idle
    obtain ⟨next, typed, front⟩ :=
      onByteArrive_typeByte malloc (composeIlinkType msg) header (by decide)
    refine ⟨2, next, ?_, by decide, ?_⟩
    · simp [composeIlinkFront, withMid, feedBytes, open_, typed]
    · simpa [frontMessage, withMid, IlinkMessage.zero] using front
  | true =>
    obtain ⟨opened, open_, header⟩ := onByteArrive_mid malloc idle msg.isReq
    obtain ⟨identified, shifted, field⟩ := feedBytes_midField malloc
      (beBytes 4 msg.msgID.toNat) (by simpa using header) (by simp [beBytes]) (by simp)
    rw [beBytes_length] at field
    obtain ⟨next, typed, front⟩ :=
      onByteArrive_typeByte malloc (composeIlinkType msg) field (by decide)
    refine ⟨6, next, ?_, by decide, ?_⟩
    · have bytes : composeIlinkFront msg =
          (if msg.isReq then fixedcharRequest else fixedcharRespinse) ::
            (beBytes 4 msg.msgID.toNat ++ [composeIlinkType msg]) := by
        cases request : msg.isReq <;> simp [composeIlinkFront, withMid, request]
      rw [bytes, feedBytes, open_]
      simp [feedBytes_append, shifted, feedBytes, typed, Received.after]
    · simpa [frontMessage, withMid, IlinkMessage.zero, foldl_shiftInByte_id] using front

/-- A context at the start of a body of `len` bytes, in a block that holds them. -/
structure OpenBody (len : Nat) (msg : IlinkMessage) (ctx : RecvContext) : Prop where
  phaseIs : ctx.phase = .inPayload
  phaseLenIs : ctx.phaseLen = len
  offsetIs : ctx.offset = 0
  msgIs : ∃ block isAlloc, len ≤ block.length ∧ 2 ≤ block.length ∧
    ctx.ilinkMsg = { msg with
      payloadLen := UInt32.ofNat len
      payload := some block
      isPayloadAlloc := isAlloc }

/-- A completed short length opens a body of that length, or delivers at once when it is zero. -/
theorem lengthRecieveDone_short (succeeds : MallocSucceeds malloc) {last : RecvContext}
    {msglen : UInt32} (header : InHeader .inBaseLen 0 count msglen msg last)
    (noBody : msg.payload = none) (short : msglen.toNat < 0x8000) :
    ∃ next, lengthRecieveDone malloc last = some (if msglen = 0 then 0 else 1, next) ∧
      (msglen = 0 → next.phase = .notStart ∧ next.ilinkMsg = { msg with payloadLen := 0 }) ∧
      (msglen ≠ 0 → OpenBody msglen.toNat msg next) := by
  obtain ⟨phase, phaseLen, offset, headSize, rfl, rfl⟩ := header
  have positive : last.msglen.toInt32.toInt = last.msglen.toNat := toInt32_toInt (by omega)
  simp only [lengthRecieveDone, noBody, ne_eq, not_true_eq_false, if_false]
  by_cases empty : last.msglen = 0
  · simp [empty]
  · have nonzero : last.msglen.toNat ≠ 0 := fun zero => empty (UInt32.toNat_inj.mp zero)
    simp only [empty, if_false, false_implies, not_false_eq_true, forall_const, true_and]
    by_cases inline : last.msglen.toNat < bufferSize
    · rw [if_pos inline]
      refine ⟨_, rfl, rfl, positive, rfl, List.replicate bufferSize 0, false, ?_, ?_,
        by rw [UInt32.ofNat_toNat]⟩
      · simp only [length_replicate]
        omega
      · rw [length_replicate]
        decide
    · obtain ⟨block, allocated, size⟩ := succeeds last.msglen.toNat
      simp only [bufferSize] at inline
      rw [if_neg (by simpa [bufferSize] using inline), allocated]
      exact ⟨_, rfl, rfl, positive, rfl, block, true, by omega, by omega,
        by simp [UInt32.ofNat_toNat]⟩

/-- Below `0x80000000` the encoder writes two length bytes, whatever the length is. -/
theorem composeIlinkLength_truncates (below : msg.frameLen ≤ 0x7FFFFFFF) :
    composeIlinkLength msg = beBytes 2 msg.frameLen := by
  have total : (msg.payloadLen + msg.vheaderLen).toNat = msg.frameLen := by
    rw [UInt32.toNat_add]
    simp only [IlinkMessage.frameLen] at below ⊢
    omega
  have small : ¬ msg.payloadLen + msg.vheaderLen ≥ 0x80000000 := by
    rw [ge_iff_le, UInt32.le_iff_toNat_le, total]
    simp only [UInt32.reduceToNat]
    omega
  simp only [composeIlinkLength, small, if_false, total]

/-- Two length bytes accumulate to the low 16 bits of the length. -/
theorem shiftInByte_baseLen (len : Nat) : (shiftInByte (shiftInByte 0 (UInt8.ofNat (len / 256)))
      (UInt8.ofNat len)).toNat = len % 65536 := by
  rw [shiftInByte_toNat, shiftInByte_toNat, UInt8.toNat_ofNat', UInt8.toNat_ofNat']
  simp only [UInt32.toNat_zero]
  omega

/-- The top bit of a 16-bit length is the decoder's continuation flag. -/
theorem continuation_iff {word : UInt32} (field : word.toNat < 65536) :
    word &&& 0x00008000 ≠ 0 ↔ 0x8000 ≤ word.toNat := by
  have masked : (word &&& 0x00008000).toNat = word.toNat / 32768 % 2 * 32768 := by
    rw [UInt32.toNat_and, show (0x00008000 : UInt32).toNat = 2 ^ 15 from rfl, Nat.and_two_pow,
      Nat.toNat_testBit, show (2 : Nat) ^ 15 = 32768 from rfl]
  rw [ne_eq, ← UInt32.toNat_inj, masked, UInt32.toNat_zero]
  omega

/-- What a return code of the length phase delivers. -/
def deliverOn (result : Int) (ctx : RecvContext) : Received :=
  ⟨if result = 0 then [ctx.ilinkMsg] else [], ctx⟩

/-- A front followed by a two-byte length: the length is read modulo `2 ^ 16`, and
its top bit decides between the extension field and the body. -/
theorem feedBytes_baseLen (msg : IlinkMessage) (len : Nat)
    (idle : ctx.phase = .notStart) :
    ∃ count msglen last, InHeader .inBaseLen 0 count msglen (frontMessage msg) last ∧
      msglen.toNat = len % 65536 ∧
      feedBytes malloc (composeIlinkFront msg ++ beBytes 2 len) ctx =
        (if 0x8000 ≤ len % 65536 then some (1, { last with phase := .inExtLen, phaseLen := 2 })
          else lengthRecieveDone malloc last).map fun (result, next) => deliverOn result next := by
  obtain ⟨count, front, fedFront, small, header⟩ := feedBytes_front malloc msg idle
  obtain ⟨middle, fedHigh, half⟩ :=
    onByteArrive_baseLenFirst malloc (UInt8.ofNat (len / 256)) header (by omega)
  obtain ⟨last, whole, fedLow⟩ :=
    onByteArrive_baseLenLast malloc (UInt8.ofNat len) half (by omega)
  have value := shiftInByte_baseLen len
  have bits : (len : Nat) % 65536 < 65536 := Nat.mod_lt _ (by decide)
  have flag := continuation_iff (value ▸ bits)
  rw [value] at flag
  simp only [flag] at fedLow
  refine ⟨count + 1 + 1, _, last, whole, value, ?_⟩
  rw [feedBytes_append, fedFront]
  simp only [beBytes, pow_one, pow_zero, Nat.div_one, feedBytes, fedHigh, fedLow, bind_some]
  cases outcome : (if 0x8000 ≤ len % 65536 then
      some ((1 : Int), { last with phase := .inExtLen, phaseLen := 2 })
    else lengthRecieveDone malloc last) with
  | none => rfl
  | some finished => simp [deliverOn, Received.after]

/-- A short header opens its body, or delivers a message without one. -/
theorem feedBytes_header (succeeds : MallocSucceeds malloc)
    (short : msg.frameLen < 0x8000) (idle : ctx.phase = .notStart) :
    ∃ result next, feedBytes malloc (composeIlinkHeader msg) ctx = some (deliverOn result next) ∧
      (msg.frameLen = 0 → result = 0 ∧ next.phase = .notStart ∧
        next.ilinkMsg = { frontMessage msg with payloadLen := 0 }) ∧
      (msg.frameLen ≠ 0 → result = 1 ∧ OpenBody msg.frameLen (frontMessage msg) next) := by
  obtain ⟨count, msglen, last, header, value, fed⟩ := feedBytes_baseLen malloc msg msg.frameLen idle
  have field : msg.frameLen % 65536 = msg.frameLen := Nat.mod_eq_of_lt (by omega)
  rw [field] at value fed
  rw [if_neg (by omega)] at fed
  obtain ⟨next, done, empty, body⟩ := lengthRecieveDone_short malloc succeeds header rfl (by omega)
  have zero : msglen = 0 ↔ msg.frameLen = 0 := by rw [← UInt32.toNat_inj, value, UInt32.toNat_zero]
  rw [done, map_some] at fed
  refine ⟨_, next, by rw [composeIlinkHeader, composeIlinkLength_truncates (by omega), fed], ?_, ?_⟩
  · intro none
    obtain ⟨nextIdle, message⟩ := empty (zero.mpr none)
    exact ⟨if_pos (zero.mpr none), nextIdle, message⟩
  · intro some
    have open_ := body (fun clear => some (zero.mp clear))
    rw [value] at open_
    exact ⟨if_neg (fun clear => some (zero.mp clear)), open_⟩

/-! ## The body -/

/-- The bytes of a body fill its block from the start and close the message. -/
theorem feedBytes_body {body : List UInt8}
    (nonempty : body ≠ []) (opened : OpenBody body.length msg ctx) :
    ∃ closing rest isAlloc, 2 ≤ (body ++ rest).length ∧
      closing.ilinkMsg = { msg with
        payloadLen := UInt32.ofNat body.length
        payload := some (body ++ rest)
        isPayloadAlloc := isAlloc } ∧
      feedBytes malloc body ctx =
        (payloadRecieveDone closing).map fun next => deliverOn 0 next := by
  obtain ⟨phase, phaseLen, offset, block, isAlloc, fits, room, message⟩ := opened
  have positive : 0 < body.length := length_pos_iff.mpr nonempty
  have whole : copyLen body.length ctx.phaseLen = body.length := by
    rw [copyLen, phaseLen, if_neg (by omega)]
  refine ⟨{ ctx with
    phaseLen := 0
    offset := body.length
    ilinkMsg := { ctx.ilinkMsg with payload := some (body ++ block.drop body.length) } },
    block.drop body.length, isAlloc, ?_, by simp only [message], ?_⟩
  · simp only [length_append, length_drop]
    omega
  · have payload : ctx.ilinkMsg.payload = some block := by rw [message]
    rw [feedBytes_eq_onPayloadBlock body phase (by omega) (by simp [payload])]
    simp only [onPayloadBlock, phase, whole, payload, offset, ne_eq, not_true_eq_false, if_false,
      Int.toNat_natCast, take_length, storeAll_zero block body fits, bind_some]
    rw [if_neg (by omega)]
    simp only [phaseLen, Int.sub_self, if_true, Nat.zero_add]
    cases closed : payloadRecieveDone { ctx with
        phase := .inPayload
        phaseLen := 0
        offset := body.length
        ilinkMsg := { ctx.ilinkMsg with payload := some (body ++ block.drop body.length) } } with
    | none => rfl
    | some next => simp [feedBytes, deliverOn, Received.after]

/-- The type byte gives back the type and says whether a vheader follows. -/
theorem composeIlinkType_split (typeBound : msg.msgType.toNat < 128) :
    composeIlinkType msg &&& 0x7F = msg.msgType ∧
      (composeIlinkType msg &&& 0x80 ≠ 0 ↔ msg.vheaderLen ≠ 0) := by
  have masks : ∀ value : Fin 128,
      UInt8.ofNat value &&& 0x7F = UInt8.ofNat value ∧ UInt8.ofNat value &&& 0x80 = 0 ∧
      (UInt8.ofNat value ||| 0x80) &&& 0x7F = UInt8.ofNat value ∧
      (UInt8.ofNat value ||| 0x80) &&& 0x80 ≠ 0 := by decide
  have masked := masks ⟨msg.msgType.toNat, typeBound⟩
  simp only [UInt8.ofNat_toNat] at masked
  obtain ⟨plain, clear, flagged, set⟩ := masked
  by_cases vheader : msg.vheaderLen = 0
  · simp [composeIlinkType, vheader, plain, clear]
  · simp [composeIlinkType, vheader, flagged, set]

/-- Closing a body without vheader leaves the message as it was collected. -/
theorem payloadRecieveDone_plain (plain : ctx.ilinkMsg.hasVheader = false) :
    payloadRecieveDone ctx = some { ctx with phase := .notStart, phaseLen := 1, offset := 0 } := by
  simp [payloadRecieveDone, plain]

/-- Closing a body with a vheader cuts it at the length its first two bytes announce. -/
theorem payloadRecieveDone_vheader {front back : List UInt8}
    (flagged : ctx.ilinkMsg.hasVheader = true)
    (payload : ctx.ilinkMsg.payload = some (front ++ back))
    (announced : ∃ items, front = beBytes 2 front.length ++ items) (bound : front.length < 65536) :
    payloadRecieveDone ctx = some { ctx with
      phase := .notStart
      phaseLen := 1
      offset := 0
      ilinkMsg := { ctx.ilinkMsg with
        vheaderLen := UInt32.ofNat front.length
        vheader := some (front ++ back)
        isVheaderAlloc := ctx.ilinkMsg.isPayloadAlloc
        isPayloadAlloc := false
        payloadLen := ctx.ilinkMsg.payloadLen - UInt32.ofNat front.length
        payload := some back } } := by
  obtain ⟨items, split⟩ := announced
  have room : ¬ (front ++ back).length < 2 := by
    rw [split, length_append, length_append, beBytes_length]
    omega
  have announced : beNat ((front ++ back).take 2) = front.length := by
    rw [split, append_assoc, take_left' (beBytes_length _ _), beNat_beBytes, ← split]
    exact Nat.mod_eq_of_lt bound
  have word : (UInt32.ofNat front.length).toNat = front.length := by
    rw [UInt32.toNat_ofNat']
    omega
  have body : (front ++ back).drop (UInt32.ofNat front.length).toNat = back := by
    rw [word, drop_left]
  simp only [payloadRecieveDone, payload, room, announced, body, if_false]
  rw [if_pos flagged]

/-! ## Whole frames -/

namespace Sendable

variable {msg : IlinkMessage} (sendable : Sendable msg)
include sendable

theorem payloadSize : msg.payloadBytes.length = msg.payloadLen.toNat := by
  simp [IlinkMessage.payloadBytes, sendable.payloadLength]

theorem vheaderSize : msg.vheaderBytes.length = msg.vheaderLen.toNat := by
  rcases sendable.vheaderComposed with absent | ⟨vheader, bytes, -, -, bytesAre, length⟩
  · simp [IlinkMessage.vheaderBytes, absent]
  · simp [IlinkMessage.vheaderBytes, bytesAre, length]

theorem bodySize : (msg.vheaderBytes ++ msg.payloadBytes).length = msg.frameLen := by
  rw [length_append, sendable.vheaderSize, sendable.payloadSize, IlinkMessage.frameLen]

/-- A vheader that is sent announces its own length. -/
theorem vheader_announces (present : msg.vheaderLen ≠ 0) :
    ∃ items, msg.vheaderBytes = beBytes 2 msg.vheaderBytes.length ++ items := by
  rcases sendable.vheaderComposed with absent | ⟨vheader, bytes, composed, nonempty,
    bytesAre, length⟩
  · exact absurd absent present
  · have same : msg.vheaderBytes = bytes := by simp [IlinkMessage.vheaderBytes, bytesAre, length]
    obtain ⟨items, split, -⟩ := vheaderCompose_announces composed nonempty
    rw [same]
    exact ⟨items, split⟩

/-- The front of the header already settles every field but the body. -/
theorem carries_of_bodies {received : IlinkMessage}
    (hasMid : received.hasMid = (frontMessage msg).hasMid)
    (isReq : received.isReq = (frontMessage msg).isReq)
    (msgID : received.msgID = (frontMessage msg).msgID)
    (msgType : received.msgType = (frontMessage msg).msgType)
    (vheader : received.vheaderBytes = msg.vheaderBytes)
    (payload : received.payloadBytes = msg.payloadBytes) : Carries msg received := by
  have request : (msg.hasMid && msg.isReq) = msg.isReq := by
    cases requested : msg.isReq with
    | false => simp
    | true => simp [sendable.requestHasMid requested]
  exact ⟨hasMid, isReq.trans request, msgID,
    msgType.trans (composeIlinkType_split sendable.typeBound).1, vheader, payload⟩

/-- Closing the collected body hands over what was composed. -/
theorem payloadRecieveDone_carries {closing : RecvContext} {rest : List UInt8} {isAlloc : Bool}
    (message : closing.ilinkMsg = { frontMessage msg with
      payloadLen := UInt32.ofNat msg.frameLen
      payload := some (msg.vheaderBytes ++ msg.payloadBytes ++ rest)
      isPayloadAlloc := isAlloc }) :
    ∃ next, payloadRecieveDone closing = some next ∧ next.phase = .notStart ∧
      Carries msg next.ilinkMsg := by
  have short := sendable.short
  have flag := (composeIlinkType_split sendable.typeBound).2
  have lengths : msg.frameLen = msg.vheaderLen.toNat + msg.payloadLen.toNat := rfl
  have payloadSize := sendable.payloadSize
  have vheaderSize := sendable.vheaderSize
  by_cases present : msg.vheaderLen = 0
  · have plain : closing.ilinkMsg.hasVheader = false := by
      rw [message]
      simpa [frontMessage] using Classical.not_not.mp (mt flag.mp (fun has => has present))
    have absent : msg.vheaderBytes = [] := by simp [IlinkMessage.vheaderBytes, present]
    have width : (UInt32.ofNat msg.frameLen).toNat = msg.payloadBytes.length := by
      rw [UInt32.toNat_ofNat', payloadSize, lengths, present, UInt32.toNat_zero]
      omega
    refine ⟨_, payloadRecieveDone_plain plain, rfl, ?_⟩
    rw [message]
    refine sendable.carries_of_bodies rfl rfl rfl rfl absent.symm ?_
    rw [IlinkMessage.payloadBytes, width, absent, nil_append, getD_some, take_left]
  · have flagged : closing.ilinkMsg.hasVheader = true := by
      rw [message]
      simpa [frontMessage] using flag.mpr present
    have bound : msg.vheaderBytes.length < 65536 := by omega
    have cut : (UInt32.ofNat msg.frameLen - UInt32.ofNat msg.vheaderBytes.length).toNat =
        msg.payloadBytes.length := by
      rw [UInt32.toNat_sub, UInt32.toNat_ofNat', UInt32.toNat_ofNat']
      omega
    have width : (UInt32.ofNat msg.vheaderBytes.length).toNat = msg.vheaderBytes.length := by
      rw [UInt32.toNat_ofNat']
      omega
    have payload : closing.ilinkMsg.payload =
        some (msg.vheaderBytes ++ (msg.payloadBytes ++ rest)) := by
      rw [message, append_assoc]
    refine ⟨_, payloadRecieveDone_vheader flagged payload
      (sendable.vheader_announces present) bound, rfl, ?_⟩
    rw [message]
    refine sendable.carries_of_bodies rfl rfl rfl rfl ?_ ?_
    · rw [IlinkMessage.vheaderBytes, width, getD_some, take_left]
    · rw [IlinkMessage.payloadBytes, cut, getD_some, take_left]

/-- A frame is taken as one message, and the receiver is idle after it. -/
theorem feedBytes_frame (succeeds : MallocSucceeds malloc) {ctx : RecvContext}
    (idle : ctx.phase = .notStart) :
    ∃ received next, feedBytes malloc (composeIlinkFrame msg) ctx = some ⟨[received], next⟩ ∧
      Carries msg received ∧ next.phase = .notStart := by
  obtain ⟨result, opened, fedHeader, empty, body⟩ :=
    feedBytes_header malloc succeeds sendable.short idle
  have total := sendable.bodySize
  rw [composeIlinkFrame, append_assoc, feedBytes_append, fedHeader, bind_some]
  by_cases noBody : msg.frameLen = 0
  · -- Nothing follows the header: it delivered the message itself.
    obtain ⟨rfl, nextIdle, message⟩ := empty noBody
    have nothing : msg.vheaderBytes ++ msg.payloadBytes = [] :=
      eq_nil_of_length_eq_zero (total.trans noBody)
    obtain ⟨noVheader, noPayload⟩ := append_eq_nil_iff.mp nothing
    refine ⟨opened.ilinkMsg, opened, by rw [nothing]; rfl, ?_, nextIdle⟩
    rw [message]
    exact sendable.carries_of_bodies rfl rfl rfl rfl noVheader.symm noPayload.symm
  · obtain ⟨rfl, open_⟩ := body noBody
    rw [← total] at open_
    have nonempty : msg.vheaderBytes ++ msg.payloadBytes ≠ [] := by
      intro nothing
      rw [nothing] at total
      exact noBody total.symm
    obtain ⟨closing, rest, isAlloc, -, message, fed⟩ := feedBytes_body malloc nonempty open_
    rw [total] at message
    obtain ⟨next, closed, nextIdle, carries⟩ := sendable.payloadRecieveDone_carries message
    refine ⟨next.ilinkMsg, next, ?_, carries, nextIdle⟩
    rw [show (deliverOn 1 opened).ctx = opened from rfl, fed, closed]
    rfl

end Sendable

/-- A stream of frames, each with the noise received before it, and noise at the end. -/
def frameStream (segments : List (List UInt8 × IlinkMessage))
    (trailing : List UInt8) : List UInt8 :=
  segments.flatMap (fun (noise, msg) => noise ++ composeIlinkFrame msg) ++ trailing

theorem frameStream_cons (noise : List UInt8) (msg : IlinkMessage)
    (segments : List (List UInt8 × IlinkMessage)) (trailing : List UInt8) :
    frameStream ((noise, msg) :: segments) trailing =
      noise ++ (composeIlinkFrame msg ++ frameStream segments trailing) := by
  simp [frameStream]

/-- The per-byte receiver takes every frame of a stream as one message. -/
theorem feedBytes_frameStream (succeeds : MallocSucceeds malloc)
    {segments : List (List UInt8 × IlinkMessage)} {trailing : List UInt8}
    (sendable : ∀ segment ∈ segments, Sendable segment.2)
    (quiet : ∀ segment ∈ segments, ∀ byte ∈ segment.1, ¬ IsSync byte)
    (quietEnd : ∀ byte ∈ trailing, ¬ IsSync byte)
    {ctx : RecvContext} (idle : ctx.phase = .notStart) :
    ∃ received, feedBytes malloc (frameStream segments trailing) ctx = some received ∧
      received.ctx.phase = .notStart ∧
      List.Forall₂ Carries (segments.map (·.2)) received.delivered := by
  induction segments generalizing ctx with
  | nil =>
    obtain ⟨next, fed, nextIdle⟩ := feedBytes_noise malloc idle quietEnd
    exact ⟨⟨[], next⟩, by simpa [frameStream] using fed, nextIdle, List.Forall₂.nil⟩
  | cons segment rest ih =>
    obtain ⟨noise, msg⟩ := segment
    obtain ⟨waiting, fedNoise, waitingIdle⟩ :=
      feedBytes_noise malloc idle (quiet _ mem_cons_self)
    obtain ⟨received, between, fedFrame, carries, betweenIdle⟩ :=
      (sendable _ mem_cons_self).feedBytes_frame malloc succeeds waitingIdle
    obtain ⟨later, fedRest, lastIdle, laterCarry⟩ := ih
      (fun segment member => sendable segment (mem_cons_of_mem _ member))
      (fun segment member => quiet segment (mem_cons_of_mem _ member)) betweenIdle
    refine ⟨later.after [received], ?_, lastIdle, List.Forall₂.cons carries laterCarry⟩
    rw [frameStream_cons, feedBytes_append, fedNoise, bind_some, feedBytes_append, fedFrame,
      bind_some, fedRest]
    rfl

/-- Every frame of a stream is delivered once, in order, with what was composed. -/
theorem handleCloudPacket_frames (succeeds : MallocSucceeds malloc)
    (segments : List (List UInt8 × IlinkMessage)) (trailing : List UInt8)
    (sendable : ∀ segment ∈ segments, Sendable segment.2)
    (quiet : ∀ segment ∈ segments, ∀ byte ∈ segment.1, ¬ IsSync byte)
    (quietEnd : ∀ byte ∈ trailing, ¬ IsSync byte)
    (ctx : RecvContext) (idle : ctx.phase = .notStart) :
    ∃ received, handleCloudPacket malloc (frameStream segments trailing) ctx = some received ∧
      received.ctx.phase = .notStart ∧
      List.Forall₂ Carries (segments.map (·.2)) received.delivered := by
  have wellFormed : ctx.WellFormed := by simp [RecvContext.WellFormed, idle]
  rw [handleCloudPacket_eq_feedBytes _ wellFormed]
  exact feedBytes_frameStream malloc succeeds sendable quiet quietEnd idle

/-- A `malloc` that never fails and hands out zeroed blocks. -/
def mallocZeroed (size : Nat) : Option (List UInt8) := some (List.replicate size 0)

theorem mallocZeroed_succeeds : MallocSucceeds mallocZeroed :=
  fun size => ⟨List.replicate size 0, rfl, length_replicate⟩

/-- A vheader with one long node. -/
def sampleVheader : IlinkVheader := ⟨[⟨.ofBytes [0x6B], true, .iVal32 7⟩]⟩

/-- A request with a vheader and a payload of two bytes. -/
def sampleRequest : IlinkMessage :=
  { IlinkMessage.zero with
    hasMid := true
    isReq := true
    msgID := 0x01020304
    msgType := 5
    vheader := vheaderCompose sampleVheader
    vheaderLen := 11
    payload := some [0xFA, 0xCE]
    payloadLen := 2 }

theorem sampleRequest_sendable : Sendable sampleRequest where
  requestHasMid := fun _ => rfl
  typeBound := by decide
  vheaderComposed := .inr ⟨sampleVheader, _, rfl, by decide, rfl, by decide⟩
  payloadLength := by decide
  short := by decide

theorem handleCloudPacket_frames_sample :
    ∃ received, handleCloudPacket mallocZeroed
        (frameStream [([0x00], sampleRequest), ([], sampleRequest)] [0x11]) .zero = some received ∧
      received.ctx.phase = .notStart ∧
      List.Forall₂ Carries [sampleRequest, sampleRequest] received.delivered :=
  handleCloudPacket_frames mallocZeroed mallocZeroed_succeeds
    [([0x00], sampleRequest), ([], sampleRequest)] [0x11] (by simp [sampleRequest_sendable])
    (by simp [IsSync, fixedcharNoMsgid, fixedcharRequest, fixedcharRespinse])
    (by simp [IsSync, fixedcharNoMsgid, fixedcharRequest, fixedcharRespinse]) .zero rfl

/-- A frame without message id does not carry the id the sender's record holds. -/
theorem handleCloudPacket_idless :
    Sendable { IlinkMessage.zero with msgID := 5 } ∧
      (handleCloudPacket mallocZeroed
        (composeIlinkFrame { IlinkMessage.zero with msgID := 5 }) .zero).map
          (fun received => received.delivered.map (·.msgID)) = some [0] :=
  ⟨⟨by decide, by decide, .inl rfl, by decide, by decide⟩, by decide⟩

/-! ## Lengths beyond 15 bits -/

/-- The body a length field opens has the length the field announced. -/
theorem lengthRecieveDone_payloadLen {ctx next : RecvContext} {result : Int}
    (done : lengthRecieveDone malloc ctx = some (result, next)) :
    next.ilinkMsg.payloadLen = ctx.msglen := by
  simp only [lengthRecieveDone] at done
  split at done
  · cases done
  split at done
  · cases done
    rfl
  split at done
  · cases done
    rfl
  split at done
  · cases done
    rfl
  · cases done
    rfl

/-- No header for a length beyond 15 bits opens a body of that length: the encoder
writes the low 16 bits of the length and never the extension field. -/
theorem composeIlinkHeader_large (msg : IlinkMessage) (large : 0x8000 ≤ msg.frameLen)
    (below : msg.frameLen ≤ 0x7FFFFFFF) (ctx : RecvContext) (idle : ctx.phase = .notStart) :
    ¬ ∃ received, feedBytes malloc (composeIlinkHeader msg) ctx = some received ∧
      received.ctx.phase = .inPayload ∧
      received.ctx.ilinkMsg.payloadLen.toNat = msg.frameLen := by
  rintro ⟨received, fed, inBody, length⟩
  obtain ⟨count, msglen, last, header, value, outcome⟩ :=
    feedBytes_baseLen malloc msg msg.frameLen idle
  rw [composeIlinkHeader, composeIlinkLength_truncates below, outcome] at fed
  obtain ⟨⟨result, next⟩, done, rfl⟩ := map_eq_some_iff.mp fed
  split at done
  · -- The extension field is awaited and was never written.
    cases done
    cases inBody
  · have announced := lengthRecieveDone_payloadLen malloc done
    have truncated : next.ilinkMsg.payloadLen.toNat = msg.frameLen % 65536 := by
      rw [announced, header.msglenIs, value]
    rw [show (deliverOn result next).ctx = next from rfl, truncated] at length
    omega

/-- The first length that needs the extension field. -/
def boundaryMessage : IlinkMessage :=
  { IlinkMessage.zero with payload := some (List.replicate 0x8000 0), payloadLen := 0x8000 }

theorem composeIlinkHeader_large_boundary : ¬ ∃ received,
    feedBytes mallocZeroed (composeIlinkHeader boundaryMessage) .zero = some received ∧
    received.ctx.phase = .inPayload ∧
    received.ctx.ilinkMsg.payloadLen.toNat = boundaryMessage.frameLen :=
  composeIlinkHeader_large mallocZeroed boundaryMessage (by decide) (by decide) .zero rfl

/-- There the decoder is left waiting for an extension field. -/
theorem composeIlinkHeader_boundary :
    boundaryMessage.frameLen = 0x8000 ∧
      (feedBytes mallocZeroed (composeIlinkHeader boundaryMessage) .zero).map (·.ctx.phase) =
        some .inExtLen :=
  ⟨by decide, by decide⟩

end Receiver

end Idrm.Ilink
