import Idrm.Ilink.Bodies

/-!
# What the decoder writes

The calls that `handle_cloud_packet` makes of the decoder, and the cells each of them
writes: one of the header buffer or one of the body for a byte, and a range of the body for a
block. From a zeroed context no call stops, and every cell is one of its buffer.
-/

namespace Idrm.Ilink

open Idrm.Lib Option List

/-- A call of the decoder. -/
inductive DecoderCall where
  | onByteArrive (ch : UInt8)
  | onPayloadBlock (buffer : List UInt8)
deriving DecidableEq

/-- The cells of the header buffer that a call writes. -/
def headWrites (ctx : RecvContext) : DecoderCall → List Nat
  | .onByteArrive ch =>
    match ctx.phase with
    | .notStart => if ch = fixedcharNoMsgid ∨ ch = fixedcharRequest ∨
        ch = fixedcharRespinse then [0] else []
    | .inPayload => []
    | _ => [ctx.offset]
  | .onPayloadBlock _ => []

/-- The cells of the body that a call writes. -/
def bodyWrites (ctx : RecvContext) : DecoderCall → List Nat
  | .onByteArrive _ => if ctx.phase = .inPayload then [ctx.offset] else []
  | .onPayloadBlock buffer =>
    if ctx.phase = .inPayload then
      (List.range (copyLen buffer.length ctx.phaseLen).toNat).map (ctx.offset + ·) else []

section Calls

variable (malloc : Nat → Option (List UInt8))

/-- The calls that the loop of `handle_cloud_packet` makes, each with the context before it; there
are none behind one that stops. -/
def packetCallsLoop : Nat → List UInt8 → RecvContext → List (RecvContext × DecoderCall)
  | 0, _, _ => []
  | _ + 1, [], _ => []
  | stringLen + 1, ch :: pos, ctx =>
    (ctx, .onByteArrive ch) ::
      match onByteArrive malloc ch ctx with
      | none => []
      | some (result, ctx) =>
        if result = 2 then
          (ctx, .onPayloadBlock pos) ::
            match onPayloadBlock ctx pos with
            | none => []
            | some (_, len, ctx) => packetCallsLoop stringLen (pos.drop len) ctx
        else packetCallsLoop stringLen pos ctx

/-- The calls for one chunk. -/
def packetCalls (message : List UInt8) (ctx : RecvContext) : List (RecvContext × DecoderCall) :=
  packetCallsLoop malloc message.length message ctx

/-- The calls for all chunks. -/
def packetsCalls : List (List UInt8) → RecvContext → List (RecvContext × DecoderCall)
  | [], _ => []
  | chunk :: rest, ctx =>
    packetCalls malloc chunk ctx ++
      match handleCloudPacket malloc chunk ctx with
      | none => []
      | some first => packetsCalls rest first.ctx

end Calls

/-! ## The cells a call leaves alone -/

/-- The context that a byte is taken in: nothing is left of the one before a message starts. -/
def RecvContext.cleared (ctx : RecvContext) : RecvContext :=
  if ctx.phase = .notStart then .zero else ctx

/-- The block with the body, which the vheader takes over where there is one. -/
def RecvContext.body (ctx : RecvContext) : Option (List UInt8) :=
  if ctx.phase ≠ .inPayload ∧ ctx.ilinkMsg.hasVheader then ctx.ilinkMsg.vheader
    else ctx.ilinkMsg.payload

/-- Between two contexts only some cells of the body changed. -/
def BodyKept (written : List Nat) (ctx next : RecvContext) : Prop :=
  ∃ block left, ctx.ilinkMsg.payload = some block ∧ next.body = some left ∧ ∀ other ∉ written,
    left[other]? = block[other]?

/-- A call changes only the cells that it writes. -/
def RecvContext.KeepsOthers (malloc : Nat → Option (List UInt8)) (ctx : RecvContext) :
    DecoderCall → Prop
  | .onByteArrive ch =>
    ∀ result next, onByteArrive malloc ch ctx = some (result, next) →
      (∀ other ∉ headWrites ctx (.onByteArrive ch),
      next.headBuff[other]? = ctx.cleared.headBuff[other]?) ∧
      (ctx.phase = .inPayload → BodyKept (bodyWrites ctx (.onByteArrive ch)) ctx next)
  | .onPayloadBlock buffer =>
    ∀ done len next, onPayloadBlock ctx buffer = some (done, len, next) →
      next.headBuff = ctx.headBuff ∧ BodyKept (bodyWrites ctx (.onPayloadBlock buffer)) ctx next

section Cells

variable {malloc : Nat → Option (List UInt8)} {ctx next : RecvContext} {ch : UInt8} {result : Int}

theorem payloadRecieveDone_cells {block : List UInt8} (payload : ctx.ilinkMsg.payload = some block)
    (done : payloadRecieveDone ctx = some next) : next.headBuff = ctx.headBuff ∧
    next.body = some block := by
  simp only [payloadRecieveDone, payload] at done
  have idle : Phase.notStart ≠ .inPayload := by decide
  split at done
  · rename_i announced
    split at done
    · cases done
    · obtain rfl := some.inj done
      exact ⟨rfl, if_pos ⟨idle, announced⟩⟩
  · rename_i plain
    obtain rfl := some.inj done
    exact ⟨rfl, (if_neg fun both => plain both.2).trans payload⟩

theorem lengthRecieveDone_headBuff (done : lengthRecieveDone malloc ctx = some (result, next)) :
    next.headBuff = ctx.headBuff := by
  simp only [lengthRecieveDone] at done
  split at done
  · cases done
  split at done
  · cases done
    rfl
  split at done
  · cases done
    rfl
  · split at done
    · cases done
      rfl
    · cases done
      rfl

theorem pushHead_others (pushed : pushHead ch ctx = some next) {other : Nat}
    (different : other ≠ ctx.offset) : next.headBuff[other]? = ctx.headBuff[other]? := by
  obtain ⟨headBuff, stored, rfl⟩ := map_eq_some_iff.mp pushed
  exact store_others stored different

/-- A byte changes no cell of the header buffer besides the one it writes. -/
theorem onByteArrive_headWrites (arrived : onByteArrive malloc ch ctx = some (result, next))
    {other : Nat} (different : other ∉ headWrites ctx (.onByteArrive ch)) :
    next.headBuff[other]? = ctx.cleared.headBuff[other]? := by
  -- A header byte that is put at the offset,
  have header : ∀ {shown : RecvContext}, endOfByte ch shown = some (result, next) →
      other ≠ shown.offset → shown.headBuff = ctx.cleared.headBuff →
      next.headBuff[other]? = ctx.cleared.headBuff[other]? := by
    intro shown ended apart same
    unfold endOfByte at ended
    split at ended
    · cases ended
    · obtain ⟨pushed, push, done⟩ := map_eq_some_iff.mp ended
      cases done
      rw [pushHead_others push apart, same]
  -- and one that ends the length.
  have opened : ∀ {shown : RecvContext},
      (pushHead ch shown).bind (fun ctx => lengthRecieveDone malloc ctx) = some (result, next) →
      other ≠ shown.offset → shown.headBuff = ctx.cleared.headBuff →
      next.headBuff[other]? = ctx.cleared.headBuff[other]? := by
    intro shown ended apart same
    obtain ⟨pushed, push, done⟩ := bind_eq_some_iff.mp ended
    rw [lengthRecieveDone_headBuff done, pushHead_others push apart, same]
  by_cases start : ctx.phase = .notStart
  · have reset : ctx.cleared.headBuff = RecvContext.zero.headBuff := congrArg _ (if_pos start)
    simp only [headWrites, start] at different
    simp only [onByteArrive, start] at arrived
    split at arrived
    · rename_i leading
      rw [if_pos (.inl leading), mem_singleton] at different
      exact header arrived different reset.symm
    split at arrived
    · rename_i leading
      rw [if_pos (.inr leading), mem_singleton] at different
      exact header arrived different reset.symm
    · cases arrived
      rw [reset]
  have kept : ctx.headBuff = ctx.cleared.headBuff := congrArg _ (if_neg start).symm
  cases phase : ctx.phase with
  | notStart => exact absurd phase start
  | inPayload =>
    simp only [onByteArrive, phase] at arrived
    split at arrived
    · cases arrived
    · rename_i block payload
      obtain ⟨stored, -, arrived⟩ := bind_eq_some_iff.mp arrived
      split at arrived
      · obtain ⟨done, close, same⟩ := map_eq_some_iff.mp arrived
        cases same
        rw [(payloadRecieveDone_cells rfl close).1, ← kept]
      · cases arrived
        rw [← kept]
  | inMid =>
    simp only [headWrites, phase, mem_singleton] at different
    simp only [onByteArrive, phase] at arrived
    split at arrived
    · exact header arrived different kept
    · exact header arrived different kept
  | inType =>
    simp only [headWrites, phase, mem_singleton] at different
    simp only [onByteArrive, phase] at arrived
    split at arrived
    · exact header arrived different kept
    · exact header arrived different kept
  | inBaseLen =>
    simp only [headWrites, phase, mem_singleton] at different
    simp only [onByteArrive, phase] at arrived
    split at arrived
    · split at arrived
      · exact header arrived different kept
      · exact opened arrived different kept
    · exact header arrived different kept
  | inExtLen =>
    simp only [headWrites, phase, mem_singleton] at different
    simp only [onByteArrive, phase] at arrived
    split at arrived
    · exact opened arrived different kept
    · exact header arrived different kept

/-- A body byte changes no cell of the body besides the one it writes. -/
theorem onByteArrive_bodyWrites (phase : ctx.phase = .inPayload)
    (arrived : onByteArrive malloc ch ctx = some (result, next)) :
    BodyKept (bodyWrites ctx (.onByteArrive ch)) ctx next := by
  cases payload : ctx.ilinkMsg.payload with
  | none => simp only [onByteArrive, phase, payload, reduceCtorEq] at arrived
  | some block =>
    rw [onByteArrive_body phase payload] at arrived
    obtain ⟨left, stored, arrived⟩ := bind_eq_some_iff.mp arrived
    have others : ∀ other ∉ bodyWrites ctx (.onByteArrive ch), left[other]? = block[other]? := by
      intro other different
      rw [bodyWrites, if_pos phase, mem_singleton] at different
      exact store_others stored different
    refine ⟨block, left, payload, ?_, others⟩
    simp only at arrived
    split at arrived
    · obtain ⟨done, close, same⟩ := map_eq_some_iff.mp arrived
      cases same
      exact (payloadRecieveDone_cells rfl close).2
    · cases arrived
      exact if_neg fun both => both.1 phase

/-- A block changes no cell of the header buffer, and none of the body besides those it writes. -/
theorem onPayloadBlock_writes {buffer : List UInt8}
    {len : Nat} (copied : onPayloadBlock ctx buffer = some (result, len, next)) :
    next.headBuff = ctx.headBuff ∧ BodyKept (bodyWrites ctx (.onPayloadBlock buffer)) ctx next := by
  unfold onPayloadBlock at copied
  split at copied
  · cases copied
  rename_i phase
  have phase : ctx.phase = .inPayload := not_not.mp phase
  simp only at copied
  split at copied
  · cases copied
  rename_i nonneg
  cases payload : ctx.ilinkMsg.payload with
  | none => simp only [payload, reduceCtorEq] at copied
  | some block =>
    simp only [payload] at copied
    obtain ⟨left, stored, copied⟩ := bind_eq_some_iff.mp copied
    have others : ∀ other ∉ bodyWrites ctx (.onPayloadBlock buffer),
        left[other]? = block[other]? := by
      intro other different
      refine storeAll_others stored ?_
      simp only [bodyWrites, if_pos phase, List.mem_map, mem_range, not_exists,
        not_and] at different
      rw [length_take]
      by_contra inside
      exact different (other - ctx.offset) (by omega) (by omega)
    split at copied
    · obtain ⟨done, close, same⟩ := map_eq_some_iff.mp copied
      cases same
      obtain ⟨head, body⟩ := payloadRecieveDone_cells rfl close
      exact ⟨head, block, left, payload, body, others⟩
    · cases copied
      exact ⟨rfl, block, left, payload, if_neg fun both => both.1 phase, others⟩

theorem RecvContext.keepsOthers (malloc : Nat → Option (List UInt8)) (ctx : RecvContext)
    (call : DecoderCall) : ctx.KeepsOthers malloc call := by
  cases call with
  | onByteArrive ch =>
    exact fun _ _ arrived => ⟨fun _ different => onByteArrive_headWrites arrived different,
      fun phase => onByteArrive_bodyWrites phase arrived⟩
  | onPayloadBlock buffer => exact fun _ _ _ copied => onPayloadBlock_writes copied

end Cells

/-! ## Whole runs -/

/-- In the body there is a block for it, which is filled up to the offset, and the phase ends with
it. -/
def RecvContext.BodyOpen (ctx : RecvContext) : Prop :=
  ctx.phase = .inPayload →
    (∃ block, ctx.ilinkMsg.payload = some block ∧ ctx.ilinkMsg.payloadLen.toNat ≤ block.length) ∧
    ctx.offset < ctx.ilinkMsg.payloadLen.toNat ∧
    (ctx.offset : Int) + ctx.phaseLen = ctx.ilinkMsg.payloadLen.toNat

/-- A call writes inside of the header buffer and of the body. -/
def RecvContext.WritesInside (ctx : RecvContext) (call : DecoderCall) : Prop :=
  (∀ index ∈ headWrites ctx call, index < RecvContext.zero.headBuff.length) ∧
    ∀ index ∈ bodyWrites ctx call, index < ctx.ilinkMsg.payloadLen.toNat

/-- What holds between two calls. -/
structure RecvContext.Decodes (ctx : RecvContext) : Prop where
  wellFormed : ctx.WellFormed
  takes : ∃ taken, Takes taken ctx

section Runs

variable {malloc : Nat → Option (List UInt8)} {ctx : RecvContext}

theorem RecvContext.zero_decodes : RecvContext.zero.Decodes := ⟨trivial, [], trivial⟩

namespace RecvContext.Decodes

theorem bodyTaken (decodes : ctx.Decodes) (phase : ctx.phase = .inPayload) :
    ∃ taken, BodyTaken taken ctx := by
  obtain ⟨taken, takes⟩ := decodes.takes
  exact ⟨taken, by simpa only [Takes, phase] using takes⟩

theorem bodyOpen (decodes : ctx.Decodes) : ctx.BodyOpen := by
  intro phase
  obtain ⟨taken, ⟨before, body, rest, -, payload, filled, fits, -⟩, -, payloadLen, expects,
    length⟩ := decodes.bodyTaken phase
  rw [payloadLen]
  exact ⟨⟨_, payload, fits⟩, by omega, length⟩

theorem writesInside (decodes : ctx.Decodes) (call : DecoderCall) : ctx.WritesInside call := by
  constructor
  · intro index written
    have size : RecvContext.zero.headBuff.length = 10 := rfl
    rw [size]
    cases call with
    | onPayloadBlock buffer => cases written
    | onByteArrive ch =>
      by_cases start : ctx.phase = .notStart
      · simp only [headWrites, start] at written
        split at written
        · rw [mem_singleton] at written
          omega
        · cases written
      · by_cases body : ctx.phase = .inPayload
        · simp only [headWrites, body, not_mem_nil] at written
        obtain ⟨taken, takes⟩ := decodes.takes
        have front := takes.front start body
        have expects := front.expects
        have room := front.room
        have here : index = ctx.offset := by cases phase : ctx.phase <;> simp_all [headWrites]
        omega
  · intro index written
    by_cases phase : ctx.phase = .inPayload
    · obtain ⟨-, inside, length⟩ := decodes.bodyOpen phase
      cases call with
      | onByteArrive ch =>
        rw [bodyWrites, if_pos phase, mem_singleton] at written
        rw [written]
        exact inside
      | onPayloadBlock buffer =>
        rw [bodyWrites, if_pos phase, List.mem_map] at written
        obtain ⟨step, counted, rfl⟩ := written
        rw [mem_range, copyLen] at counted
        split at counted <;> omega
    · cases call <;> simp only [bodyWrites, if_neg phase, not_mem_nil] at written

/-- No byte stops the decoder. -/
theorem onByteArrive (fits : MallocFits malloc) (decodes : ctx.Decodes) (ch : UInt8) :
    ∃ result next, onByteArrive malloc ch ctx = some (result, next) ∧ next.Decodes ∧
    (result = 2 → next.phase = .inPayload) := by
  obtain ⟨taken, takes⟩ := decodes.takes
  obtain ⟨result, next, arrived, kept, -⟩ := onByteArrive_takes ch fits decodes.wellFormed takes
  obtain ⟨wellFormed, inBody⟩ := onByteArrive_wellFormed decodes.wellFormed arrived
  exact ⟨result, next, arrived, ⟨wellFormed, _, kept⟩, fun body => (inBody body).1⟩

/-- A block is taken as its bytes are, up to the end of the body. -/
theorem onPayloadBlock_cons (decodes : ctx.Decodes) (phase : ctx.phase = .inPayload)
    (ch : UInt8) (rest : List UInt8) :
    ∃ result next, Ilink.onByteArrive (fun _ => none) ch ctx = some (result, next) ∧ next.Decodes ∧
    (onPayloadBlock ctx (ch :: rest) = some (0, 1, next) ∨ next.phase = .inPayload ∧
      onPayloadBlock ctx (ch :: rest) = (onPayloadBlock next rest).map fun (done, len, ctx) =>
      (done, len + 1, ctx)) := by
  obtain ⟨block, payload, -⟩ := (decodes.bodyOpen phase).1
  obtain ⟨result, next, arrived, kept, -⟩ := @onByteArrive (fun _ => none) ctx nofun decodes ch
  refine ⟨result, next, arrived, kept, ?_⟩
  rw [onByteArrive_body phase payload] at arrived
  obtain ⟨left, stored, arrived⟩ := bind_eq_some_iff.mp arrived
  by_cases last : ctx.phaseLen = 1
  · left
    rw [onPayloadBlock_last phase payload last, stored, bind_some]
    simp only [last, Int.sub_self, if_true] at arrived
    obtain ⟨done, close, same⟩ := map_eq_some_iff.mp arrived
    cases same
    rw [close]
    rfl
  · have more : 1 < ctx.phaseLen := by
      obtain ⟨-, inside, length⟩ := decodes.bodyOpen phase
      omega
    right
    rw [Ilink.onPayloadBlock_cons phase payload more, stored, bind_some]
    rw [if_neg (by simp only; omega)] at arrived
    cases arrived
    exact ⟨phase, rfl⟩

/-- No block stops the decoder. -/
theorem onPayloadBlock (decodes : ctx.Decodes) (phase : ctx.phase = .inPayload)
    (buffer : List UInt8) :
    ∃ done len next, onPayloadBlock ctx buffer = some (done, len, next) ∧ next.Decodes := by
  induction buffer generalizing ctx with
  | nil =>
    obtain ⟨⟨block, payload, -⟩, inside, length⟩ := decodes.bodyOpen phase
    exact ⟨1, 0, ctx, onPayloadBlock_nil phase payload (by omega), decodes⟩
  | cons ch rest ih =>
    obtain ⟨result, next, -, kept, ended | ⟨inBody, goesOn⟩⟩ :=
      decodes.onPayloadBlock_cons phase ch rest
    · exact ⟨0, 1, next, ended, kept⟩
    · obtain ⟨done, len, last, copied, decodesLast⟩ := ih kept inBody
      exact ⟨done, len + 1, last, by rw [goesOn, copied]; rfl, decodesLast⟩

/-- No call of a chunk stops the decoder. -/
theorem handleCloudPacketLoop (fits : MallocFits malloc) (stringLen : Nat) :
    ∀ (bytes : List UInt8) {ctx : RecvContext}, ctx.Decodes → (∃ received,
      handleCloudPacketLoop malloc stringLen bytes ctx = some received ∧ received.ctx.Decodes) ∧
    ∀ visit ∈ packetCallsLoop malloc stringLen bytes ctx, visit.1.Decodes := by
  induction stringLen with
  | zero => exact fun bytes ctx decodes => ⟨⟨_, rfl, decodes⟩, forall_mem_nil _⟩
  | succ stringLen ih =>
    intro bytes ctx decodes
    obtain _ | ⟨ch, pos⟩ := bytes
    · rw [Ilink.handleCloudPacketLoop, packetCallsLoop]
      exact ⟨⟨⟨[], ctx⟩, rfl, decodes⟩, forall_mem_nil _⟩
    obtain ⟨result, next, arrived, decodesNext, inBody⟩ := decodes.onByteArrive fits ch
    rw [Ilink.handleCloudPacketLoop, packetCallsLoop, arrived, bind_some, forall_mem_cons]
    by_cases body : result = 2
    · obtain ⟨done, len, last, copied, decodesLast⟩ := decodesNext.onPayloadBlock (inBody body) pos
      obtain ⟨⟨received, ran, decodesReceived⟩, visits⟩ := ih (pos.drop len) decodesLast
      simp only [if_pos body, copied, bind_some, ran, map_some, forall_mem_cons]
      exact ⟨⟨_, rfl, decodesReceived⟩, decodes, decodesNext, visits⟩
    · obtain ⟨⟨received, ran, decodesReceived⟩, visits⟩ := ih pos decodesNext
      simp only [if_neg body, ran, map_some]
      exact ⟨⟨_, rfl, decodesReceived⟩, decodes, visits⟩

/-- No call of any chunk stops the decoder. -/
theorem handleCloudPackets (fits : MallocFits malloc) (chunks : List (List UInt8)) :
    ∀ {ctx : RecvContext}, ctx.Decodes →
    (∃ received, handleCloudPackets malloc chunks ctx = some received ∧ received.ctx.Decodes) ∧
    ∀ visit ∈ packetsCalls malloc chunks ctx, visit.1.Decodes := by
  induction chunks with
  | nil => exact fun decodes => ⟨⟨_, rfl, decodes⟩, forall_mem_nil _⟩
  | cons chunk rest ih =>
    intro ctx decodes
    obtain ⟨⟨first, ran, decodesFirst⟩, visits⟩ :=
      decodes.handleCloudPacketLoop fits chunk.length chunk
    have ran : handleCloudPacket malloc chunk ctx = some first := ran
    obtain ⟨⟨received, ranRest, decodesReceived⟩, later⟩ := ih decodesFirst
    rw [Ilink.handleCloudPackets, packetsCalls, ran, bind_some, ranRest, map_some]
    exact ⟨⟨_, rfl, decodesReceived⟩, forall_mem_append.mpr ⟨visits, later⟩⟩

end RecvContext.Decodes

/-- From a zeroed context, no assertion of the decoder fails for any stream in any chunks, its
body is open whenever it is in the body, and every call writes cells of its buffers, and changes no
others. -/
theorem handleCloudPackets_writesInside (fits : MallocFits malloc) (chunks : List (List UInt8)) :
    (∃ received, handleCloudPackets malloc chunks .zero = some received ∧ received.ctx.BodyOpen) ∧
      ∀ visit ∈ packetsCalls malloc chunks .zero,
        visit.1.BodyOpen ∧ visit.1.WritesInside visit.2 ∧ visit.1.KeepsOthers malloc visit.2 := by
  obtain ⟨⟨received, ran, decodes⟩, visits⟩ :=
    RecvContext.zero_decodes.handleCloudPackets fits chunks
  refine ⟨⟨received, ran, decodes.bodyOpen⟩, fun visit member => ?_⟩
  have decodes := visits visit member
  exact ⟨decodes.bodyOpen, decodes.writesInside visit.2, visit.1.keepsOthers malloc visit.2⟩

/-- A frame with a body of three bytes, in two chunks. -/
def sampleChunks : List (List UInt8) := [[fixedcharNoMsgid, 5, 0, 3, 1], [2, 3, fixedcharRequest]]

theorem handleCloudPackets_writesInside_zeroed :
    (∃ received, handleCloudPackets mallocZeroed sampleChunks .zero = some received ∧
      received.ctx.BodyOpen) ∧ ∀ visit ∈ packetsCalls mallocZeroed sampleChunks .zero,
    visit.1.BodyOpen ∧ visit.1.WritesInside visit.2 ∧ visit.1.KeepsOthers mallocZeroed visit.2 := by
  have fits : MallocFits mallocZeroed := by
    rintro size block ⟨rfl⟩
    exact Nat.le_of_eq length_replicate.symm
  exact handleCloudPackets_writesInside fits sampleChunks

end Runs

end Idrm.Ilink
