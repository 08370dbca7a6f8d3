import Idrm.Ilink.Frame

/-!
# Receiving in chunks

A socket delivers the stream in arbitrary pieces, and `handle_cloud_packet`
switches to block copies inside a body. `handleCloudPacketLoop_eq_feedBytes`
shows that neither matters: every chunked run is the run that feeds one byte at a
time.

The argument needs the part of the receiver's invariant that keeps the block
copy's remainder positive; `DecoderContext` is a context together with it.
-/

namespace Idrm.Ilink

open Idrm.Lib Option List

/-! ## The receiver invariant -/

/-- What every phase relies on: the length accumulator is clear until the length
field starts, holds only that field's bytes, and a body phase still expects bytes. -/
def RecvContext.WellFormed (ctx : RecvContext) : Prop :=
  match ctx.phase with
  | .notStart => True
  | .inMid => ctx.msglen = 0
  | .inType => ctx.msglen = 0
  | .inBaseLen => (ctx.phaseLen = 2 ∧ ctx.msglen = 0) ∨ (ctx.phaseLen = 1 ∧ ctx.msglen.toNat < 256)
  | .inExtLen => True
  | .inPayload => 0 < ctx.phaseLen

/-- The contexts a receiver can hold. -/
abbrev DecoderContext := { ctx : RecvContext // ctx.WellFormed }

theorem RecvContext.zero_wellFormed : RecvContext.zero.WellFormed := trivial

/-- The extension mask keeps the combined length below `2 ^ 31`. -/
theorem extendedLength_lt (ext base : UInt32) :
    (((ext <<< 15) &&& 0x7FFF8000) ||| (base &&& 0x00007FFF)).toNat < 2 ^ 31 := by
  rw [UInt32.toNat_or]
  apply Nat.or_lt_two_pow
  · rw [UInt32.toNat_and]
    exact Nat.and_lt_two_pow _ (by decide)
  · rw [UInt32.toNat_and]
    exact Nat.and_lt_two_pow _ (by decide)

section Receiver

variable {malloc : Nat → Option (List UInt8)}

@[simp] theorem Received.after_nil (received : Received) : received.after [] = received := rfl

@[simp] theorem Received.after_after (first second : List IlinkMessage) (received : Received) :
    (received.after second).after first = received.after (first ++ second) := by
  simp [Received.after]

variable {ch : UInt8}

theorem pushHead_frame {ctx next : RecvContext} (pushed : pushHead ch ctx = some next) :
    next.phase = ctx.phase ∧ next.phaseLen = ctx.phaseLen ∧ next.msglen = ctx.msglen ∧
      next.ilinkMsg = ctx.ilinkMsg := by
  simp only [pushHead, map_eq_some_iff] at pushed
  obtain ⟨headBuff, -, rfl⟩ := pushed
  exact ⟨rfl, rfl, rfl, rfl⟩

/-- A header byte changes neither the phase nor what the invariant reads. -/
theorem endOfByte_spec {ctx next : RecvContext} {result : Int}
    (ended : endOfByte ch ctx = some (result, next)) :
    result = 1 ∧ (ctx.WellFormed → next.WellFormed) := by
  simp only [endOfByte] at ended
  split at ended
  · cases ended
  · simp only [map_eq_some_iff, Prod.mk.injEq] at ended
    obtain ⟨pushed, push, rfl, rfl⟩ := ended
    obtain ⟨phase, phaseLen, msglen, -⟩ := pushHead_frame push
    refine ⟨rfl, fun wellFormed => ?_⟩
    simpa only [RecvContext.WellFormed, phase, phaseLen, msglen] using wellFormed

/-- A finished length field opens a body with bytes to come, or no body at all. -/
theorem lengthRecieveDone_spec {ctx next : RecvContext} {result : Int}
    (small : ctx.msglen.toNat < 2 ^ 31)
    (done : lengthRecieveDone malloc ctx = some (result, next)) : result ≠ 2 ∧ next.WellFormed := by
  simp only [lengthRecieveDone] at done
  split at done
  · cases done
  split at done
  · cases done
    exact ⟨by decide, trivial⟩
  rename_i nonzero
  have positive : 0 < ctx.msglen.toInt32.toInt := by
    have : ctx.msglen.toNat ≠ 0 := fun zero => nonzero (UInt32.toNat_inj.mp zero)
    rw [toInt32_toInt small]
    omega
  split at done
  · cases done
    exact ⟨by decide, positive⟩
  split at done
  · cases done
    exact ⟨by decide, trivial⟩
  · cases done
    exact ⟨by decide, positive⟩

theorem payloadRecieveDone_phase {ctx next : RecvContext}
    (done : payloadRecieveDone ctx = some next) : next.phase = .notStart := by
  simp only [payloadRecieveDone] at done
  split at done
  · split at done
    · cases done
    · split at done
      · cases done
      · cases done
        rfl
  · cases done
    rfl

/-- One byte keeps the invariant, and a return of `2` leaves an open body. -/
theorem onByteArrive_wellFormed {ctx next : RecvContext} {result : Int}
    (wellFormed : ctx.WellFormed) (arrived : onByteArrive malloc ch ctx = some (result, next)) :
    next.WellFormed ∧
    (result = 2 → next.phase = .inPayload ∧ 0 < next.phaseLen ∧ next.ilinkMsg.payload ≠ none) := by
  -- The five header phases never return `2`; each either ends at `endOfByte` or opens the body.
  have header : ∀ {shown : RecvContext}, endOfByte ch shown = some (result, next) →
      shown.WellFormed → next.WellFormed ∧ (result = 2 → next.phase = .inPayload ∧
      0 < next.phaseLen ∧ next.ilinkMsg.payload ≠ none) := by
    intro shown ended shownWellFormed
    obtain ⟨rfl, keeps⟩ := endOfByte_spec ended
    exact ⟨keeps shownWellFormed, fun body => absurd body (by decide)⟩
  have opened : ∀ {shown : RecvContext},
      (pushHead ch shown).bind (fun ctx => lengthRecieveDone malloc ctx) = some (result, next) →
      shown.msglen.toNat < 2 ^ 31 → next.WellFormed ∧ (result = 2 → next.phase = .inPayload ∧
      0 < next.phaseLen ∧ next.ilinkMsg.payload ≠ none) := by
    intro shown ended small
    obtain ⟨pushed, push, done⟩ := bind_eq_some_iff.mp ended
    have kept := (pushHead_frame push).2.2.1
    obtain ⟨notBody, keeps⟩ := lengthRecieveDone_spec (by rw [kept]; exact small) done
    exact ⟨keeps, fun body => absurd body notBody⟩
  unfold onByteArrive at arrived
  split at arrived
  case h_1 =>
    simp only at arrived
    split at arrived
    · exact header arrived rfl
    split at arrived
    · exact header arrived rfl
    · cases arrived
      exact ⟨trivial, fun body => absurd body (by decide)⟩
  case h_2 phase =>
    have clear : ctx.msglen = 0 := by simpa [RecvContext.WellFormed, phase] using wellFormed
    simp only at arrived
    split at arrived
    · exact header arrived clear
    · exact header arrived (by simpa [RecvContext.WellFormed, phase] using clear)
  case h_3 phase =>
    have clear : ctx.msglen = 0 := by simpa [RecvContext.WellFormed, phase] using wellFormed
    simp only at arrived
    split at arrived
    · exact header arrived (.inl ⟨rfl, clear⟩)
    · exact header arrived (by simpa [RecvContext.WellFormed, phase] using clear)
  case h_4 phase =>
    have field : (ctx.phaseLen = 2 ∧ ctx.msglen = 0) ∨
        (ctx.phaseLen = 1 ∧ ctx.msglen.toNat < 256) := by
      simpa [RecvContext.WellFormed, phase] using wellFormed
    have shifted := shiftInByte_toNat ctx.msglen ch
    have byteBound := ch.toNat_lt
    simp only at arrived
    split at arrived
    · rename_i finished
      have last : ctx.phaseLen = 1 ∧ ctx.msglen.toNat < 256 := by
        rcases field with first | second
        · omega
        · exact second
      split at arrived
      · exact header arrived trivial
      · exact opened arrived (by simp only; omega)
    · rename_i unfinished
      have first : ctx.phaseLen = 2 ∧ ctx.msglen = 0 := by
        rcases field with first | second
        · exact first
        · omega
      refine header arrived ?_
      have start : ctx.msglen.toNat = 0 := by rw [first.2]; rfl
      simp only [RecvContext.WellFormed, phase]
      right
      omega
  case h_5 phase =>
    simp only at arrived
    split at arrived
    · exact opened arrived (extendedLength_lt _ _)
    · exact header arrived (by simp [RecvContext.WellFormed, phase])
  case h_6 phase =>
    have remaining : 0 < ctx.phaseLen := by simpa [RecvContext.WellFormed, phase] using wellFormed
    split at arrived
    · cases arrived
    · obtain ⟨block, -, stored⟩ := bind_eq_some_iff.mp arrived
      simp only at stored
      split at stored
      · simp only [map_eq_some_iff, Prod.mk.injEq] at stored
        obtain ⟨done, closed, rfl, rfl⟩ := stored
        have idle := payloadRecieveDone_phase closed
        exact ⟨by simp [RecvContext.WellFormed, idle], fun body => absurd body (by decide)⟩
      · rename_i unfinished
        cases stored
        have positive : 0 < ctx.phaseLen - 1 := by omega
        refine ⟨by simpa [RecvContext.WellFormed, phase] using positive,
          fun _ => ⟨phase, positive, by simp⟩⟩

/-! ## The block copy is the per-byte path -/

variable {ctx : RecvContext} {block : List UInt8}

/-- A body byte with more to come, on the per-byte path. -/
theorem onByteArrive_body
    (phase : ctx.phase = .inPayload) (payload : ctx.ilinkMsg.payload = some block) :
    onByteArrive malloc ch ctx =
      (store block ctx.offset ch).bind fun block =>
        let ctx : RecvContext := { ctx with
          phaseLen := ctx.phaseLen - 1
          offset := ctx.offset + 1
          ilinkMsg := { ctx.ilinkMsg with payload := some block } }
        if ctx.phaseLen = 0 then (payloadRecieveDone ctx).map fun ctx => (0, ctx)
        else some (2, ctx) := by
  unfold onByteArrive
  split <;> simp_all

/-- An empty block leaves an open body as it is. -/
theorem onPayloadBlock_nil
    (phase : ctx.phase = .inPayload) (payload : ctx.ilinkMsg.payload = some block)
    (remaining : 0 < ctx.phaseLen) : onPayloadBlock ctx [] = some (1, 0, ctx) := by
  obtain ⟨current, offset, phaseLen, headBuff, msglen, msglenex, msg⟩ := ctx
  simp only at phase payload remaining
  subst phase
  have unfinished : phaseLen ≠ 0 := by omega
  have same : { msg with payload := some block } = msg := by rw [← payload]
  simp [onPayloadBlock, copyLen, payload, remaining, unfinished, same]

/-- The last body byte of a block closes the message exactly as a single byte does. -/
theorem onPayloadBlock_last {rest : List UInt8}
    (phase : ctx.phase = .inPayload) (payload : ctx.ilinkMsg.payload = some block)
    (last : ctx.phaseLen = 1) :
    onPayloadBlock ctx (ch :: rest) =
      (store block ctx.offset ch).bind fun block =>
        (payloadRecieveDone { ctx with
          phaseLen := 0
          offset := ctx.offset + 1
          ilinkMsg := { ctx.ilinkMsg with payload := some block } }).map fun ctx =>
            (0, 1, ctx) := by
  have whole : ¬ ((rest.length : Int) + 1 < 1) := by omega
  simp [onPayloadBlock, copyLen, phase, payload, last, whole, storeAll_cons]

/-- A block copy that does not end the body takes one byte and copies the rest. -/
theorem onPayloadBlock_cons {rest : List UInt8}
    (phase : ctx.phase = .inPayload) (payload : ctx.ilinkMsg.payload = some block)
    (more : 1 < ctx.phaseLen) :
    onPayloadBlock ctx (ch :: rest) =
      (store block ctx.offset ch).bind fun block =>
        (onPayloadBlock { ctx with
          phaseLen := ctx.phaseLen - 1
          offset := ctx.offset + 1
          ilinkMsg := { ctx.ilinkMsg with payload := some block } } rest).map
          fun (done, len, ctx) => (done, len + 1, ctx) := by
  -- The copy lengths of the two calls differ by the byte taken.
  obtain ⟨count, counted, split⟩ : ∃ count : Nat,
      copyLen (ch :: rest).length ctx.phaseLen = (count : Int) + 1 ∧
      copyLen rest.length (ctx.phaseLen - 1) = (count : Int) := by
    simp only [copyLen, length_cons]
    by_cases short : (rest.length : Int) < ctx.phaseLen - 1
    · exact ⟨rest.length, by rw [if_pos (by omega)]; omega, if_pos short⟩
    · exact ⟨(ctx.phaseLen -
        1).toNat, by rw [if_neg (by omega)]; omega, by rw [if_neg short]; omega⟩
  have nonneg : ¬ ((count : Int) + 1 < 0) := by omega
  have nonneg' : ¬ ((count : Int) < 0) := by omega
  have copied : ((count : Int) + 1).toNat = count + 1 := by omega
  simp only [onPayloadBlock, phase, payload, counted, split, nonneg, nonneg', copied, ne_eq,
    not_true_eq_false, if_false, take_succ_cons, storeAll_cons, bind_assoc,
    Int.toNat_natCast]
  cases stored : store block ctx.offset ch with
  | none => rfl
  | some next =>
    simp only [bind_some]
    cases copiedRest : storeAll next (ctx.offset + 1) (rest.take count) with
    | none => rfl
    | some final =>
      have lengths : ctx.phaseLen - ((count : Int) + 1) = ctx.phaseLen - 1 - count := by omega
      have offsets : ctx.offset + (count + 1) = ctx.offset + 1 + count := by omega
      simp only [bind_some, lengths, offsets]
      split
      · simp [Function.comp_def]
      · rfl

/-- Inside a body, copying a block and going on equals feeding its bytes one by one. -/
theorem feedBytes_eq_onPayloadBlock (buffer : List UInt8)
    (phase : ctx.phase = .inPayload) (remaining : 0 < ctx.phaseLen)
    (allocated : ctx.ilinkMsg.payload ≠ none) :
    feedBytes malloc buffer ctx =
      (onPayloadBlock ctx buffer).bind fun (done, len, next) =>
        (feedBytes malloc (buffer.drop len) next).map
          (·.after (if done = 0 then [next.ilinkMsg] else [])) := by
  induction buffer generalizing ctx with
  | nil =>
    obtain ⟨block, payload⟩ := ne_none_iff_exists'.mp allocated
    simp [onPayloadBlock_nil phase payload remaining, feedBytes]
  | cons ch rest ih =>
    obtain ⟨block, payload⟩ := ne_none_iff_exists'.mp allocated
    rw [feedBytes, onByteArrive_body phase payload]
    by_cases last : ctx.phaseLen = 1
    · rw [onPayloadBlock_last phase payload last]
      simp only [last, Int.sub_self, if_true, bind_assoc]
      cases stored : store block ctx.offset ch with
      | none => rfl
      | some next =>
        simp only [bind_some]
        cases closed : payloadRecieveDone { ctx with
            phaseLen := 0
            offset := ctx.offset + 1
            ilinkMsg := { ctx.ilinkMsg with payload := some next } } with
        | none => rfl
        | some final => simp
    · have more : 1 < ctx.phaseLen := by omega
      have unfinished : ctx.phaseLen - 1 ≠ 0 := by omega
      rw [onPayloadBlock_cons phase payload more]
      simp only [unfinished, if_false, bind_assoc]
      cases stored : store block ctx.offset ch with
      | none => rfl
      | some next =>
        simp only [bind_some]
        rw [ih (by exact phase) (by simp only; omega) (by simp)]
        cases copied : onPayloadBlock { ctx with
            phaseLen := ctx.phaseLen - 1
            offset := ctx.offset + 1
            ilinkMsg := { ctx.ilinkMsg with payload := some next } } rest with
        | none => rfl
        | some outcome => simp [Function.comp_def]

/-- A block copy keeps the invariant. -/
theorem onPayloadBlock_wellFormed {ctx next : RecvContext} {buffer : List UInt8} {done : Int}
    {len : Nat} (copied : onPayloadBlock ctx buffer = some (done, len, next)) :
    next.WellFormed := by
  simp only [onPayloadBlock] at copied
  split at copied
  · cases copied
  rename_i phase
  split at copied
  · cases copied
  split at copied
  · cases copied
  obtain ⟨block, -, stored⟩ := bind_eq_some_iff.mp copied
  split at stored
  · simp only [map_eq_some_iff, Prod.mk.injEq] at stored
    obtain ⟨closed, close, -, -, rfl⟩ := stored
    simp [RecvContext.WellFormed, payloadRecieveDone_phase close]
  · rename_i unfinished
    cases stored
    have body : ctx.phase = .inPayload := by simpa using phase
    have bounded : copyLen buffer.length ctx.phaseLen ≤ ctx.phaseLen := by
      simp only [copyLen]
      split <;> omega
    simp only [RecvContext.WellFormed, body]
    omega

/-! ## Whole runs -/

/-- The chunk loop is the per-byte run, for any bound that covers the chunk. -/
theorem handleCloudPacketLoop_eq_feedBytes (stringLen : Nat) (bytes : List UInt8)
    (wellFormed : ctx.WellFormed) (covered : bytes.length ≤ stringLen) :
    handleCloudPacketLoop malloc stringLen bytes ctx = feedBytes malloc bytes ctx := by
  induction stringLen generalizing bytes ctx with
  | zero =>
    have empty : bytes = [] := length_eq_zero_iff.mp (by omega)
    subst empty
    rfl
  | succ stringLen ih =>
    cases bytes with
    | nil => rfl
    | cons ch rest =>
      simp only [length_cons] at covered
      rw [handleCloudPacketLoop, feedBytes]
      cases arrived : onByteArrive malloc ch ctx with
      | none => rfl
      | some outcome =>
        obtain ⟨result, next⟩ := outcome
        obtain ⟨nextWellFormed, body⟩ := onByteArrive_wellFormed wellFormed arrived
        simp only [bind_some]
        split
        · rename_i inBody
          obtain ⟨phase, remaining, allocated⟩ := body inBody
          rw [inBody, feedBytes_eq_onPayloadBlock rest phase remaining allocated]
          cases copied : onPayloadBlock next rest with
          | none => rfl
          | some block =>
            obtain ⟨done, len, final⟩ := block
            simp only [bind_some]
            rw [ih _ (onPayloadBlock_wellFormed copied)
              (by simp only [length_drop]; omega)]
            simp [Function.comp_def]
        · rw [ih _ nextWellFormed (by omega)]

theorem feedBytes_append (front back : List UInt8) (ctx : RecvContext) :
    feedBytes malloc (front ++ back) ctx =
      (feedBytes malloc front ctx).bind fun first =>
        (feedBytes malloc back first.ctx).map (·.after first.delivered) := by
  induction front generalizing ctx with
  | nil => simp [feedBytes]
  | cons ch rest ih =>
    simp only [cons_append, feedBytes, ih, bind_assoc]
    congr 1
    funext outcome
    simp [Option.map_bind, bind_map, Function.comp_def, Received.after]

theorem feedBytes_wellFormed {bytes : List UInt8} {received : Received}
    (wellFormed : ctx.WellFormed) (fed : feedBytes malloc bytes ctx = some received) :
    received.ctx.WellFormed := by
  induction bytes generalizing ctx received with
  | nil =>
    cases fed
    exact wellFormed
  | cons ch rest ih =>
    simp only [feedBytes, bind_eq_some_iff, map_eq_some_iff] at fed
    obtain ⟨⟨result, next⟩, arrived, tail, tailFed, rfl⟩ := fed
    have tailWellFormed := ih (onByteArrive_wellFormed wellFormed arrived).1 tailFed
    exact tailWellFormed

/-- One chunk at a well-formed context is its per-byte run. -/
theorem handleCloudPacket_eq_feedBytes (message : List UInt8)
    (wellFormed : ctx.WellFormed) :
    handleCloudPacket malloc message ctx = feedBytes malloc message ctx :=
  handleCloudPacketLoop_eq_feedBytes message.length message wellFormed (Nat.le_refl _)

/-- However the stream is cut into chunks, the deliveries and the final context
are those of the per-byte run over the whole stream. -/
theorem handleCloudPackets_eq_feedBytes (malloc : Nat → Option (List UInt8))
    (chunks : List (List UInt8)) (ctx : DecoderContext) :
    handleCloudPackets malloc chunks ctx.1 = feedBytes malloc chunks.flatten ctx.1 := by
  obtain ⟨ctx, wellFormed⟩ := ctx
  induction chunks generalizing ctx with
  | nil => rfl
  | cons chunk rest ih =>
    simp only [handleCloudPackets, flatten_cons, feedBytes_append,
      handleCloudPacket_eq_feedBytes chunk wellFormed]
    cases fed : feedBytes malloc chunk ctx with
    | none => rfl
    | some first =>
      have next := ih first.ctx (feedBytes_wellFormed wellFormed fed)
      simp only [bind_some, next]

end Receiver

end Idrm.Ilink
