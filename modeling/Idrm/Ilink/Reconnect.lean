import Idrm.Ilink.RoundTrip

/-!
# Frames across connections

The port handler keeps one static receive context. A lost connection does not touch it,
so the first byte of the next one is taken for whatever the old stream left open.
`startsClean_iff` says when that makes no difference: the old stream has to end between
two frames.
-/

namespace Idrm.Ilink

open Idrm.Lib Option List

/-- The stream of one connection, in the pieces `recv` returns. -/
abbrev Connection := List (List UInt8)

section Connections

variable (malloc : Nat → Option (List UInt8))

/-- The loop of `thread_ilink_port_handler` over connections one after the other: the
deliveries on each of them, and the context, which goes from one to the next as it is. -/
def receiveConnections : List Connection → RecvContext →
    Option (List (List IlinkMessage) × RecvContext)
  | [], ctx => some ([], ctx)
  | connection :: rest, ctx =>
    (handleCloudPackets malloc connection ctx).bind fun received =>
      (receiveConnections rest received.ctx).map fun (later, ctx) =>
        (received.delivered :: later, ctx)

/-- On a connection behind another one, every sequence of frames is delivered as it is on
the first connection of a fresh handler. -/
def StartsClean (old : Connection) : Prop :=
  ∀ (frames : List IlinkMessage) (new : Connection), (∀ msg ∈ frames, Sendable msg) →
    new.flatten = frames.flatMap composeIlinkFrame → ∃ before delivered fresh left,
    receiveConnections malloc [old, new] .zero = some ([before, delivered], left) ∧
    receiveConnections malloc [new] .zero = some ([delivered], fresh) ∧
    List.Forall₂ Carries frames delivered

variable {malloc}

theorem receiveConnections_single {new : Connection} {ctx : RecvContext} {received : Received}
    (handled : handleCloudPackets malloc new ctx = some received) :
    receiveConnections malloc [new] ctx = some ([received.delivered], received.ctx) := by
  rw [receiveConnections, handled]
  rfl

theorem receiveConnections_second {old new : Connection} {ctx : RecvContext} {first : Received}
    (handled : handleCloudPackets malloc old ctx = some first) :
    receiveConnections malloc [old, new] ctx =
      (handleCloudPackets malloc new first.ctx).map fun received =>
        ([first.delivered, received.delivered], received.ctx) := by
  rw [receiveConnections, handled, bind_some]
  cases fed : handleCloudPackets malloc new first.ctx with
  | none => simp [receiveConnections, fed]
  | some received => rw [receiveConnections_single fed, map_some, map_some]

/-! ## Between two frames -/

/-- Between two frames nothing of the context is read. -/
theorem feedBytes_idle {ctx other : RecvContext} (idle : ctx.phase = .notStart)
    (otherIdle : other.phase = .notStart) (bytes : List UInt8) : (feedBytes malloc bytes ctx).map
      Received.delivered = (feedBytes malloc bytes other).map Received.delivered := by
  cases bytes with
  | nil => rfl
  | cons ch rest =>
    have same : onByteArrive malloc ch ctx = onByteArrive malloc ch other := by
      simp only [onByteArrive, idle, otherIdle]
    rw [feedBytes, feedBytes, same]

/-! ## Inside a frame -/

variable {ctx next : RecvContext}

theorem endOfByte_frame {ch : UInt8} {result : Int}
    (ended : endOfByte ch ctx = some (result, next)) :
    next.phase = ctx.phase ∧ next.ilinkMsg = ctx.ilinkMsg := by
  simp only [endOfByte] at ended
  split at ended
  · cases ended
  · simp only [map_eq_some_iff, Prod.mk.injEq] at ended
    obtain ⟨pushed, push, -, rfl⟩ := ended
    obtain ⟨phase, -, -, message⟩ := pushHead_frame push
    exact ⟨phase, message⟩

/-- A completed length opens a body, or ends a frame without one. -/
theorem lengthRecieveDone_inside (succeeds : MallocSucceeds malloc) {result : Int}
    (done : lengthRecieveDone malloc ctx = some (result, next)) :
    next.ilinkMsg.leadingByte = ctx.ilinkMsg.leadingByte ∧
    (result ≠ 0 → next.phase ≠ .notStart) := by
  simp only [lengthRecieveDone] at done
  split at done
  · cases done
  split at done
  · cases done
    exact ⟨rfl, fun incomplete => absurd rfl incomplete⟩
  split at done
  · cases done
    exact ⟨rfl, fun _ => Phase.noConfusion⟩
  obtain ⟨block, allocates, -⟩ := succeeds ctx.msglen.toNat
  rw [allocates] at done
  cases done
  exact ⟨rfl, fun _ => Phase.noConfusion⟩

theorem payloadRecieveDone_leadingByte (done : payloadRecieveDone ctx = some next) :
    next.ilinkMsg.leadingByte = ctx.ilinkMsg.leadingByte := by
  simp only [payloadRecieveDone] at done
  split at done
  · split at done
    · cases done
    split at done
    · cases done
    · cases done
      rfl
  · cases done
    rfl

/-- A byte behind the first of a frame keeps the leading byte. Only a completed message
ends the frame. -/
theorem onByteArrive_inside (succeeds : MallocSucceeds malloc) {ch : UInt8} {result : Int}
    (inside : ctx.phase ≠ .notStart) (arrived : onByteArrive malloc ch ctx = some (result, next)) :
    next.ilinkMsg.leadingByte = ctx.ilinkMsg.leadingByte ∧
    (result ≠ 0 → next.phase ≠ .notStart) := by
  have header : ∀ {shown : RecvContext}, endOfByte ch shown = some (result, next) →
      shown.phase ≠ .notStart → shown.ilinkMsg.leadingByte = ctx.ilinkMsg.leadingByte →
      next.ilinkMsg.leadingByte = ctx.ilinkMsg.leadingByte ∧
      (result ≠ 0 → next.phase ≠ .notStart) := by
    intro shown ended started leading
    obtain ⟨phase, message⟩ := endOfByte_frame ended
    rw [phase, message]
    exact ⟨leading, fun _ => started⟩
  have opened : ∀ {shown : RecvContext},
      (pushHead ch shown).bind (fun ctx => lengthRecieveDone malloc ctx) = some (result, next) →
      shown.ilinkMsg.leadingByte = ctx.ilinkMsg.leadingByte →
      next.ilinkMsg.leadingByte = ctx.ilinkMsg.leadingByte ∧
      (result ≠ 0 → next.phase ≠ .notStart) := by
    intro shown ended leading
    obtain ⟨pushed, push, done⟩ := bind_eq_some_iff.mp ended
    have message := (pushHead_frame push).2.2.2
    rw [← leading, ← message]
    exact lengthRecieveDone_inside succeeds done
  unfold onByteArrive at arrived
  split at arrived
  case h_1 phase => exact absurd phase inside
  case h_2 phase =>
    simp only at arrived
    split at arrived
    · exact header arrived nofun rfl
    · exact header arrived inside rfl
  case h_3 phase =>
    simp only at arrived
    split at arrived
    · exact header arrived nofun rfl
    · exact header arrived inside rfl
  case h_4 phase =>
    simp only at arrived
    split at arrived
    · split at arrived
      · exact header arrived nofun rfl
      · exact opened arrived rfl
    · exact header arrived inside rfl
  case h_5 phase =>
    simp only at arrived
    split at arrived
    · exact opened arrived rfl
    · exact header arrived inside rfl
  case h_6 phase =>
    split at arrived
    · cases arrived
    obtain ⟨block, -, stored⟩ := bind_eq_some_iff.mp arrived
    simp only at stored
    split at stored
    · simp only [map_eq_some_iff, Prod.mk.injEq] at stored
      obtain ⟨done, closed, rfl, rfl⟩ := stored
      have leading := payloadRecieveDone_leadingByte closed
      exact ⟨leading, fun incomplete => absurd rfl incomplete⟩
    · cases stored
      exact ⟨rfl, fun _ => inside⟩

/-- What is delivered first from inside a frame has the leading byte of that frame. -/
theorem feedBytes_inside (succeeds : MallocSucceeds malloc) {bytes : List UInt8} {ctx : RecvContext}
    {received : Received} (inside : ctx.phase ≠ .notStart)
    (fed : feedBytes malloc bytes ctx = some received) {first : IlinkMessage}
    {later : List IlinkMessage} (delivered : received.delivered = first :: later) :
    first.leadingByte = ctx.ilinkMsg.leadingByte := by
  induction bytes generalizing ctx received with
  | nil =>
    cases fed
    cases delivered
  | cons ch rest ih =>
    simp only [feedBytes, bind_eq_some_iff, map_eq_some_iff] at fed
    obtain ⟨⟨result, next⟩, arrived, tail, tailFed, rfl⟩ := fed
    obtain ⟨leading, open_⟩ := onByteArrive_inside succeeds inside arrived
    by_cases complete : result = 0
    · rw [Received.after, if_pos complete] at delivered
      cases delivered
      exact leading
    · rw [Received.after, if_neg complete] at delivered
      exact (ih (open_ complete) tailFed delivered).trans leading

/-! ## The second connection -/

/-- A frame without body, with or without a message id. -/
def bareMessage (hasMid : Bool) : IlinkMessage := { IlinkMessage.zero with hasMid := hasMid }

theorem bareMessage_sendable (hasMid : Bool) : Sendable (bareMessage hasMid) :=
  ⟨fun request => absurd request Bool.false_ne_true, (by decide : (0 : UInt8).toNat < 128),
    .inl rfl, rfl, (by decide : 0 + 0 < 0x8000)⟩

/-- Fed to an idle receiver, it is delivered with its own leading byte. -/
theorem feedBytes_bareMessage (hasMid : Bool) :
    (feedBytes malloc (composeIlinkFrame (bareMessage hasMid)) .zero).map
      (fun received => received.delivered.map (·.leadingByte)) =
        some [if hasMid then fixedcharRespinse else fixedcharNoMsgid] := by
  cases hasMid <;> rfl

variable {old : Connection} {first : Received}

theorem handleCloudPackets_wellFormed (handled : handleCloudPackets malloc old .zero = some first) :
    first.ctx.WellFormed := by
  rw [handleCloudPackets_eq_feedBytes malloc old ⟨_, RecvContext.zero_wellFormed⟩] at handled
  exact feedBytes_wellFormed RecvContext.zero_wellFormed handled

/-- Inside a frame, a connection does not start clean: the first message delivered has
the leading byte of the frame that was left open. -/
theorem StartsClean.idle (succeeds : MallocSucceeds malloc) (clean : StartsClean malloc old)
    (handled : handleCloudPackets malloc old .zero = some first) : first.ctx.phase = .notStart := by
  by_contra inside
  -- A frame whose leading byte is not the one of the frame left open.
  obtain ⟨hasMid, other⟩ : ∃ hasMid : Bool, (if hasMid then fixedcharRespinse
      else fixedcharNoMsgid) ≠ first.ctx.ilinkMsg.leadingByte := by
    by_cases open_ : first.ctx.ilinkMsg.leadingByte = fixedcharNoMsgid
    · refine ⟨true, ?_⟩
      rw [open_]
      decide
    · exact ⟨false, Ne.symm open_⟩
  obtain ⟨before, delivered, fresh, left, second, single, -⟩ :=
    clean [bareMessage hasMid] [composeIlinkFrame (bareMessage hasMid)]
      (fun msg member => mem_singleton.mp member ▸ bareMessage_sendable hasMid) (by simp)
  have flat :
      [composeIlinkFrame (bareMessage hasMid)].flatten = composeIlinkFrame (bareMessage hasMid) :=
    append_nil _
  obtain ⟨fed, alone, expected⟩ := map_eq_some_iff.mp (@feedBytes_bareMessage malloc hasMid)
  rw [← flat, ← handleCloudPackets_eq_feedBytes malloc _ ⟨_, RecvContext.zero_wellFormed⟩] at alone
  rw [receiveConnections_single alone] at single
  cases single
  rw [receiveConnections_second handled] at second
  obtain ⟨received, fedSecond, same⟩ := map_eq_some_iff.mp second
  simp only [Prod.mk.injEq, List.cons.injEq, and_true] at same
  rw [handleCloudPackets_eq_feedBytes malloc _ ⟨_,
    handleCloudPackets_wellFormed handled⟩] at fedSecond
  cases list : fed.delivered with
  | nil =>
    rw [list] at expected
    cases expected
  | cons message rest =>
    rw [list, map_cons, List.cons.injEq] at expected
    have leading := feedBytes_inside succeeds inside fedSecond (same.1.2.trans list)
    exact other (expected.1.symm.trans leading)

/-- Between two frames, a connection starts clean. -/
theorem startsClean_of_idle (succeeds : MallocSucceeds malloc)
    (handled : handleCloudPackets malloc old .zero = some first)
    (idle : first.ctx.phase = .notStart) : StartsClean malloc old := by
  intro frames new sendable stream
  obtain ⟨received, fed, -, carries⟩ := @feedBytes_frameStream malloc succeeds
    (frames.map fun msg => ([], msg)) [] (by simpa using sendable) (by simp) (by simp) .zero rfl
  have bytes : frameStream (frames.map fun msg => ([], msg)) [] = new.flatten := by
    rw [stream, frameStream, append_nil, flatMap_map]
    rfl
  have messages : (frames.map fun msg => (([] : List UInt8), msg)).map (·.2) = frames := by
    rw [List.map_map]
    exact List.map_id frames
  rw [bytes] at fed
  rw [messages] at carries
  have same := @feedBytes_idle malloc _ .zero idle rfl new.flatten
  rw [fed, map_some] at same
  obtain ⟨behind, fedBehind, delivered⟩ := map_eq_some_iff.mp same
  rw [← handleCloudPackets_eq_feedBytes malloc _ ⟨_, RecvContext.zero_wellFormed⟩] at fed
  rw [← handleCloudPackets_eq_feedBytes malloc _ ⟨_,
    handleCloudPackets_wellFormed handled⟩] at fedBehind
  refine ⟨first.delivered, received.delivered, received.ctx, behind.ctx, ?_,
    receiveConnections_single fed, carries⟩
  rw [receiveConnections_second handled, fedBehind, map_some, delivered]

/-- A connection starts clean just when the one before ended between two frames. -/
theorem startsClean_iff (succeeds : MallocSucceeds malloc) (old : Connection) :
    StartsClean malloc old ↔
      ∃ first, handleCloudPackets malloc old .zero = some first ∧ first.ctx.phase = .notStart := by
  constructor
  · intro clean
    obtain ⟨before, delivered, fresh, left, both, -⟩ :=
      clean [] [] (fun msg member => absurd member not_mem_nil) rfl
    rw [receiveConnections] at both
    obtain ⟨first, handled, -⟩ := bind_eq_some_iff.mp both
    exact ⟨first, handled, clean.idle succeeds handled⟩
  · rintro ⟨first, handled, idle⟩
    exact startsClean_of_idle succeeds handled idle

end Connections

/-- A stream that ends behind a whole frame. -/
theorem startsClean_wholeFrame :
    StartsClean mallocZeroed [composeIlinkFrame (bareMessage true)] :=
  (startsClean_iff mallocZeroed_succeeds _).mpr ⟨_, rfl, rfl⟩

/-- A stream that is cut behind the leading byte of a frame: the next connection's frame
is delivered with its own leading byte as the type. -/
theorem startsClean_cut_fails : ¬ StartsClean mallocZeroed [[fixedcharNoMsgid]] := by
  intro clean
  obtain ⟨before, delivered, fresh, left, second, -, carries⟩ :=
    clean [bareMessage false] [composeIlinkFrame (bareMessage false)]
      (fun msg member => mem_singleton.mp member ▸ bareMessage_sendable false) (by simp)
  have shifted : (receiveConnections mallocZeroed [[[fixedcharNoMsgid]],
      [composeIlinkFrame (bareMessage false)]] .zero).map (fun result => result.1.map
      fun messages => messages.map (·.msgType)) = some [[], [0x3A]] := by
    decide
  rw [second, map_some] at shifted
  cases carries with
  | cons head tail =>
    cases tail
    simp only [map_cons, map_nil, Option.some.injEq, List.cons.injEq, and_true] at shifted
    have type := head.msgType
    rw [shifted.2] at type
    exact absurd type (by decide)

end Idrm.Ilink
