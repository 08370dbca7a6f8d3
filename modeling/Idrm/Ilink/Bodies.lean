import Idrm.Ilink.RoundTrip

/-!
# The bodies a receiver takes

Whatever bytes arrive, the receiver never stops on an assertion or outside its blocks as long as
`malloc` gives the room it was asked for, and the bytes of a message's body are the last ones
taken when the message is completed. `Takes` is the invariant of one byte and
`completions_completed` the run.
-/

namespace Idrm.Ilink

open Idrm.Lib Option
open List hiding map_map

/-- `malloc` gives a block of at least the size asked for, or fails. -/
def MallocFits (malloc : Nat → Option (List UInt8)) : Prop :=
  ∀ size block, malloc size = some block → size ≤ block.length

/-- The header bytes that can still follow those of a phase. -/
def headLeft : Phase → Nat
  | .inMid => 5
  | .inType => 4
  | .inBaseLen => 2
  | _ => 0

/-- In the header: the head buffer has room for the bytes still to come, `pending` of which are
taken and not yet stored, and the message has no body yet. -/
structure FrontRoom (pending : Nat) (ctx : RecvContext) : Prop where
  headSize : ctx.headBuff.length = 10
  noPayload : ctx.ilinkMsg.payload = none
  noVheader : ctx.ilinkMsg.vheader = none
  expects : 0 < ctx.phaseLen
  room : (ctx.offset : Int) + pending + ctx.phaseLen + headLeft ctx.phase ≤ 10

/-- In the body: the block starts with the bytes taken last, and has room for the others. -/
structure BodyTaken (taken : List UInt8) (ctx : RecvContext) : Prop where
  block : ∃ before body rest, taken = before ++ body ∧ ctx.ilinkMsg.payload = some (body ++ rest) ∧
    body.length = ctx.offset ∧ ctx.msglen.toNat ≤ (body ++ rest).length ∧ 2 ≤ (body ++ rest).length
  noVheader : ctx.ilinkMsg.vheader = none
  payloadLenIs : ctx.ilinkMsg.payloadLen = ctx.msglen
  expects : 0 < ctx.phaseLen
  lengthIs : (ctx.offset : Int) + ctx.phaseLen = ctx.msglen.toNat

/-- What holds between two bytes, `taken` being all the bytes so far. -/
def Takes (taken : List UInt8) (ctx : RecvContext) : Prop :=
  match ctx.phase with
  | .notStart => True
  | .inPayload => BodyTaken taken ctx
  | _ => FrontRoom 0 ctx

/-- A completed message: its body is what was taken last, and its lengths and pointers are as the
receiver leaves them. -/
structure Completed (taken : List UInt8) (ctx : RecvContext) : Prop where
  body : ∃ before body, taken = before ++ body ∧ body.length = ctx.msglen.toNat ∧
    (body = [] → ctx.ilinkMsg.vheader = none) ∧
    (body ≠ [] → ctx.ilinkMsg.hasVheader = true → ∃ rest, 2 ≤ (body ++ rest).length ∧
      ctx.ilinkMsg.vheader = some (body ++ rest) ∧
      ctx.ilinkMsg.vheaderLen = UInt32.ofNat (beNat ((body ++ rest).take 2)) ∧
      ctx.ilinkMsg.payloadLen = ctx.msglen - UInt32.ofNat (beNat ((body ++ rest).take 2)))

section Receiver

variable {malloc : Nat → Option (List UInt8)} {taken : List UInt8} {ctx : RecvContext} {ch : UInt8}

theorem Takes.front (takes : Takes taken ctx) (started : ctx.phase ≠ .notStart)
    (header : ctx.phase ≠ .inPayload) : FrontRoom 0 ctx := by
  cases phase : ctx.phase <;> simp_all [Takes]

theorem FrontRoom.takes {pending : Nat} (front : FrontRoom pending ctx)
    (header : ctx.phase ≠ .inPayload) : Takes taken ctx := by
  obtain ⟨headSize, noPayload, noVheader, expects, room⟩ := front
  have settled : FrontRoom 0 ctx :=
    ⟨headSize, noPayload, noVheader, expects, by simp only [Nat.cast_zero]; omega⟩
  cases phase : ctx.phase <;> simp_all [Takes]

/-! ## One byte -/

/-- The byte a header phase ends with has its place in the head buffer. -/
theorem FrontRoom.pushHead (front : FrontRoom 1 ctx) : pushHead ch ctx =
      some { ctx with headBuff := ctx.headBuff.set ctx.offset ch, offset := ctx.offset + 1 } := by
  have expects := front.expects
  have room := front.room
  have size := front.headSize
  exact pushHead_room (by omega)

theorem FrontRoom.endOfByte (front : FrontRoom 1 ctx) (header : ctx.phase ≠ .inPayload) :
    ∃ next, endOfByte ch ctx = some (1, next) ∧ Takes taken next := by
  refine ⟨_, by rw [Ilink.endOfByte, if_neg header, front.pushHead]; rfl, ?_⟩
  have settled : FrontRoom 0
      ({ ctx with headBuff := ctx.headBuff.set ctx.offset ch, offset := ctx.offset + 1 } :
      RecvContext) := by
    refine ⟨?_, front.noPayload, front.noVheader, front.expects, ?_⟩
    · rw [length_set]
      exact front.headSize
    · have room := front.room
      simp only [Nat.cast_add, Nat.cast_one, Nat.cast_zero] at room ⊢
      omega
  exact settled.takes header

/-- A complete length field opens a body in a block that holds it, completes a message without a
body, or finds no memory. -/
theorem lengthRecieveDone_takes (fits : MallocFits malloc) (noPayload : ctx.ilinkMsg.payload = none)
    (noVheader : ctx.ilinkMsg.vheader = none) (small : ctx.msglen.toNat < 2 ^ 31) :
    ∃ result next, lengthRecieveDone malloc ctx = some (result, next) ∧ Takes taken next ∧
      (result = 0 → Completed taken next) := by
  have positive := toInt32_toInt small
  simp only [lengthRecieveDone, noPayload, ne_eq, not_true_eq_false, if_false]
  by_cases empty : ctx.msglen = 0
  · rw [if_pos empty]
    refine ⟨_, _, rfl, trivial, fun _ => ⟨taken, [], (append_nil _).symm, ?_, fun _ => noVheader,
      fun some => absurd rfl some⟩⟩
    rw [empty]
    rfl
  have some : ctx.msglen.toNat ≠ 0 := fun zero => empty (UInt32.toNat_inj.mp zero)
  rw [if_neg empty]
  by_cases inline : ctx.msglen.toNat < bufferSize
  · rw [if_pos inline]
    have sizes : (bufferSize : Nat) = 1024 := rfl
    refine ⟨_, _, rfl, ⟨⟨taken, [], List.replicate bufferSize 0, (append_nil _).symm, rfl, rfl, ?_,
      ?_⟩, noVheader, rfl, ?_, ?_⟩, fun result => absurd result (by decide)⟩
    · rw [nil_append, length_replicate]
      exact Nat.le_of_lt inline
    · rw [nil_append, length_replicate]
      decide
    · simp only
      omega
    · simp only
      omega
  · rw [if_neg inline]
    cases allocated : malloc ctx.msglen.toNat with
    | none => exact ⟨_, _, rfl, trivial, fun result => absurd result (by decide)⟩
    | some block =>
      have room := fits _ _ allocated
      have sizes : (bufferSize : Nat) = 1024 := rfl
      refine ⟨_, _, rfl, ⟨⟨taken, [], block, (append_nil _).symm, rfl, rfl, room, ?_⟩, noVheader,
        rfl, ?_, ?_⟩, fun result => absurd result (by decide)⟩
      · rw [nil_append]
        omega
      · simp only
        omega
      · simp only
        omega

/-- A body byte goes behind the ones before it; the last one completes the message. -/
theorem onByteArrive_takesBody (body : BodyTaken taken ctx) (phase : ctx.phase = .inPayload) :
    ∃ result next, onByteArrive malloc ch ctx = some (result, next) ∧ Takes (taken ++ [ch]) next ∧
      (result = 0 → Completed (taken ++ [ch]) next) := by
  obtain ⟨⟨before, front, rest, taken_, payload, frontLength, fits, two⟩, noVheader, payloadLen,
    expects, length⟩ := body
  rw [onByteArrive_body phase payload]
  obtain ⟨next, others, rfl⟩ : ∃ next others, rest = next :: others := by
    refine exists_cons_of_length_pos ?_
    rw [length_append] at fits
    omega
  have stored :
      store (front ++ next :: others) ctx.offset ch = some ((front ++ [ch]) ++ others) := by
    rw [store, if_pos (by rw [← frontLength, length_append, length_cons]; omega), ← frontLength]
    simp
  have sizes : ((front ++ [ch]) ++ others).length = (front ++ next :: others).length := by simp
  have followed : taken ++ [ch] = before ++ (front ++ [ch]) := by rw [taken_, append_assoc]
  have longer : (front ++ [ch]).length = ctx.offset + 1 := by rw [length_append, frontLength]; rfl
  rw [stored, bind_some]
  by_cases last : ctx.phaseLen - 1 = 0
  · rw [if_pos last]
    cases flag : ctx.ilinkMsg.hasVheader with
    | false =>
      refine ⟨0, _, by
        simp only [payloadRecieveDone, flag, Bool.false_eq_true, if_false]
        rfl, by trivial, fun _ => ?_⟩
      refine ⟨before, front ++ [ch], followed, ?_, fun nothing => by simp at nothing,
        fun _ announced => ?_⟩
      · rw [longer]
        simp only
        omega
      · simp only [Bool.false_eq_true] at announced
    | true =>
      refine ⟨0, _, by
        simp only [payloadRecieveDone, flag, if_true, sizes, Nat.not_lt.mpr two, if_false]
        rfl, by trivial, fun _ => ?_⟩
      refine ⟨before, front ++ [ch], followed, ?_, fun nothing => by simp at nothing,
        fun _ _ => ⟨others, ?_, rfl, rfl, ?_⟩⟩
      · rw [longer]
        simp only
        omega
      · rw [sizes]
        exact two
      · simp only [payloadLen]
  · rw [if_neg last]
    refine ⟨2, _, rfl, ?_, fun result => absurd result (by decide)⟩
    simp only [Takes, phase]
    refine ⟨⟨before, front ++ [ch], others, followed, rfl, longer, ?_, ?_⟩, noVheader,
      payloadLen, ?_, ?_⟩
    · rw [sizes]
      exact fits
    · rw [sizes]
      exact two
    · simp only
      omega
    · simp only [Nat.cast_add, Nat.cast_one]
      omega

/-- No byte stops the receiver, and a completed message has its body from the bytes taken. -/
theorem onByteArrive_takes (ch : UInt8) (fits : MallocFits malloc) (wellFormed : ctx.WellFormed)
    (takes : Takes taken ctx) :
    ∃ result next, onByteArrive malloc ch ctx = some (result, next) ∧ Takes (taken ++ [ch]) next ∧
    (result = 0 → Completed (taken ++ [ch]) next) := by
  -- A header byte which leaves the receiver in the header.
  have header : ∀ {shown : RecvContext}, FrontRoom 1 shown → shown.phase ≠ .inPayload →
      ∃ result next, endOfByte ch shown = some (result, next) ∧ Takes (taken ++ [ch]) next ∧
        (result = 0 → Completed (taken ++ [ch]) next) := by
    intro shown front phase
    have stays : ∃ next, endOfByte ch shown = some (1, next) ∧ Takes (taken ++ [ch]) next :=
      front.endOfByte phase
    obtain ⟨next, ended, takesNext⟩ := stays
    exact ⟨1, next, ended, takesNext, fun result => absurd result (by decide)⟩
  -- The last byte of a length field.
  have opened : ∀ {shown : RecvContext}, shown.headBuff.length = 10 →
      shown.offset < 10 → shown.ilinkMsg.payload = none →
      shown.ilinkMsg.vheader = none → shown.msglen.toNat < 2 ^ 31 → ∃ result next,
      (pushHead ch shown).bind (fun ctx => lengthRecieveDone malloc ctx) = some (result, next) ∧
      Takes (taken ++ [ch]) next ∧ (result = 0 → Completed (taken ++ [ch]) next) := by
    intro shown headSize inside noPayload noVheader small
    rw [pushHead_room (by rw [headSize]; exact inside), bind_some]
    exact lengthRecieveDone_takes fits noPayload noVheader small
  cases phase : ctx.phase with
  | notStart =>
    simp only [onByteArrive, phase]
    split
    · exact header ⟨length_replicate, rfl,
        rfl, by simp, by simp [RecvContext.zero, headLeft]⟩ (by simp)
    split
    · exact header ⟨length_replicate, rfl,
        rfl, by simp, by simp [RecvContext.zero, headLeft]⟩ (by simp)
    · exact ⟨1, _, rfl, trivial, fun result => absurd result (by decide)⟩
  | inMid =>
    obtain ⟨headSize, noPayload, noVheader, expects, room⟩ :=
      takes.front (by simp [phase]) (by simp [phase])
    simp only [phase, headLeft] at room
    simp only [onByteArrive, phase]
    split
    · exact header ⟨headSize, noPayload, noVheader, by simp, by simp only [headLeft]; omega⟩
        (by simp)
    · exact header ⟨headSize, noPayload,
        noVheader, by simp only; omega, by simp only [headLeft]; omega⟩ (by simp)
  | inType =>
    obtain ⟨headSize, noPayload, noVheader, expects, room⟩ :=
      takes.front (by simp [phase]) (by simp [phase])
    simp only [phase, headLeft] at room
    simp only [onByteArrive, phase]
    split
    · exact header ⟨headSize, noPayload, noVheader, by simp, by simp only [headLeft]; omega⟩
        (by simp)
    · exact header ⟨headSize, noPayload,
        noVheader, by simp only; omega, by simp only [headLeft]; omega⟩ (by simp)
  | inBaseLen =>
    obtain ⟨headSize, noPayload, noVheader, expects, room⟩ :=
      takes.front (by simp [phase]) (by simp [phase])
    simp only [phase, headLeft] at room
    have field : (ctx.phaseLen = 2 ∧ ctx.msglen = 0) ∨
        (ctx.phaseLen = 1 ∧ ctx.msglen.toNat < 256) := by
      simpa [RecvContext.WellFormed, phase] using wellFormed
    have shifted := shiftInByte_toNat ctx.msglen ch
    have byteBound := ch.toNat_lt
    simp only [onByteArrive, phase]
    split
    · split
      · exact header ⟨headSize, noPayload, noVheader, by simp, by simp only [headLeft]; omega⟩
          (by simp)
      · refine opened headSize (by simp only; omega) noPayload noVheader ?_
        simp only
        omega
    · exact header ⟨headSize, noPayload,
        noVheader, by simp only; omega, by simp only [headLeft]; omega⟩ (by simp)
  | inExtLen =>
    obtain ⟨headSize, noPayload, noVheader, expects, room⟩ :=
      takes.front (by simp [phase]) (by simp [phase])
    simp only [phase, headLeft] at room
    simp only [onByteArrive, phase]
    split
    · exact opened headSize (by simp only; omega) noPayload noVheader (extendedLength_lt _ _)
    · exact header ⟨headSize, noPayload,
        noVheader, by simp only; omega, by simp only [headLeft]; omega⟩ (by simp)
  | inPayload => exact onByteArrive_takesBody (by simpa [Takes, phase] using takes) phase

/-! ## Whole runs -/

/-- A completed message, as `handle_ilink_message` is called with it: the bytes taken so far and
the context. -/
structure Completion where
  taken : List UInt8
  ctx : RecvContext

/-- The body of a completed message: as many of the bytes taken last as its length says. -/
def Completion.body (completion : Completion) : List UInt8 :=
  completion.taken.drop (completion.taken.length - completion.ctx.msglen.toNat)

/-- The messages a stream completes, `taken` being the bytes before it. -/
def completions (malloc : Nat → Option (List UInt8)) : List UInt8 → List UInt8 → RecvContext →
    Option (List Completion)
  | _, [], _ => some []
  | taken, ch :: rest, ctx =>
    (onByteArrive malloc ch ctx).bind fun (result, ctx) =>
      (completions malloc (taken ++ [ch]) rest ctx).map
        ((if result = 0 then [⟨taken ++ [ch], ctx⟩] else []) ++ ·)

/-- They are the messages delivered. -/
theorem completions_delivered (bytes : List UInt8) : (completions malloc taken bytes ctx).map
      (·.map (·.ctx.ilinkMsg)) = (feedBytes malloc bytes ctx).map (·.delivered) := by
  induction bytes generalizing taken ctx with
  | nil => rfl
  | cons ch rest ih =>
    rw [completions, feedBytes]
    cases arrived : onByteArrive malloc ch ctx with
    | none => rfl
    | some outcome =>
      obtain ⟨result, next⟩ := outcome
      have later : (completions malloc (taken ++ [ch]) rest next).map (·.map (·.ctx.ilinkMsg)) =
          (feedBytes malloc rest next).map (·.delivered) :=
        ih
      simp only [bind_some, map_map]
      cases fed : feedBytes malloc rest next with
      | none =>
        rw [fed, map_none, map_eq_none_iff] at later
        rw [later]
        rfl
      | some received =>
        rw [fed, map_some, map_eq_some_iff] at later
        obtain ⟨done, completed, messages⟩ := later
        rw [completed]
        by_cases finished : result = 0
        · simp [finished, Received.after, messages]
        · simp [finished, Received.after, messages]

/-- Whatever arrives, the run goes on, and every message it completes has its body from the bytes
taken. -/
theorem completions_completed (fits : MallocFits malloc)
    (bytes : List UInt8) (wellFormed : ctx.WellFormed) (takes : Takes taken ctx) :
    ∃ done, completions malloc taken bytes ctx = some done ∧ ∀ completion ∈ done,
    Completed completion.taken completion.ctx := by
  induction bytes generalizing taken ctx with
  | nil => exact ⟨[], rfl, by simp⟩
  | cons ch rest ih =>
    obtain ⟨result, next, arrived, takesNext, completed⟩ :=
      onByteArrive_takes ch fits wellFormed takes
    obtain ⟨done, completes, all⟩ := ih (onByteArrive_wellFormed wellFormed arrived).1 takesNext
    refine ⟨_, by rw [completions, arrived]; simp only [bind_some, completes]; rfl,
      fun completion member => ?_⟩
    rcases mem_append.mp member with first | later
    · split at first
      · rename_i finished
        obtain rfl := mem_singleton.mp first
        exact completed finished
      · cases first
    · exact all completion later

/-- The body of a completion is what its context says it is. -/
theorem Completed.body_eq {completion : Completion}
    {before body : List UInt8} (taken : completion.taken = before ++ body)
    (length : body.length = completion.ctx.msglen.toNat) : completion.body = body := by
  rw [Completion.body, taken, ← length, length_append, Nat.add_sub_cancel, drop_left]

end Receiver

end Idrm.Ilink
