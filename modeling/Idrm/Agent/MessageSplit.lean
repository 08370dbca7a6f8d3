import Idrm.Agent.Routing
import Idrm.Ilink.Bodies

/-!
# Where a message is split

The first two bytes of a body with a vheader say where the payload starts, and
`payload_recieve_done` takes them as they are. `handle_ilink_message` looks at the pointers only,
so a message without any body is turned away there, and one whose body is cut in the wrong place is
not.
-/

namespace Idrm.Agent

open Idrm.Lib
open Idrm.Ilink

/-- The checks `handle_ilink_message` makes before it reads the vheader. -/
def refusesUnread (handshakeDone : Bool) (msg : IlinkMessage) : Bool :=
  (decide (msg.msgType ≠ intelIagent) && !handshakeDone) || msg.vheader.isNone

/-- The two lengths of a message divide what was received. -/
structure Splits (body : List UInt8) (msg : IlinkMessage) : Prop where
  leading : 2 ≤ msg.vheaderLen.toNat
  inside : msg.vheaderLen.toNat ≤ body.length
  total : msg.vheaderLen.toNat + msg.payloadLen.toNat = body.length

instance (body : List UInt8) (msg : IlinkMessage) : Decidable (Splits body msg) :=
  decidable_of_iff (2 ≤ msg.vheaderLen.toNat ∧ msg.vheaderLen.toNat ≤ body.length ∧
    msg.vheaderLen.toNat + msg.payloadLen.toNat = body.length) ⟨fun lengths => ⟨lengths.1,
    lengths.2.1, lengths.2.2⟩, fun splits => ⟨splits.leading, splits.inside, splits.total⟩⟩

/-- The body starts with a length of a vheader that lies in it. -/
def Announces (body : List UInt8) : Prop :=
  2 ≤ beNat (body.take 2) ∧ beNat (body.take 2) ≤ body.length

/-- A message turned away unread is dropped with `-1`. -/
theorem handleIlinkMessage_refusesUnread {link : CloudLink}
    {message : CloudMessage} (directory : Devices.Directory)
    (refused : refusesUnread link.handshakeDone message.ilinkMsg = true) :
    handleIlinkMessage link directory message = .ok (.dropped (-1)) := by
  simp only [refusesUnread, Bool.or_eq_true, Bool.and_eq_true, decide_eq_true_eq, Bool.not_eq_true',
    Option.isNone_iff_eq_none] at refused
  unfold handleIlinkMessage
  rcases refused with early | headless
  · rw [if_pos early]
  · rw [if_pos headless, ite_self]

/-! ## Lengths -/

/-- A body of one byte announces nothing that lies in it. -/
theorem Announces.two {body : List UInt8} (announces : Announces body) : 2 ≤ body.length :=
  announces.1.trans announces.2

/-- What stands behind a body of two bytes or more is not looked at. -/
theorem take_body {body : List UInt8} (rest : List UInt8) (two : 2 ≤ body.length) :
    (body ++ rest).take 2 = body.take 2 :=
  List.take_append_of_le_length two

theorem announced_lt (block : List UInt8) : beNat (block.take 2) < 65536 := by
  have bound := beNat_lt (block.take 2)
  have width : (block.take 2).length ≤ 2 := by
    rw [List.length_take]
    exact Nat.min_le_left _ _
  exact bound.trans_le (Nat.pow_le_pow_right (by decide) width)

/-- The first two bytes as a word are the number they stand for. -/
theorem announced_toNat (block : List UInt8) :
    (UInt32.ofNat (beNat (block.take 2))).toNat = beNat (block.take 2) := by
  have bound := announced_lt block
  rw [UInt32.toNat_ofNat']
  exact Nat.mod_eq_of_lt (by omega)

section Split

variable {msg : IlinkMessage} {body rest : List UInt8} {msglen : UInt32}

/-- The lengths divide a body where its first bytes announce a place in it, and nowhere else. -/
theorem splits_iff_announces (length : body.length = msglen.toNat)
    (vheaderLen : msg.vheaderLen = UInt32.ofNat (beNat ((body ++ rest).take 2)))
    (payloadLen : msg.payloadLen = msglen - UInt32.ofNat (beNat ((body ++ rest).take 2))) :
    Splits body msg ↔ Announces body := by
  have front := announced_toNat (body ++ rest)
  constructor
  · rintro ⟨leading, inside, -⟩
    rw [vheaderLen, front] at leading inside
    have two : 2 ≤ body.length := leading.trans inside
    rw [take_body rest two] at leading inside
    exact ⟨leading, inside⟩
  · intro announces
    have seen := take_body rest announces.two
    obtain ⟨leading, inside⟩ := announces
    rw [seen] at front vheaderLen payloadLen
    have cut : msg.payloadLen.toNat = body.length - beNat (body.take 2) := by
      have whole : UInt32.ofNat (beNat (body.take 2)) ≤ msglen := by
        rw [UInt32.le_iff_toNat_le, front, ← length]
        exact inside
      rw [payloadLen, UInt32.toNat_sub_of_le _ _ whole, front, ← length]
    refine ⟨?_, ?_, ?_⟩
    · rw [vheaderLen, front]
      exact leading
    · rw [vheaderLen, front]
      exact inside
    · rw [cut, vheaderLen, front]
      exact Nat.add_sub_cancel' inside

end Split

/-! ## Every message of every run -/

section Run

variable {malloc : Nat → Option (List UInt8)}

/-- A completed message with a vheader is divided, or turned away unread, in these cases only. -/
theorem splits_iff_of_completed {completion : Completion}
    (completed : Completed completion.taken completion.ctx)
    (announced : completion.ctx.ilinkMsg.hasVheader = true) (handshakeDone : Bool) :
    Splits completion.body completion.ctx.ilinkMsg ∨
    refusesUnread handshakeDone completion.ctx.ilinkMsg = true ↔
    completion.body = [] ∨ (completion.ctx.ilinkMsg.msgType ≠ intelIagent ∧ handshakeDone = false) ∨
    Announces completion.body := by
  obtain ⟨before, body, taken, length, headless, split⟩ := completed.body
  rw [Completed.body_eq taken length]
  simp only [refusesUnread, Bool.or_eq_true, Bool.and_eq_true, decide_eq_true_eq, Bool.not_eq_true',
    Option.isNone_iff_eq_none]
  by_cases empty : body = []
  · exact iff_of_true (.inr (.inr (headless empty))) (.inl empty)
  · obtain ⟨rest, -, vheader, vheaderLen, payloadLen⟩ := split empty announced
    rw [splits_iff_announces length vheaderLen payloadLen, vheader]
    simp only [empty, reduceCtorEq, or_false, false_or]
    exact Or.comm

/-- Whatever is received, in whatever chunks: the receiver takes it all, and of each message it
hands on whose type byte announces a vheader, the two lengths divide what was received, or the
message is turned away unread, exactly where its body is empty, where the handshake still bars it,
or where its first two bytes announce a length from two to that of the body. -/
theorem handleCloudPackets_splits_iff (fits : MallocFits malloc) (chunks : List (List UInt8)) :
    ∃ received done, handleCloudPackets malloc chunks .zero = some received ∧
    completions malloc [] chunks.flatten .zero = some done ∧
    received.delivered = done.map (·.ctx.ilinkMsg) ∧
    ∀ completion ∈ done, completion.body.length = completion.ctx.msglen.toNat ∧
    (completion.ctx.ilinkMsg.hasVheader = true → ∀ handshakeDone,
      (Splits completion.body completion.ctx.ilinkMsg ∨
      refusesUnread handshakeDone completion.ctx.ilinkMsg = true ↔ completion.body = [] ∨
      (completion.ctx.ilinkMsg.msgType ≠ intelIagent ∧ handshakeDone = false) ∨
      Announces completion.body)) := by
  have takes : Takes [] .zero := trivial
  obtain ⟨done, completes, all⟩ :=
    completions_completed fits chunks.flatten RecvContext.zero_wellFormed takes
  have delivered : (completions malloc [] chunks.flatten .zero).map (·.map (·.ctx.ilinkMsg)) =
      (feedBytes malloc chunks.flatten .zero).map (·.delivered) :=
    completions_delivered chunks.flatten
  rw [completes, Option.map_some, eq_comm, Option.map_eq_some_iff] at delivered
  obtain ⟨received, fed, messages⟩ := delivered
  refine ⟨received, done, ?_, completes, messages,
    fun completion member => ⟨?_, fun announced handshakeDone => ?_⟩⟩
  · exact (handleCloudPackets_eq_feedBytes malloc chunks ⟨.zero, RecvContext.zero_wellFormed⟩).trans
      fed
  · obtain ⟨before, body, taken, length, -⟩ := (all completion member).body
    rw [Completed.body_eq taken length]
    exact length
  · exact splits_iff_of_completed (all completion member) announced handshakeDone

/-- A frame of the agent's own type whose body of two bytes announces a vheader of sixteen. -/
def overlongVheader : List UInt8 := [0xBA, 0x84, 0x00, 0x02, 0x00, 0x10]

theorem mallocZeroed_fits : MallocFits mallocZeroed := by
  intro size block allocated
  cases allocated
  exact List.length_replicate.ge

theorem handleCloudPackets_splits_iff_overlong :
    ∃ done, completions mallocZeroed [] [overlongVheader].flatten .zero = some done ∧
    ∀ completion ∈ done, completion.ctx.ilinkMsg.hasVheader = true →
    (Splits completion.body completion.ctx.ilinkMsg ∨ refusesUnread true completion.ctx.ilinkMsg =
      true ↔ completion.body = [] ∨ (completion.ctx.ilinkMsg.msgType ≠ intelIagent ∧ true = false) ∨
      Announces completion.body) := by
  obtain ⟨received, done, -, completes, -, all⟩ :=
    handleCloudPackets_splits_iff mallocZeroed_fits [overlongVheader]
  exact ⟨done, completes, fun completion member announced =>
    (all completion member).2 announced true⟩

/-- It is handed on with a vheader of sixteen bytes and a payload of almost four gigabytes. -/
theorem handleCloudPackets_overlong_fails :
    (completions mallocZeroed [] overlongVheader .zero).any (fun done => done.any fun completion =>
      completion.ctx.ilinkMsg.hasVheader && !decide (Splits completion.body
        completion.ctx.ilinkMsg) && !refusesUnread true completion.ctx.ilinkMsg) = true := by
  decide +kernel

end Run

end Idrm.Agent
