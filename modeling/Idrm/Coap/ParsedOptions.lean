import Idrm.Coap.OverTcp
import Idrm.Coap.OverUdp

/-!
# What the option loop keeps

`parseOptionsLoop_keeps` is the invariant rule of the option loop: what one option keeps,
both parsers keep. Block options are the instance here, their numbers have 28 bits.
-/

namespace Idrm.Coap

open Idrm.Lib Option

/-- The packet of an option loop that refused none of its options. -/
def OptionsEnd.packet {S : Type} : OptionsEnd S → Option (CoapPacket S)
  | .refused _ => none
  | .complete packet => some packet
  | .marker packet _ => some packet

section Keeps

variable {S : Type} {mode : StringMode S} {holds : CoapPacket S → Prop}

/-- What every option keeps, and the bit set for it, the loop keeps. -/
theorem parseOptionsLoop_keeps (numbered : ∀ number < optionMapBits, ∀ packet, holds packet →
      holds { packet with options := insert number packet.options })
    (sets : ∀ {option data offset length packet moved set},
      parseOption mode option data offset length packet = some (.inr (moved, set)) →
      holds packet → holds set) {fuel : Nat} {data moved : List UInt8}
    {current number : Nat} {packet final : CoapPacket S} {ended : OptionsEnd S}
    (parses : parseOptionsLoop mode fuel data current number packet = some (moved, ended))
    (initially : holds packet) (ends : ended.packet = some final) : holds final := by
  induction fuel generalizing data current number packet with
  | zero => cases parses
  | succ fuel ih =>
    rw [parseOptionsLoop] at parses
    cases byte : data[current]? with
    | none =>
      rw [byte] at parses
      obtain ⟨rfl, rfl⟩ := Prod.mk.inj (some.inj parses)
      exact some.inj ends ▸ initially
    | some first =>
      simp only [byte] at parses
      split at parses
      · obtain ⟨rfl, rfl⟩ := Prod.mk.inj (some.inj parses)
        exact some.inj ends ▸ initially
      · obtain ⟨⟨delta, offset⟩, -, parses⟩ := bind_eq_some_iff.mp parses
        obtain ⟨⟨length, behind⟩, -, parses⟩ := bind_eq_some_iff.mp parses
        simp only at parses
        split at parses
        · cases parses
        · rename_i below
          have recorded := numbered (number + delta) (by omega) packet initially
          split at parses
          · split at parses
            · obtain ⟨rfl, rfl⟩ := Prod.mk.inj (some.inj parses)
              cases ends
            · exact ih parses recorded
          · obtain ⟨result, parsed, parses⟩ := bind_eq_some_iff.mp parses
            cases result with
            | inl status =>
              obtain ⟨rfl, rfl⟩ := Prod.mk.inj (some.inj parses)
              cases ends
            | inr result => exact ih parses (sets parsed recorded)

/-- What the option loop keeps holds of a parsed packet, if header and payload do not matter. -/
theorem parseBody_keeps {holds : CoapPacket BufRef → Prop} (numbered : ∀ number < optionMapBits,
      ∀ packet, holds packet → holds { packet with options := insert number packet.options })
    (sets : ∀ {option data offset length packet moved set}, parseOption inPlace
      option data offset length packet = some (.inr (moved, set)) → holds packet → holds set)
    (payload : ∀ payload packet, holds packet → holds (packet.withPayload payload))
    {payloadLen : Nat → Nat}
    {data : List UInt8} {current : Nat} {header : Header} {parsed : List UInt8 × CoapPacket BufRef}
    (parses : parseBody payloadLen data current header = some (.ok parsed))
    (initially : holds (header.packet inPlace.null)) : holds parsed.2 := by
  obtain ⟨⟨moved, ended⟩, loops, ends⟩ := map_eq_some_iff.mp parses
  cases ended with
  | refused status => cases ends
  | complete packet =>
    obtain rfl := Except.ok.inj ends
    exact parseOptionsLoop_keeps numbered sets loops initially rfl
  | marker packet start =>
    obtain rfl := Except.ok.inj ends
    exact payload _ _ (parseOptionsLoop_keeps numbered sets loops initially rfl)

end Keeps

/-! ## Block numbers -/

theorem parseBlock_num_lt (value : UInt32) : (parseBlock value).num.toNat < 2 ^ 28 := by
  have bound := value.toNat_lt
  show (value >>> 4).toNat < 2 ^ 28
  rw [UInt32.toNat_shiftRight, show (4 : UInt32).toNat % 32 = 4 from rfl, Nat.shiftRight_eq_div_pow]
  omega

/-- An option sets the block number of a packet to one of 28 bits, if it does set it. -/
theorem parseOption_block2 {S : Type} {mode : StringMode S} {option : CoapOption}
    {data moved : List UInt8} {offset length : Nat} {packet set : CoapPacket S}
    (parses : parseOption mode option data offset length packet = some (.inr (moved, set)))
    (before : packet.block2.num.toNat < 2 ^ 28) : set.block2.num.toNat < 2 ^ 28 := by
  cases option <;> simp only [parseOption, map_eq_some_iff, Option.some.injEq, reduceCtorEq,
    Sum.inr.injEq, Prod.mk.injEq] at parses
  all_goals try (obtain ⟨_, -, -, rfl⟩ := parses)
  all_goals first | exact before | exact parseBlock_num_lt _

variable {parsed : List UInt8 × CoapPacket BufRef} {data : List UInt8}

theorem parseBody_block2 {payloadLen : Nat → Nat} {current : Nat}
    {header : Header} (parses : parseBody payloadLen data current header = some (.ok parsed)) :
    parsed.2.block2.num.toNat < 2 ^ 28 :=
  parseBody_keeps (fun _ _ _ bound => bound) parseOption_block2 (fun _ _ bound => bound) parses
    (show (0 : UInt32).toNat < 2 ^ 28 by decide)

theorem coapParseMessage_block2 (parses : coapParseMessage data = some (.ok parsed)) :
    (received parsed).block2.num.toNat < 2 ^ 28 := by
  unfold coapParseMessage at parses
  split at parses
  · cases parses
  obtain ⟨first, -, parses⟩ := bind_eq_some_iff.mp parses
  obtain ⟨code, -, parses⟩ := bind_eq_some_iff.mp parses
  obtain ⟨high, -, parses⟩ := bind_eq_some_iff.mp parses
  obtain ⟨low, -, parses⟩ := bind_eq_some_iff.mp parses
  simp only at parses
  split at parses
  · cases parses
  obtain ⟨token, -, parses⟩ := bind_eq_some_iff.mp parses
  obtain ⟨body, found, terminated⟩ := map_eq_some_iff.mp parses
  cases body with
  | error status => cases terminated
  | ok body =>
    obtain rfl := Except.ok.inj terminated
    have bound := parseBody_block2 found
    exact bound

theorem coapParseMessageTcp_block2 (parses : coapParseMessageTcp data = some (.ok parsed)) :
    (received parsed).block2.num.toNat < 2 ^ 28 := by
  unfold coapParseMessageTcp at parses
  split at parses
  · cases parses
  obtain ⟨first, -, parses⟩ := bind_eq_some_iff.mp parses
  obtain ⟨size, -, parses⟩ := bind_eq_some_iff.mp parses
  simp only at parses
  split at parses
  · cases parses
  obtain ⟨code, -, parses⟩ := bind_eq_some_iff.mp parses
  obtain ⟨token, -, parses⟩ := bind_eq_some_iff.mp parses
  exact parseBody_block2 parses

end Idrm.Coap
