import Idrm.Coap.Message

/-!
# What is written of the options

The options of a packet are written in the order of their numbers,
  whatever strings it has. The parser
takes the whole sequence, unless there is a Proxy option in it.
-/

namespace Idrm.Coap

open Idrm.Lib List

/-! ## The sequence parsed -/

section Parsed

variable {sent : Packet} {data tail : List UInt8} {current : Nat}

/-- Only Proxy options are not supported. -/
theorem unsupported_proxy {option : CoapOption} (unsupported : option.supported = false) :
    option = .proxyUri ∨ option = .proxyScheme := by
  cases option <;> first | exact .inl rfl | exact .inr rfl | cases unsupported

/-- Options do not touch the payload. -/
theorem payload_acceptEntries (entries : List (CoapOption × List UInt8)) (packet : Packet) :
    (entries.foldl acceptEntry packet).payload = packet.payload := by
  induction entries generalizing packet with
  | nil => rfl
  | cons entry rest ih =>
    refine (ih _).trans ?_
    obtain ⟨option, value⟩ := entry
    cases option <;> rfl

/-- Without a Proxy option, the loop takes the options and goes on behind them. -/
theorem parseOptions_supported (supported : ∀ entry ∈ writtenOptions sent, entry.1.supported = true)
    (here : data.drop current = serializeOptions sent ++ tail) (inside : current ≤ data.length)
    (small : (serializeOptions sent).length < 65536) (start : Packet) : ∃ fuel number packet,
    packet.payload = start.payload ∧ parseOptions byValue data current start = parseOptionsLoop
      byValue (fuel + 1) data (current + (serializeOptions sent).length) number packet := by
  have ascending : Ascending 0 (writtenOptions sent) :=
    ⟨fun _ _ => Nat.zero_le _, writtenOptions_ordered sent, supported, writtenOptions_short small⟩
  rw [serializeOptions_written] at here ⊢
  obtain ⟨fuel, taken⟩ := parseOptions_entries here inside ascending start
  exact ⟨fuel, _, _, payload_acceptEntries _ start, taken⟩

theorem lastNumber_le {number bound : Nat}
    {entries : List (CoapOption × List UInt8)} (start : number ≤ bound)
    (below : ∀ entry ∈ entries, entry.1.number ≤ bound) : lastNumber number entries ≤ bound := by
  induction entries generalizing number with
  | nil => exact start
  | cons entry rest ih =>
    obtain ⟨first, others⟩ := forall_mem_cons.mp below
    exact ih first others

/-- The first Proxy option is refused. -/
theorem parseOptions_unsupported {entry : CoapOption × List UInt8}
    (member : entry ∈ writtenOptions sent) (unsupported : entry.1.supported = false)
    (here : data.drop current = serializeOptions sent ++ tail) (inside : current ≤ data.length)
    (small : (serializeOptions sent).length < 65536) (start : Packet) :
    parseOptions byValue data current start = some (data, .refused proxyingNotSupported505) := by
  obtain ⟨first, found⟩ :
      ∃ first, (writtenOptions sent).find? (fun entry => !entry.1.supported) = some first := by
    rw [← Option.isSome_iff_exists, List.find?_isSome]
    exact ⟨entry, member, by rw [unsupported]; rfl⟩
  obtain ⟨refused, front, back, split, before⟩ := List.find?_eq_some_iff_append.mp found
  obtain ⟨option, value⟩ := first
  have isProxy : option.supported = false := by simpa using refused
  have ordered := writtenOptions_ordered sent
  have short := writtenOptions_short small
  rw [serializeOptions_written, split] at here
  rw [split] at ordered short
  rw [encodeOptions_append, append_assoc] at here
  have ascending : Ascending 0 front := by
    refine ⟨fun _ _ => Nat.zero_le _, (pairwise_append.mp ordered).1, fun entry earlier => ?_,
      fun entry earlier => ?_⟩
    · simpa using before entry earlier
    · exact short entry (mem_append_left _ earlier)
  have behind : data.drop (current + (encodeOptions 0 front).length) =
      coapSetOptionHeader (option.number - lastNumber 0 front) value.length ++ value ++
      (encodeOptions option.number back ++ tail) := by
    rw [← drop_drop, here, drop_left, encodeOptions]
    simp only [append_assoc]
  have reached : lastNumber 0 front + (option.number - lastNumber 0 front) = option.number := by
    refine Nat.add_sub_cancel' (lastNumber_le (Nat.zero_le _) fun entry earlier => ?_)
    exact (pairwise_append.mp ordered).2.2 entry earlier (option, value) mem_cons_self
  obtain ⟨fuel, taken⟩ := parseOptions_entries here inside ascending start
  have step := parseOptionsLoop_entry byValue fuel (front.foldl acceptEntry start) behind
    (by rw [reached]; exact number_lt option)
    (short (option, value) (mem_append_right _ mem_cons_self))
  rw [reached, takeOption, ofNumber_number] at step
  rw [taken, step]
  rcases unsupported_proxy isProxy with rfl | rfl <;> rfl

/-- What a parser answers to a body on which the option loop ends in some way. -/
def bodyAnswer (payloadLen : Nat → Nat) (data : List UInt8) : OptionsEnd (List UInt8) →
    Except UInt8 Packet
  | .refused status => .error status
  | .complete packet => .ok packet
  | .marker packet start => .ok (packet.withPayload ((data.drop start).take (payloadLen start)))

/-- Reading strings by value decides what is received. -/
theorem parseBody_byValue {header : Header} {kept : List UInt8} {ended : OptionsEnd (List UInt8)}
    (parsed : parseOptions byValue data current (header.packet []) = some (kept, ended))
    (payloadLen : Nat → Nat) : (parseBody payloadLen data current header).map
      (Except.map received) = some (bodyAnswer payloadLen data ended) := by
  obtain ⟨data', ended', ends, sameLength, follows⟩ :=
    parseOptions_inPlace (unset_header header) rfl parsed
  rw [parseBody, ends, Option.map_some, Option.map_some]
  cases ended with
  | refused status =>
    cases ended' with
    | refused status' => exact congrArg some (congrArg Except.error follows)
    | complete => exact follows.elim
    | marker => exact follows.elim
  | complete value =>
    cases ended' with
    | refused => exact follows.elim
    | complete packet => exact congrArg some (congrArg Except.ok follows.1)
    | marker => exact follows.elim
  | marker value start =>
    cases ended' with
    | refused => exact follows.elim
    | complete => exact follows.elim
    | marker packet start' =>
      obtain ⟨rfl, view, behind⟩ := follows
      refine congrArg some (congrArg Except.ok ?_)
      rw [received, mapStrings_withPayload, view, slice, behind]

end Parsed

end Idrm.Coap
