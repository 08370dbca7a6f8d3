import Idrm.Coap.OptionBytes
import Idrm.Coap.OverTcp

/-!
# The space that options take

`coap_serialize_message_tcp` looks at three strings before it writes all options to a buffer of
512 bytes. What it writes is counted here: `tcpOptionSpace` is the number of bytes, from the
fields of the packet.
-/

namespace Idrm.Coap

open Idrm.Lib List

/-! ## Counting bytes -/

/-- Bytes behind the first one of an option header, for a number difference or a length. -/
def extensionSpace (value : Nat) : Nat := if value > 268 then 2 else if value > 12 then 1 else 0

/-- Bytes of a value with its header, but for the number difference. -/
def valueSpace (length : Nat) : Nat := 1 + extensionSpace length + length

/-- Bytes of an integer; zero takes one. -/
def intSpace (value : UInt32) : Nat :=
  if value.toNat < 2 ^ 8 then 1 else if value.toNat < 2 ^ 16 then 2
    else if value.toNat < 2 ^ 24 then 3 else 4

/-- Bytes of an option, one value for each of its segments. -/
def optionSpace (packet : Packet) (option : CoapOption) : Nat :=
  match optionValue packet option with
  | .int value => valueSpace (intSpace value)
  | .array bytes splitChar =>
    if splitChar = 0 then valueSpace bytes.length
      else ((segments splitChar bytes).map fun part => valueSpace part.length).sum

/-- Bytes of the differences between the numbers of options. -/
def differenceSpace : Nat → List CoapOption → Nat
  | _, [] => 0
  | number, option :: rest =>
    extensionSpace (option.number - number) + differenceSpace option.number rest

/-- The options that a packet has. -/
def presentOptions (packet : Packet) : List CoapOption := CoapOption.all.filter packet.isOption

/-- Bytes of the options of a packet, with the marker of its payload. -/
def tcpOptionSpace (packet : Packet) : Nat :=
  differenceSpace 0 (presentOptions packet) +
    ((presentOptions packet).map (optionSpace packet)).sum + if packet.payload = [] then 0 else 1

/-! ## What is written -/

theorem optionExtension_space (value : Nat) :
    (optionExtension value).length = extensionSpace value := by
  unfold optionExtension extensionSpace
  split
  · rfl
  · split <;> rfl

theorem intOptionBytes_space (value : UInt32) : (intOptionBytes value).length = intSpace value := by
  have top : 0xFF000000 &&& value ≠ 0 ↔ 2 ^ 24 ≤ value.toNat := and_highMask_ne_zero rfl (by decide)
  have upper : 0xFFFF0000 &&& value ≠ 0 ↔ 2 ^ 16 ≤ value.toNat :=
    and_highMask_ne_zero rfl (by decide)
  have lower : 0xFFFFFF00 &&& value ≠ 0 ↔ 2 ^ 8 ≤ value.toNat :=
    and_highMask_ne_zero rfl (by decide)
  unfold intOptionBytes intSpace
  by_cases one : value.toNat < 2 ^ 8
  · rw [if_neg (mt top.mp (by omega)), if_neg (mt upper.mp (by omega)),
      if_neg (mt lower.mp (by omega)), if_pos one]
    rfl
  · rw [if_neg one, if_pos (lower.mpr (Nat.not_lt.mp one))]
    by_cases two : value.toNat < 2 ^ 16
    · rw [if_neg (mt top.mp (by omega)), if_neg (mt upper.mp (by omega)), if_pos two]
      rfl
    · rw [if_neg two, if_pos (upper.mpr (Nat.not_lt.mp two))]
      by_cases three : value.toNat < 2 ^ 24
      · rw [if_neg (mt top.mp (Nat.not_le.mpr three)), if_pos three]
        rfl
      · rw [if_neg three, if_pos (top.mpr (Nat.not_lt.mp three))]
        rfl

theorem coapSetOptionHeader_space (delta length : Nat) : (coapSetOptionHeader delta length).length =
      1 + extensionSpace delta + extensionSpace length := by
  rw [coapSetOptionHeader, length_cons, length_append, optionExtension_space, optionExtension_space]
  omega

/-- Values of one option: the number differs once. -/
theorem encodeOptions_space (option : CoapOption) (values : List (List UInt8)) (number : Nat)
    (nonempty : values ≠ []) :
    (encodeOptions number (values.map fun value => (option, value))).length = extensionSpace
      (option.number - number) + (values.map fun value => valueSpace value.length).sum := by
  induction values generalizing number with
  | nil => exact absurd rfl nonempty
  | cons value rest ih =>
    rw [map_cons, encodeOptions, length_append, length_append, coapSetOptionHeader_space, map_cons,
      sum_cons, valueSpace]
    by_cases alone : rest = []
    · rw [alone]
      simp only [map_nil, encodeOptions, length_nil, sum_nil]
      omega
    · have same : extensionSpace (option.number - option.number) = 0 := by
        rw [Nat.sub_self]
        rfl
      rw [ih option.number alone, same]
      omega

/-- An option of a packet, as it is written. -/
theorem writtenEntries_present {packet : Packet} {option : CoapOption}
    (present : packet.isOption option = true) : ∃ values,
    values ≠ [] ∧ writtenEntries packet option = (values.map fun value => (option, value)) ∧
    (values.map fun value => valueSpace value.length).sum = optionSpace packet option := by
  unfold writtenEntries optionSpace
  rw [if_pos present]
  cases optionValue packet option with
  | int value =>
    exact ⟨[intOptionBytes value], cons_ne_nil _ _, rfl, by simp [intOptionBytes_space]⟩
  | array bytes splitChar =>
    by_cases whole : splitChar = 0
    · exact ⟨[bytes], cons_ne_nil _ _, by simp [whole], by simp [whole]⟩
    · exact ⟨segments splitChar bytes,
        segmentsFrom_ne_nil splitChar [] bytes, by simp [whole], by simp [whole]⟩

theorem writtenEntries_space (packet : Packet) (options : List CoapOption) (number : Nat) :
    (encodeOptions number (options.flatMap (writtenEntries packet))).length =
      differenceSpace number (options.filter packet.isOption) +
      ((options.filter packet.isOption).map (optionSpace packet)).sum := by
  induction options generalizing number with
  | nil => rfl
  | cons option rest ih =>
    rw [flatMap_cons, encodeOptions_append, length_append, ih]
    by_cases present : packet.isOption option = true
    · obtain ⟨values, nonempty, entries, sum⟩ := writtenEntries_present present
      rw [entries, lastNumber_map number option nonempty, encodeOptions_space option values number
        nonempty, sum, filter_cons_of_pos present, differenceSpace, map_cons, sum_cons]
      omega
    · have absent : writtenEntries packet option = [] := if_neg present
      rw [absent, filter_cons_of_neg present]
      simp [encodeOptions, lastNumber]

/-- The options and the marker take the space that is counted. -/
theorem serializeOptions_space (packet : Packet) :
    (serializeOptions packet ++ payloadMarker packet).length = tcpOptionSpace packet := by
  have marker : (payloadMarker packet).length = if packet.payload = [] then 0 else 1 := by
    rw [payloadMarker]
    by_cases empty : packet.payload = []
    · rw [if_neg (by rw [empty]; decide), if_pos empty, length_nil]
    · rw [if_pos (by rwa [ne_eq, length_eq_zero_iff]), if_neg empty, length_singleton]
  rw [length_append, serializeOptions_written, writtenOptions, writtenEntries_space, marker]
  rfl

/-! ## The guard -/

/-- The size guard lets a packet pass. -/
def PassesGuard (packet : Packet) : Prop :=
  packet.uriHost.length + packet.uriPath.length + packet.uriQuery.length ≤ tcpOptionBuffer - 64

instance (packet : Packet) : Decidable (PassesGuard packet) := inferInstanceAs (Decidable (_ ≤ _))

/-- A packet that passes the guard is written if what is written fits. -/
theorem coapSerializeMessageTcp_passes {packet : Packet} (passes : PassesGuard packet) :
    (coapSerializeMessageTcp packet).isSome = decide
      ((serializeOptions packet ++ payloadMarker packet).length ≤ tcpOptionBuffer) := by
  have sameOptions :
    serializeOptions { packet with token := tcpToken packet } = serializeOptions packet := rfl
  have sameMarker :
    payloadMarker { packet with token := tcpToken packet } = payloadMarker packet := rfl
  unfold coapSerializeMessageTcp
  simp only [sameOptions, sameMarker]
  rw [if_neg (Nat.not_lt.mpr passes)]
  split
  · rename_i long
    exact (decide_eq_false (Nat.not_le.mpr long)).symm
  · rename_i fits
    exact (decide_eq_true (Nat.not_lt.mp fits)).symm

/-- A packet that passes the guard is written without leaving the option buffer exactly when its
options, each with its headers, fit. -/
theorem coapSerializeMessageTcp_isSome_iff {packet : Packet} (passes : PassesGuard packet) :
    (coapSerializeMessageTcp packet).isSome = true ↔ tcpOptionSpace packet ≤ tcpOptionBuffer := by
  rw [coapSerializeMessageTcp_passes passes, serializeOptions_space, decide_eq_true_iff]

/-- A request with a path. -/
def pathRequest : Packet :=
  coapSetHeaderUriPath (.ofBytes [0x61, 0x2F, 0x62]) (coapInitMessage .con coapGet 1)

theorem coapSerializeMessageTcp_isSome_iff_pathRequest : PassesGuard pathRequest ∧
    ((coapSerializeMessageTcp pathRequest).isSome = true ↔
      tcpOptionSpace pathRequest ≤ tcpOptionBuffer) :=
  ⟨by decide, coapSerializeMessageTcp_isSome_iff (by decide)⟩

/-- An answer with a location path. -/
def locationAnswer (path : List UInt8) : Packet :=
  CoapPacket.setOption .locationPath { coapInitMessage .con created201 1 with locationPath := path }

theorem locationAnswer_space {path : List UInt8} (unsplit : slash ∉ path) :
    tcpOptionSpace (locationAnswer path) = valueSpace path.length := by
  have present : presentOptions (locationAnswer path) = [.locationPath] := rfl
  have value : optionValue (locationAnswer path) .locationPath = .array path slash := rfl
  have space : optionSpace (locationAnswer path) .locationPath = valueSpace path.length := by
    unfold optionSpace
    simp only [value]
    rw [if_neg (by decide), segments, segmentsFrom_unsplit unsplit, map_singleton, sum_singleton]
    rfl
  have empty : (locationAnswer path).payload = [] := rfl
  rw [tcpOptionSpace, present, map_singleton, sum_singleton, space, if_pos empty]
  exact Nat.zero_add _

/-- The guard does not look at the location path. -/
theorem locationAnswer_none {path : List UInt8}
    (unsplit : slash ∉ path) (long : 512 ≤ path.length) :
    PassesGuard (locationAnswer path) ∧ coapSerializeMessageTcp (locationAnswer path) = none := by
  have passes : PassesGuard (locationAnswer path) := Nat.zero_le _
  refine ⟨passes, ?_⟩
  have leaves : ¬ (coapSerializeMessageTcp (locationAnswer path)).isSome = true := by
    rw [coapSerializeMessageTcp_passes passes, serializeOptions_space, locationAnswer_space unsplit,
      decide_eq_true_iff, valueSpace, tcpOptionBuffer]
    omega
  rwa [Option.not_isSome_iff_eq_none] at leaves

/-- A location path of 600 bytes does not fit. -/
theorem coapSerializeMessageTcp_locationAnswer_fails :
    PassesGuard (locationAnswer (List.replicate 600 0x61)) ∧
    coapSerializeMessageTcp (locationAnswer (List.replicate 600 0x61)) = none := by
  refine locationAnswer_none (fun member => absurd (eq_of_mem_replicate member) (by decide)) ?_
  rw [length_replicate]
  omega

end Idrm.Coap
