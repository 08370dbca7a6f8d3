import Idrm.Lib.Bytes
import Idrm.Coap.Packet

/-!
# CoAP options on the wire

Options are written in the order of their numbers, each as the difference to the
number before, its length and its value; paths and queries take one option for
every segment.

The parser keeps a string as a reference into the receive buffer and joins the
segments of a path in place, over option headers it has read already. The loop is
written once for both ways of holding strings: `inPlace` is the code's, and
`byValue` holds the bytes themselves.
-/

namespace Idrm.Coap

open Idrm.Lib

/-! ## Writing -/

/-- `coap_option_nibble` -/
def coapOptionNibble (value : Nat) : Nat :=
  if value < 13 then value else if value ≤ 0xFF + 13 then 13 else 14

/-- The extension bytes of a delta or a length. -/
def optionExtension (value : Nat) : List UInt8 :=
  if value > 268 then [UInt8.ofNat ((value - 269) / 256), UInt8.ofNat (value - 269)]
  else if value > 12 then [UInt8.ofNat (value - 13)]
  else []

/-- `coap_set_option_header` -/
def coapSetOptionHeader (delta length : Nat) : List UInt8 :=
  UInt8.ofNat (coapOptionNibble delta * 16 + coapOptionNibble length) ::
    (optionExtension delta ++ optionExtension length)

/-- The value bytes of an integer option; even zero takes a byte. -/
def intOptionBytes (value : UInt32) : List UInt8 :=
  (if 0xFF000000 &&& value ≠ 0 then [(value >>> 24).toUInt8] else []) ++
  (if 0xFFFF0000 &&& value ≠ 0 then [(value >>> 16).toUInt8] else []) ++
  (if 0xFFFFFF00 &&& value ≠ 0 then [(value >>> 8).toUInt8] else []) ++
  [value.toUInt8]

/-- `coap_serialize_int_option` -/
def coapSerializeIntOption (number currentNumber : Nat) (value : UInt32) : List UInt8 :=
  coapSetOptionHeader (number - currentNumber) (intOptionBytes value).length ++ intOptionBytes value

/-- The loop of `coap_serialize_array_option` over a split string, from index `j`.
The byte behind the string, which a trailing separator makes it look at, is taken
to be the terminator. -/
def splitLoop (number : Nat) (array : List UInt8) (splitChar : UInt8) :
    Nat → Nat → Nat → Nat → List UInt8
  | 0, _, _, _ => []
  | fuel + 1, j, partStart, currentNumber =>
    if j ≤ array.length + 1 then
      if array.getD j 0 = splitChar ∨ j = array.length then
        let part := (array.drop partStart).take (j - partStart)
        coapSetOptionHeader (number - currentNumber) part.length ++ part ++
          splitLoop number array splitChar fuel (j + 2) (j + 1) number
      else splitLoop number array splitChar fuel (j + 1) partStart currentNumber
    else []

/-- `coap_serialize_array_option`; a `NUL` separator means one option. -/
def coapSerializeArrayOption (number currentNumber : Nat) (array : List UInt8) (splitChar : UInt8) :
    List UInt8 :=
  if splitChar ≠ 0 then splitLoop number array splitChar (array.length + 2) 0 0 currentNumber
  else coapSetOptionHeader (number - currentNumber) array.length ++ array

/-- The loop of `coap_log_2`. -/
def coapLog2Loop : Nat → Nat → Nat → Nat
  | 0, _, result => result
  | fuel + 1, value, result =>
    if value / 2 = 0 then result + 1 else coapLog2Loop fuel (value / 2) (result + 1)

/-- `coap_log_2` of a 16-bit value. -/
def coapLog2 (value : UInt16) : Nat :=
  let result := coapLog2Loop 16 value.toNat 0
  if result ≠ 0 then result - 1 else result

/-- The value of a block option. -/
def blockOptionValue (block : Block) : UInt32 :=
  (block.num <<< 4) ||| (if block.more then 0x8 else 0) |||
    (0xF &&& UInt32.ofNat (coapLog2 (block.size / 16)))

/-- What has been written of the options so far. -/
structure OptionWriter where
  currentNumber : Nat
  written : List UInt8

/-- The separator of `uri_path` and `location_path`. -/
def slash : UInt8 := 0x2F
/-- The separator of `uri_query` and `location_query`. -/
def ampersand : UInt8 := 0x26

/-- The value an option of a packet is written with. -/
inductive OptionValue where
  | int (value : UInt32)
  | array (bytes : List UInt8) (splitChar : UInt8)

/-- The field a `COAP_SERIALIZE_…_OPTION` line writes. `If-None-Match` is written
as the integer zero. -/
def optionValue (packet : Packet) : CoapOption → OptionValue
  | .ifMatch => .array packet.ifMatch.bytes 0
  | .uriHost => .array packet.uriHost 0
  | .etag => .array packet.etag.bytes 0
  | .ifNoneMatch => .int (packet.contentFormat - packet.contentFormat)
  | .observe => .int packet.observe
  | .uriPort => .int packet.uriPort.toUInt32
  | .locationPath => .array packet.locationPath slash
  | .uriPath => .array packet.uriPath slash
  | .contentFormat => .int packet.contentFormat
  | .maxAge => .int packet.maxAge
  | .uriQuery => .array packet.uriQuery ampersand
  | .accept => .int packet.accept
  | .locationQuery => .array packet.locationQuery ampersand
  | .block2 => .int (blockOptionValue packet.block2)
  | .block1 => .int (blockOptionValue packet.block1)
  | .size2 => .int packet.size2
  | .proxyUri => .array packet.proxyUri 0
  | .proxyScheme => .array packet.proxyScheme 0
  | .size1 => .int packet.size1

/-- One `COAP_SERIALIZE_…_OPTION` line. -/
def serializeOption (packet : Packet) (writer : OptionWriter)
    (option : CoapOption) : OptionWriter :=
  if packet.isOption option then
    { currentNumber := option.number
      written := writer.written ++
        match optionValue packet option with
        | .int value => coapSerializeIntOption option.number writer.currentNumber value
        | .array bytes splitChar =>
          coapSerializeArrayOption option.number writer.currentNumber bytes splitChar }
  else writer

/-- The options of a packet, in the order of their numbers. -/
def serializeOptions (packet : Packet) : List UInt8 :=
  (CoapOption.all.foldl (serializeOption packet) ⟨0, []⟩).written

/-! ## Strings in the receive buffer -/

/-- The bytes of a buffer at an offset, inside the buffer. -/
def readBytes (data : List UInt8) (offset length : Nat) : Option (List UInt8) :=
  if offset + length ≤ data.length then some ((data.drop offset).take length) else none

/-- How a packet holds its strings while it is parsed. -/
structure StringMode (S : Type) where
  null : S
  /-- A string field set to the option at an offset. -/
  refer : List UInt8 → Nat → Nat → Option S
  /-- `coap_merge_multi_option`: the option at an offset joined to a field. -/
  merge : List UInt8 → S → Nat → Nat → UInt8 → Option (List UInt8 × S)

/-- A pointer into the receive buffer, with its length. -/
structure BufRef where
  ptr : Nat
  len : Nat
deriving DecidableEq

/-- `memmove` inside a buffer. -/
def memmove (data : List UInt8) (dst src length : Nat) : Option (List UInt8) :=
  (readBytes data src length).bind fun bytes => storeAll data dst bytes

/-- The code's mode: fields refer to the buffer, and segments are moved up to the
ones before them. -/
def inPlace : StringMode BufRef where
  null := ⟨0, 0⟩
  refer _ option optionLen := some ⟨option, optionLen⟩
  merge data dst option optionLen separator :=
    if dst.len > 0 then
      (store data (dst.ptr + dst.len) separator).bind fun data =>
        (memmove data (dst.ptr + (dst.len + 1)) option optionLen).map fun data =>
          (data, ⟨dst.ptr, dst.len + 1 + optionLen⟩)
    else some (data, ⟨option, optionLen⟩)

/-- The same fields holding their bytes; the buffer is only read. -/
def byValue : StringMode (List UInt8) where
  null := []
  refer data option optionLen := readBytes data option optionLen
  merge data dst option optionLen separator :=
    (readBytes data option optionLen).map fun bytes =>
      (data, if dst.length > 0 then dst ++ [separator] ++ bytes else bytes)

/-! ## Parsing -/

/-- `coap_parse_int_option` -/
def coapParseIntOption (bytes : List UInt8) : UInt32 :=
  bytes.foldl (fun var byte => (var <<< 8) ||| byte.toUInt32) 0

/-- The parameters a block option's value stands for. -/
def parseBlock (value : UInt32) : Block where
  num := value >>> 4
  more := decide ((value &&& 0x08) >>> 3 ≠ 0)
  size := (16 <<< (value &&& 0x07)).toUInt16
  offset := (value &&& 0xFFFFFFF0) <<< (value &&& 0x07)

/-- How the option loop ended: at an option it refuses, at the end of the packet,
or at the payload marker, with the offset behind it. -/
inductive OptionsEnd (S : Type) where
  | refused (status : UInt8)
  | complete (packet : CoapPacket S)
  | marker (packet : CoapPacket S) (payload : Nat)

section Loop

variable {S : Type} (mode : StringMode S)

/-- The `switch` of the option loop. `none` is a read outside the buffer; the outer
alternative of the result is a refused option. -/
def parseOption (option : CoapOption) (data : List UInt8) (offset length : Nat)
    (packet : CoapPacket S) : Option (UInt8 ⊕ (List UInt8 × CoapPacket S)) :=
  let int (set : UInt32 → CoapPacket S) : Option (UInt8 ⊕ (List UInt8 × CoapPacket S)) :=
    (readBytes data offset length).map fun bytes => .inr (data, set (coapParseIntOption bytes))
  let short (set : ShortBytes → CoapPacket S) : Option (UInt8 ⊕ (List UInt8 × CoapPacket S)) :=
    (readBytes data offset (min shortLen length)).map fun bytes => .inr (data, set (.copy bytes))
  let merge (field : S) (separator : UInt8) (set : S → CoapPacket S) :
      Option (UInt8 ⊕ (List UInt8 × CoapPacket S)) :=
    (mode.merge data field offset length separator).map fun (data, merged) =>
      .inr (data, set merged)
  match option with
  | .contentFormat => int fun value => { packet with contentFormat := value }
  | .maxAge => int fun value => { packet with maxAge := value }
  | .etag => short fun value => { packet with etag := value }
  | .accept => int fun value => { packet with accept := value }
  | .ifMatch => short fun value => { packet with ifMatch := value }
  | .ifNoneMatch => some (.inr (data, { packet with ifNoneMatch := true }))
  | .proxyUri => some (.inl proxyingNotSupported505)
  | .proxyScheme => some (.inl proxyingNotSupported505)
  | .uriHost => (mode.refer data offset length).map fun value =>
    .inr (data, { packet with uriHost := value })
  | .uriPort => int fun value => { packet with uriPort := value.toUInt16 }
  | .uriPath => merge packet.uriPath slash fun value => { packet with uriPath := value }
  | .uriQuery => merge packet.uriQuery ampersand fun value => { packet with uriQuery := value }
  | .locationPath => merge packet.locationPath slash fun value =>
    { packet with locationPath := value }
  | .locationQuery =>
    merge packet.locationQuery ampersand fun value => { packet with locationQuery := value }
  | .observe => int fun value => { packet with observe := value }
  | .block2 => int fun value => { packet with block2 := parseBlock value }
  | .block1 => int fun value => { packet with block1 := parseBlock value }
  | .size2 => int fun value => { packet with size2 := value }
  | .size1 => int fun value => { packet with size1 := value }

/-- Read the extension of a delta or a length nibble, with the offset behind it. -/
def extendNibble (data : List UInt8) (offset nibble : Nat) : Option (Nat × Nat) :=
  if nibble = 13 then
    data[offset]?.map fun byte => (nibble + byte.toNat, offset + 1)
  else if nibble = 14 then
    data[offset]?.bind fun high => data[offset + 1]?.map fun low =>
      (nibble + 255 + high.toNat * 256 + low.toNat, offset + 2)
  else some (nibble, offset)

/-- The option loop of `coap_parse_message` and `coap_parse_message_tcp`. A number
beyond the option bitmap would be written outside of it. -/
def parseOptionsLoop : Nat → List UInt8 → Nat → Nat → CoapPacket S →
    Option (List UInt8 × OptionsEnd S)
  | 0, _, _, _, _ => none
  | fuel + 1, data, current, optionNumber, packet =>
    match data[current]? with
    | none => some (data, .complete packet)
    | some first =>
      if first &&& 0xF0 = 0xF0 then some (data, .marker packet (current + 1))
      else
        (extendNibble data (current + 1) (first >>> 4).toNat).bind fun (delta, offset) =>
        (extendNibble data offset (first &&& 0x0F).toNat).bind fun (length, offset) =>
          let optionNumber := optionNumber + delta
          if optionNumber ≥ optionMapBits then none
          else
            let packet := { packet with options := insert optionNumber packet.options }
            match CoapOption.ofNumber optionNumber with
            | none =>
              if optionNumber % 2 = 1 then some (data, .refused badOption402)
              else parseOptionsLoop fuel data (offset + length) optionNumber packet
            | some option =>
              (parseOption mode option data offset length packet).bind fun
                | .inl status => some (data, .refused status)
                | .inr (data, packet) =>
                  parseOptionsLoop fuel data (offset + length) optionNumber packet

/-- The option loop over a whole buffer; every round takes at least one byte. -/
def parseOptions (data : List UInt8) (current : Nat) (packet : CoapPacket S) :
    Option (List UInt8 × OptionsEnd S) :=
  parseOptionsLoop mode (data.length + 1) data current 0 packet

end Loop

end Idrm.Coap
