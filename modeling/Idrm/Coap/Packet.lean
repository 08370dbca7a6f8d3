import Mathlib.Data.Finset.Insert
import Idrm.Lib.CString

/-!
# CoAP packets

`coap_packet_t` with its option bitmap, and the functions that set and read its
header fields. String fields are left open: a packet to be sent holds their bytes,
a packet being parsed holds references into the receive buffer.
-/

namespace Idrm.Coap

open Idrm.Lib

/-- `coap_message_type_t` -/
inductive CoapMessageType where
  | con
  | non
  | ack
  | rst
deriving DecidableEq, Repr

/-! ## Codes -/

/-- `COAP_GET` -/
def coapGet : UInt8 := 1
/-- `COAP_POST` -/
def coapPost : UInt8 := 2
/-- `COAP_PUT` -/
def coapPut : UInt8 := 3
/-- `COAP_DELETE` -/
def coapDelete : UInt8 := 4

/-- `NO_ERROR` -/
def noError : UInt8 := 0
/-- `CREATED_2_01` -/
def created201 : UInt8 := 65
/-- `CHANGED_2_04` -/
def changed204 : UInt8 := 68
/-- `CONTENT_2_05` -/
def content205 : UInt8 := 69
/-- `CONTINUE_2_31` -/
def continue231 : UInt8 := 95
/-- `BAD_REQUEST_4_00` -/
def badRequest400 : UInt8 := 128
/-- `BAD_OPTION_4_02` -/
def badOption402 : UInt8 := 130
/-- `NOT_FOUND_4_04` -/
def notFound404 : UInt8 := 132
/-- `NOT_IMPLEMENTED_5_01` -/
def notImplemented501 : UInt8 := 161
/-- `PROXYING_NOT_SUPPORTED_5_05` -/
def proxyingNotSupported505 : UInt8 := 165

/-! ## Option numbers -/

/-- `coap_option_t` -/
inductive CoapOption where
  | ifMatch
  | uriHost
  | etag
  | ifNoneMatch
  | observe
  | uriPort
  | locationPath
  | uriPath
  | contentFormat
  | maxAge
  | uriQuery
  | accept
  | locationQuery
  | block2
  | block1
  | size2
  | proxyUri
  | proxyScheme
  | size1
deriving DecidableEq, Repr

/-- The number of an option. -/
def CoapOption.number : CoapOption → Nat
  | .ifMatch => 1
  | .uriHost => 3
  | .etag => 4
  | .ifNoneMatch => 5
  | .observe => 6
  | .uriPort => 7
  | .locationPath => 8
  | .uriPath => 11
  | .contentFormat => 12
  | .maxAge => 14
  | .uriQuery => 15
  | .accept => 17
  | .locationQuery => 20
  | .block2 => 23
  | .block1 => 27
  | .size2 => 28
  | .proxyUri => 35
  | .proxyScheme => 39
  | .size1 => 60

/-- The options, in the order of their numbers. -/
def CoapOption.all : List CoapOption :=
  [.ifMatch, .uriHost, .etag, .ifNoneMatch, .observe, .uriPort, .locationPath, .uriPath,
    .contentFormat, .maxAge, .uriQuery, .accept, .locationQuery, .block2, .block1, .size2,
    .proxyUri, .proxyScheme, .size1]

/-- The option with a number, if it is a known one. -/
def CoapOption.ofNumber (number : Nat) : Option CoapOption :=
  CoapOption.all.find? fun option => option.number = number

@[simp] theorem ofNumber_number (option : CoapOption) :
    CoapOption.ofNumber option.number = some option := by
  cases option <;> rfl

theorem number_injective {one other : CoapOption} (same : one.number = other.number) :
    one = other := by
  have found := ofNumber_number one
  rw [same, ofNumber_number] at found
  exact (Option.some.inj found).symm

/-- Bits of the option bitmap: `COAP_OPTION_SIZE1 / OPTION_MAP_SIZE + 1` bytes. -/
def optionMapBits : Nat := 64

/-! ## Packets -/

/-- `COAP_TOKEN_LEN` and `COAP_ETAG_LEN` -/
def shortLen : Nat := 8

/-- An inline byte field with its length: a token, an entity tag. -/
structure ShortBytes where
  bytes : List UInt8
  bounded : bytes.length ≤ 8
deriving DecidableEq

/-- Copy at most as many bytes as the field holds. -/
def ShortBytes.copy (bytes : List UInt8) : ShortBytes where
  bytes := bytes.take shortLen
  bounded := by
    rw [List.length_take]
    exact Nat.min_le_left _ _

@[ext] theorem ShortBytes.ext {left right : ShortBytes} (same : left.bytes = right.bytes) :
    left = right := by
  cases left
  cases right
  simp_all

@[simp] theorem ShortBytes.copy_bytes (field : ShortBytes) :
    ShortBytes.copy field.bytes = field := by
  ext1
  exact List.take_of_length_le field.bounded

/-- The parameters of a block option. -/
structure Block where
  num : UInt32
  more : Bool
  size : UInt16
  offset : UInt32
deriving DecidableEq

/-- A block option after `memset`. -/
def Block.zero : Block := ⟨0, false, 0, 0⟩

/-- `coap_packet_t`. A string field of type `S` stands for a pointer and its length. -/
structure CoapPacket (S : Type) where
  version : UInt8
  type : CoapMessageType
  code : UInt8
  mid : UInt16
  token : ShortBytes
  options : Finset Nat
  contentFormat : UInt32
  maxAge : UInt32
  etag : ShortBytes
  proxyUri : S
  proxyScheme : S
  uriHost : S
  locationPath : S
  uriPort : UInt16
  locationQuery : S
  uriPath : S
  observe : UInt32
  accept : UInt32
  ifMatch : ShortBytes
  block2 : Block
  block1 : Block
  size2 : UInt32
  size1 : UInt32
  uriQuery : S
  ifNoneMatch : Bool
  payload : S
deriving DecidableEq

/-- A packet that holds the bytes of its strings. -/
abbrev Packet := CoapPacket (List UInt8)

namespace CoapPacket

variable {S : Type}

/-- A packet after `memset`; `null` is the zeroed string field. -/
def zero (null : S) : CoapPacket S where
  version := 0
  type := .con
  code := 0
  mid := 0
  token := ⟨[], by decide⟩
  options := ∅
  contentFormat := 0
  maxAge := 0
  etag := ⟨[], by decide⟩
  proxyUri := null
  proxyScheme := null
  uriHost := null
  locationPath := null
  uriPort := 0
  locationQuery := null
  uriPath := null
  observe := 0
  accept := 0
  ifMatch := ⟨[], by decide⟩
  block2 := .zero
  block1 := .zero
  size2 := 0
  size1 := 0
  uriQuery := null
  ifNoneMatch := false
  payload := null

/-- `IS_OPTION` -/
def isOption (packet : CoapPacket S) (option : CoapOption) : Bool := option.number ∈ packet.options

/-- `SET_OPTION` on a known option. -/
def setOption (option : CoapOption) (packet : CoapPacket S) : CoapPacket S :=
  { packet with options := insert option.number packet.options }

end CoapPacket

@[simp] theorem isOption_setOption {S : Type} (option other : CoapOption) (packet : CoapPacket S) :
    (CoapPacket.setOption option packet).isOption other =
      (decide (other = option) || packet.isOption other) := by
  rw [Bool.eq_iff_iff]
  simp only [CoapPacket.isOption, CoapPacket.setOption, Finset.mem_insert, decide_eq_true_eq,
    Bool.or_eq_true]
  constructor
  · rintro (same | present)
    · exact .inl (number_injective same)
    · exact .inr present
  · rintro (rfl | present)
    · exact .inl rfl
    · exact .inr present

/-! ## Setting and reading fields -/

/-- `coap_init_message` -/
def coapInitMessage (type : CoapMessageType) (code : UInt8) (mid : UInt16) : Packet :=
  { CoapPacket.zero [] with type := type, code := code, mid := mid }

/-- `coap_set_token` -/
def coapSetToken (token : List UInt8) (packet : Packet) : Packet :=
  { packet with token := .copy token }

/-- Whether a packet is a request. -/
def isRequest (message : Packet) : Bool := message.code ≥ coapGet && message.code ≤ coapDelete

/-- The bytes of a message id in memory. -/
def midBytes (mid : UInt16) : List UInt8 := [mid.toUInt8, (mid >>> 8).toUInt8]

/-- `coap_set_header_content_format` -/
def coapSetHeaderContentFormat (format : UInt32) (packet : Packet) : Packet :=
  CoapPacket.setOption .contentFormat { packet with contentFormat := format }

/-- `coap_set_header_observe` -/
def coapSetHeaderObserve (observe : UInt32) (packet : Packet) : Packet :=
  CoapPacket.setOption .observe { packet with observe := observe }

/-- `coap_set_header_uri_path`: leading slashes are dropped. -/
def coapSetHeaderUriPath (path : CString) (packet : Packet) : Packet :=
  CoapPacket.setOption .uriPath { packet with uriPath := path.bytes.dropWhile (· = 0x2F) }

/-- `coap_set_header_uri_query`: leading question marks are dropped. -/
def coapSetHeaderUriQuery (query : CString) (packet : Packet) : Packet :=
  CoapPacket.setOption .uriQuery { packet with uriQuery := query.bytes.dropWhile (· = 0x3F) }

/-- `coap_get_header_uri_path` -/
def coapGetHeaderUriPath (packet : Packet) : List UInt8 :=
  if packet.isOption .uriPath then packet.uriPath else []

/-- `coap_get_header_uri_query` -/
def coapGetHeaderUriQuery (packet : Packet) : List UInt8 :=
  if packet.isOption .uriQuery then packet.uriQuery else []

/-- A path that was set is read back. -/
theorem coapGetHeaderUriPath_setPath (path : CString) (packet : Packet) :
    coapGetHeaderUriPath (coapSetHeaderUriPath path packet) = path.bytes.dropWhile (· = 0x2F) :=
  if_pos (isOption_setOption .uriPath .uriPath _)

/-- A query leaves the path. -/
theorem coapGetHeaderUriPath_setQuery (query : CString) (packet : Packet) :
    coapGetHeaderUriPath (coapSetHeaderUriQuery query packet) = coapGetHeaderUriPath packet := by
  have same : (coapSetHeaderUriQuery query packet).isOption .uriPath = packet.isOption .uriPath :=
    isOption_setOption .uriQuery .uriPath _
  unfold coapGetHeaderUriPath
  rw [same]
  rfl

/-- A query that was set is read back. -/
theorem coapGetHeaderUriQuery_setQuery (query : CString) (packet : Packet) :
    coapGetHeaderUriQuery (coapSetHeaderUriQuery query packet) = query.bytes.dropWhile (· = 0x3F) :=
  if_pos (isOption_setOption .uriQuery .uriQuery _)

/-- A path leaves the query. -/
theorem coapGetHeaderUriQuery_setPath (path : CString) (packet : Packet) :
    coapGetHeaderUriQuery (coapSetHeaderUriPath path packet) = coapGetHeaderUriQuery packet := by
  have same : (coapSetHeaderUriPath path packet).isOption .uriQuery = packet.isOption .uriQuery :=
    isOption_setOption .uriPath .uriQuery _
  unfold coapGetHeaderUriQuery
  rw [same]
  rfl

/-- `coap_set_header_block2`, which refuses sizes and numbers an option cannot hold. -/
def coapSetHeaderBlock2 (num : UInt32) (more : Bool) (size : UInt16) (packet : Packet) : Packet :=
  if size < 16 ∨ size > 2048 ∨ num > 0x0FFFFF then packet
  else CoapPacket.setOption .block2
    { packet with block2 := { packet.block2 with num := num, more := more, size := size } }

/-- `coap_set_header_block1` -/
def coapSetHeaderBlock1 (num : UInt32) (more : Bool) (size : UInt16) (packet : Packet) : Packet :=
  if size < 16 ∨ size > 2048 ∨ num > 0x0FFFFF then packet
  else CoapPacket.setOption .block1
    { packet with block1 := { packet.block1 with num := num, more := more, size := size } }

/-- `coap_get_header_block2`; zero when the option is absent. -/
def coapGetHeaderBlock2 (packet : Packet) : Option Block :=
  if packet.isOption .block2 then some packet.block2 else none

/-- `coap_get_header_block1` -/
def coapGetHeaderBlock1 (packet : Packet) : Option Block :=
  if packet.isOption .block1 then some packet.block1 else none

/-- `REST_MAX_CHUNK_SIZE`, a power of two and so also `COAP_MAX_BLOCK_SIZE`. -/
def restMaxChunkSize : Nat := 1024

/-- `coap_set_payload`: at most a chunk is referred to. -/
def coapSetPayload (payload : List UInt8) (packet : Packet) : Packet :=
  { packet with payload := payload.take restMaxChunkSize }

/-- `coap_set_payload_tcp`: the clamped length is kept in 16 bits. -/
def coapSetPayloadTcp (payload : List UInt8) (packet : Packet) : Packet :=
  { packet with payload := payload.take (min (1024 * 1024) payload.length % 65536) }

end Idrm.Coap
