import Idrm.Lib.Bytes
import Idrm.Coap.Packet
import Idrm.Bus.Message

/-!
# Between CoAP packets and bus messages

A packet is written to a bus message field by field and read back by a converter of
its own. The two do not agree: a response is written without its code, and the
source module is read back into the path. `convertsBack_iff` says which packets
survive all the same.
-/

namespace Idrm.Bus

open Idrm.Lib Idrm.Coap List

/-- `coap_is_request` -/
def coapIsRequest (packet : Packet) : Bool := coapGet ≤ packet.code && packet.code ≤ coapDelete

/-- `coap_to_broker_msg_config`; `moduleId` is `get_broker_module_id`. -/
def coapToBrokerMsgConfig (moduleId : CString) (packet : Packet) : BusMessage :=
  let path := coapGetHeaderUriPath packet
  let query := coapGetHeaderUriQuery packet
  let properties : Properties := fun _ => none
  let properties :=
    properties.addOrUpdate .tag (if coapIsRequest packet then tagRestReq else tagRestResp)
  let properties := properties.addOrUpdate .action (restActionStr packet.code.toNat)
  let properties := properties.addIf (decide (path.length > 0)) .uri (.ofBytes (0x2F :: path))
  let properties := properties.addIf (decide (query.length > 0)) .query (.ofBytes query)
  let properties := properties.addOrUpdate .fmt (restFmtStr packet.contentFormat.toInt32)
  let properties := properties.addOrUpdate .src moduleId
  ⟨properties, packet.payload⟩

/-- What `snprintf` leaves of a number in a buffer of 20 bytes. -/
def idString (id : UInt64) : CString := .ofBytes ((printInt id.toInt64.toInt).take 19)

/-- `coap_to_bus_msg` -/
def coapToBusMsg (moduleId : CString) (packet : Packet) (id : UInt64)
    (destModule : Option CString) : BusMessage :=
  let config := coapToBrokerMsgConfig moduleId packet
  let properties := config.properties.addIf (decide (id ≠ -1)) .mid (idString id)
  let properties := match destModule with
    | none => properties
    | some dest => properties.addOrUpdate .dest dest
  ⟨properties, config.content⟩

/-- The packet a message starts from: a response with its code, or a request with
its action and the message id as token. -/
def initFromProperties (properties : Properties) : Option Packet :=
  properties .tag |>.bind fun tag => properties .mid |>.bind fun mid =>
    let id := (atoi mid).toUInt32
    if tag = tagRestResp then
      (properties .respCode).map fun result =>
        coapInitMessage .ack (atoi result).toUInt32.toUInt8 id.toUInt16
    else if tag = tagRestReq then
      (properties .action).bind fun action => (actionFromString action).map fun action =>
        coapSetToken (leBytes 4 id.toNat) (coapInitMessage .con (UInt8.ofNat action) id.toUInt16)
    else none

/-- A setter applied to a property that is there. -/
def setFrom (property : Option CString) (set : CString → Packet → Packet)
    (packet : Packet) : Packet :=
  match property with
  | none => packet
  | some value => set value packet

/-- `convert_bus_msg_to_coap`; `none` is its `false`. The source module overwrites the
path. -/
def convertBusMsgToCoap (message : BusMessage) : Option Packet :=
  (initFromProperties message.properties).map fun packet =>
    setFrom (message.properties .src) coapSetHeaderUriPath <|
    setFrom (message.properties .query) coapSetHeaderUriQuery <|
    setFrom (message.properties .uri) coapSetHeaderUriPath <|
    setFrom (message.properties .fmt) (fun fmt packet =>
      coapSetPayloadTcp message.content
        (coapSetHeaderContentFormat (atoi fmt).toUInt32 packet)) packet

/-! ## Through both converters -/

/-- A packet comes back from the bus as it was, with the id where its kind carries it. -/
def ConvertsBack (moduleId : CString) (packet : Packet) (id : UInt64)
    (destModule : Option CString) : Prop :=
  ∃ back, convertBusMsgToCoap (coapToBusMsg moduleId packet id destModule) = some back ∧
    back.code = packet.code ∧ coapGetHeaderUriPath back = coapGetHeaderUriPath packet ∧
    coapGetHeaderUriQuery back = coapGetHeaderUriQuery packet ∧
    back.contentFormat = packet.contentFormat ∧ back.payload = packet.payload ∧
    if coapIsRequest packet then back.token.bytes = leBytes 4 id.toNat
    else back.mid.toNat = id.toNat

/-- A 31-bit id is written out in full. -/
theorem idString_small {id : UInt64} (small : id.toNat < 2 ^ 31) :
    idString id = decimal id.toNat := by
  have signed : id.toInt64.toInt = id.toNat := by
    change id.toBitVec.toInt = id.toBitVec.toNat
    refine BitVec.toInt_eq_toNat_of_lt ?_
    rw [UInt64.toNat_toBitVec]
    omega
  have printed : printInt id.toNat = printNat id.toNat := by
    rw [printInt, if_neg (by omega), Int.toNat_natCast]
  have width : (printInt id.toNat).length ≤ 19 := by
    rw [printed]
    exact printNat_length_le (by decide) (by omega)
  rw [idString, signed, take_of_length_le width,
    CString.ofBytes_nulFree (zero_not_mem_printInt _), decimal]

/-- Read back as an unsigned number, a 31-bit id is the same. -/
theorem atoi_decimal_id {id : UInt64} (small : id.toNat < 2 ^ 31) :
    (atoi (decimal id.toNat)).toUInt32.toNat = id.toNat := by
  rw [atoi_decimal (by omega) (by omega)]
  change (BitVec.ofInt 32 id.toNat).toNat = id.toNat
  rw [BitVec.ofInt_natCast, BitVec.toNat_ofNat, Nat.mod_eq_of_lt (by omega)]

section Converters

variable (moduleId : CString) (packet : Packet) {id : UInt64} (destModule : Option CString)

/-- The properties a packet is written with: no message has a response code. -/
theorem coapToBusMsg_properties (small : id.toNat < 2 ^ 31) :
    let properties := (coapToBusMsg moduleId packet id destModule).properties
    properties .tag = some (if coapIsRequest packet then tagRestReq else tagRestResp) ∧
      properties .mid = some (decimal id.toNat) ∧
      properties .action = some (restActionStr packet.code.toNat) ∧
      properties .fmt = some (restFmtStr packet.contentFormat.toInt32) ∧
      properties .src = some moduleId ∧ properties .respCode = none ∧
      properties .query = (if (coapGetHeaderUriQuery packet).length > 0
        then some (.ofBytes (coapGetHeaderUriQuery packet)) else none) := by
  have present : id ≠ -1 := by
    rintro rfl
    exact absurd small (by decide)
  cases destModule <;>
    simp [coapToBusMsg, coapToBrokerMsgConfig, present, idString_small small]

/-- A response is written without its code and cannot be read back. -/
theorem convertBusMsgToCoap_response (small : id.toNat < 2 ^ 31)
    (response : coapIsRequest packet = false) :
    convertBusMsgToCoap (coapToBusMsg moduleId packet id destModule) = none := by
  obtain ⟨tag, mid, -, -, -, respCode, -⟩ :=
    coapToBusMsg_properties moduleId packet destModule small
  rw [response] at tag
  rw [convertBusMsgToCoap, initFromProperties, tag, mid, respCode]
  rfl

/-- The path and the query apart, two packets are the same as far as a message holds them. -/
structure SameRest (one other : Packet) : Prop where
  code : one.code = other.code
  contentFormat : one.contentFormat = other.contentFormat
  payload : one.payload = other.payload
  token : one.token = other.token

theorem SameRest.trans {one other third : Packet} (first : SameRest one other)
    (second : SameRest other third) : SameRest one third :=
  ⟨first.code.trans second.code, first.contentFormat.trans second.contentFormat,
    first.payload.trans second.payload, first.token.trans second.token⟩

theorem setFrom_path (path : Option CString) (packet : Packet) :
    SameRest (setFrom path coapSetHeaderUriPath packet) packet ∧ coapGetHeaderUriQuery
      (setFrom path coapSetHeaderUriPath packet) = coapGetHeaderUriQuery packet := by
  cases path with
  | none => exact ⟨⟨rfl, rfl, rfl, rfl⟩, rfl⟩
  | some path => exact ⟨⟨rfl, rfl, rfl, rfl⟩, coapGetHeaderUriQuery_setPath path packet⟩

/-- A query is written if it is there, and cut at a terminator. -/
theorem setFrom_query (query : List UInt8) {packet : Packet}
    (unset : coapGetHeaderUriQuery packet = []) : SameRest (setFrom (if query.length > 0 then
      some (.ofBytes query) else none) coapSetHeaderUriQuery packet) packet ∧
    coapGetHeaderUriQuery (setFrom (if query.length > 0 then some (.ofBytes query) else none)
      coapSetHeaderUriQuery packet) = (query.takeWhile (· ≠ 0)).dropWhile (· = 0x3F) := by
  cases query with
  | nil => exact ⟨⟨rfl, rfl, rfl, rfl⟩, unset⟩
  | cons first rest =>
    exact ⟨⟨rfl, rfl, rfl, rfl⟩, coapGetHeaderUriQuery_setQuery (.ofBytes (first :: rest)) packet⟩

/-- What a request is read back as. -/
theorem convertBusMsgToCoap_request (small : id.toNat < 2 ^ 31)
    (request : coapIsRequest packet = true) :
    ∃ back, convertBusMsgToCoap (coapToBusMsg moduleId packet id destModule) = some back ∧
    back.code = packet.code ∧ coapGetHeaderUriPath back = moduleId.bytes.dropWhile (· = 0x2F) ∧
    coapGetHeaderUriQuery back = ((coapGetHeaderUriQuery packet).takeWhile (· ≠ 0)).dropWhile
      (· = 0x3F) ∧ back.contentFormat = packet.contentFormat ∧
    back.payload = packet.payload.take (min (1024 * 1024) packet.payload.length % 65536) ∧
    back.token.bytes = leBytes 4 id.toNat := by
  obtain ⟨tag, mid, action, fmt, src, -, query⟩ :=
    coapToBusMsg_properties moduleId packet destModule small
  have code : coapGet.toNat ≤ packet.code.toNat ∧ packet.code.toNat ≤ coapDelete.toNat := by
    simpa [coapIsRequest, UInt8.le_iff_toNat_le] using request
  rw [request] at tag
  have init : initFromProperties (coapToBusMsg moduleId packet id destModule).properties =
      some (coapSetToken (leBytes 4 id.toNat)
        (coapInitMessage .con packet.code (atoi (decimal id.toNat)).toUInt32.toUInt16)) := by
    rw [initFromProperties, tag, mid, action]
    simp only [Option.bind_some, actionFromString_restActionStr code.1 code.2, Option.map_some,
      atoi_decimal_id small, UInt8.ofNat_toNat]
    rfl
  have token : (coapSetToken (leBytes 4 id.toNat) (coapInitMessage .con packet.code
      (atoi (decimal id.toNat)).toUInt32.toUInt16)).token.bytes = leBytes 4 id.toNat :=
    take_of_length_le (by simp [shortLen])
  have format :
      (atoi (restFmtStr packet.contentFormat.toInt32)).toUInt32 = packet.contentFormat := by
    rw [atoi_restFmtStr, UInt32.toUInt32_toInt32]
  let start : Packet := coapSetPayloadTcp packet.payload (coapSetHeaderContentFormat
    (atoi (restFmtStr packet.contentFormat.toInt32)).toUInt32 (coapSetToken (leBytes 4 id.toNat)
      (coapInitMessage .con packet.code (atoi (decimal id.toNat)).toUInt32.toUInt16)))
  have unset : coapGetHeaderUriQuery start = [] :=
    if_neg (Bool.eq_false_iff.mp (isOption_setOption .contentFormat .uriQuery _))
  rw [convertBusMsgToCoap, init, Option.map_some, src, fmt, query]
  -- The path is set twice, the second time from the source module.
  obtain ⟨pathed, stillUnset⟩ :=
    setFrom_path ((coapToBusMsg moduleId packet id destModule).properties .uri) start
  obtain ⟨queried, isQuery⟩ := setFrom_query (coapGetHeaderUriQuery packet) (stillUnset.trans unset)
  obtain ⟨named, sameQuery⟩ := setFrom_path (some moduleId)
    (setFrom _ coapSetHeaderUriQuery (setFrom _ coapSetHeaderUriPath start))
  have same := named.trans (queried.trans pathed)
  exact ⟨_, rfl, same.code, coapGetHeaderUriPath_setPath moduleId _,
    sameQuery.trans isQuery, same.contentFormat.trans format,
    same.payload, (congrArg ShortBytes.bytes same.token).trans token⟩

/-- A query survives if it has no terminator inside and no question mark before it. -/
theorem query_survives_iff (query : List UInt8) :
    (query.takeWhile (· ≠ 0)).dropWhile (· = 0x3F) = query ↔
      (0 : UInt8) ∉ query ∧ query.head? ≠ some 0x3F := by
  constructor
  · intro survives
    have cut : query.takeWhile (· ≠ 0) = query := by
      refine (List.takeWhile_prefix _).eq_of_length_le ?_
      calc query.length
          = ((query.takeWhile (· ≠ 0)).dropWhile (· = 0x3F)).length := by rw [survives]
        _ ≤ (query.takeWhile (· ≠ 0)).length := (dropWhile_suffix _).length_le
    refine ⟨fun member => ?_, fun marked => ?_⟩
    · simpa using takeWhile_eq_self_iff.mp cut 0 member
    · rw [cut] at survives
      obtain ⟨rest, rfl⟩ : ∃ rest, query = 0x3F :: rest := by
        cases query with
        | nil => cases marked
        | cons first rest =>
          cases marked
          exact ⟨rest, rfl⟩
      have shorter := (dropWhile_suffix (l := rest) (· = (0x3F : UInt8))).length_le
      rw [dropWhile_cons_of_pos (by decide)] at survives
      have same := congrArg List.length survives
      rw [length_cons] at same
      omega
  · rintro ⟨nulFree, unmarked⟩
    have cut : query.takeWhile (· ≠ 0) = query :=
      congrArg CString.bytes (CString.ofBytes_nulFree nulFree)
    rw [cut]
    cases query with
    | nil => rfl
    | cons first rest =>
      have plain : first ≠ 0x3F := by simpa using unmarked
      exact dropWhile_cons_of_neg (by simpa using plain)

/-- Which packets come back from the bus as they were: requests that already have the
module's own name as their path, and whose query is a string without leading question
marks. -/
theorem convertsBack_iff (whole : packet.payload.length ≤ 65535) (small : id.toNat < 2 ^ 31) :
    ConvertsBack moduleId packet id destModule ↔
      coapIsRequest packet = true ∧
      coapGetHeaderUriPath packet = moduleId.bytes.dropWhile (· = 0x2F) ∧
      (0 : UInt8) ∉ coapGetHeaderUriQuery packet ∧
      (coapGetHeaderUriQuery packet).head? ≠ some 0x3F := by
  rw [← query_survives_iff]
  cases request : coapIsRequest packet with
  | false =>
    have lost := convertBusMsgToCoap_response moduleId packet destModule small request
    simp [ConvertsBack, lost]
  | true =>
    obtain ⟨back, converts, code, path, query, format, payload, token⟩ :=
      convertBusMsgToCoap_request moduleId packet destModule small request
    have uncut : min (1024 * 1024) packet.payload.length % 65536 = packet.payload.length := by omega
    rw [uncut, take_length] at payload
    rw [ConvertsBack, request, converts]
    constructor
    · rintro ⟨other, same, -, samePath, sameQuery, -, -, -⟩
      cases same
      exact ⟨rfl, samePath.symm.trans path, query.symm.trans sameQuery⟩
    · rintro ⟨-, samePath, sameQuery⟩
      exact ⟨back, rfl, code, path.trans samePath.symm, query.trans sameQuery,
        format, payload, token⟩

end Converters

/-- `MODULE_AGENT`, `"agent"` -/
def moduleAgent : CString := ⟨[0x61, 0x67, 0x65, 0x6E, 0x74], by decide⟩

/-- A request for the agent's own path comes back. -/
theorem convertsBack_agent : ConvertsBack moduleAgent
      (coapSetHeaderUriPath moduleAgent (coapInitMessage .con coapGet 0)) 7 none :=
  (convertsBack_iff moduleAgent _ none (by decide) (by decide)).mpr (by decide)

/-- A response with a payload, and a request for a path of another module, are not
read back. -/
theorem convertsBack_content_fails :
    ¬ ConvertsBack moduleAgent (coapSetPayload [1] (coapInitMessage .ack content205 0)) 7 none ∧
    ¬ ConvertsBack moduleAgent (coapSetHeaderUriPath ⟨[0x6D, 0x6F, 0x64], by decide⟩
      (coapInitMessage .con coapGet 0)) 7 none := by
  constructor
  · rintro ⟨back, converts, -⟩
    rw [convertBusMsgToCoap_response moduleAgent _ none (by decide) (by decide)] at converts
    cases converts
  · rintro ⟨back, converts, -, path, -⟩
    obtain ⟨other, converts', -, path', -⟩ := @convertBusMsgToCoap_request moduleAgent
      (coapSetHeaderUriPath ⟨[0x6D, 0x6F, 0x64], by decide⟩ (coapInitMessage .con coapGet 0)) 7 none
      (by decide) (by decide)
    rw [converts'] at converts
    cases converts
    exact absurd (path.symm.trans path') (by decide)

end Idrm.Bus
