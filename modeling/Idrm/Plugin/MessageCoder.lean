import Idrm.Bus.Message

/-!
# The message coder of the plugin SDK

Requests, events and responses are written to bus messages property by property and
read back the same way. Numbers pass through `%d` and `atoi`: a message id, an
`unsigned long`, keeps its low half only, read as an `int`.
-/

namespace Idrm.Plugin

open Idrm.Lib Idrm.Bus

/-- `restful_request_t`; an action of -1 is `none`. -/
structure RestfulRequest where
  action : Option Nat
  payloadFmt : Int32
  payload : List UInt8
  url : Option CString
  query : Option CString
  srcModule : Option CString
  mid : UInt64
deriving DecidableEq

/-- `restful_response_t` -/
structure RestfulResponse where
  mid : UInt64
  code : Int32
  payloadFmt : Int32
  payload : List UInt8
  destModule : Option CString
deriving DecidableEq

/-- `bus_event_t` -/
structure BusEvent where
  payloadFmt : Int32
  payload : List UInt8
  url : Option CString
  query : Option CString
  srcModule : Option CString
deriving DecidableEq

/-- An `int` as an `unsigned long`. -/
def unsignedLong (value : Int32) : UInt64 := value.toInt64.toUInt64

/-- What `%d` writes for an `unsigned long`. -/
def midString (mid : UInt64) : CString := decimal mid.toUInt32.toInt32.toInt

/-- `encode_request` -/
def encodeRequest (request : RestfulRequest) : BusMessage :=
  let properties : Properties := fun _ => none
  let properties := properties.addOrUpdate .tag tagRestReq
  let properties :=
    properties.addIf (decide (request.payloadFmt ≠ -1)) .fmt (restFmtStr request.payloadFmt)
  let properties := properties.addGiven .src request.srcModule
  let properties := properties.addOrUpdate .mid (midString request.mid)
  let properties := properties.addGiven .uri request.url
  let properties := properties.addGiven .query request.query
  let properties :=
    properties.addOrUpdate .action ((request.action.map restActionStr).getD unknownAction)
  ⟨properties, request.payload⟩

/-- What `decode_request` fills in. -/
def decodeRequest (message : BusMessage) : RestfulRequest where
  action := (message.properties .action).bind actionFromString
  payloadFmt := ((message.properties .fmt).map atoi).getD (-1)
  payload := message.content
  url := message.properties .uri
  query := message.properties .query
  srcModule := message.properties .src
  mid := ((message.properties .mid).map (unsignedLong ∘ atoi)).getD (-1)

/-- What `decode_request` returns. -/
def decodeRequestRet (message : BusMessage) : Bool :=
  (message.properties .uri).isSome && (message.properties .fmt).isSome &&
    (message.properties .action).isSome

/-- `encode_response` -/
def encodeResponse (response : RestfulResponse) : BusMessage :=
  let properties : Properties := fun _ => none
  let properties := properties.addOrUpdate .tag tagRestResp
  let properties := properties.addOrUpdate .respCode (decimal response.code.toInt)
  let properties := properties.addOrUpdate .mid (midString response.mid)
  let properties :=
    properties.addIf (decide (response.payloadFmt ≠ -1)) .fmt (restFmtStr response.payloadFmt)
  ⟨properties.addGiven .dest response.destModule, response.payload⟩

/-- `decode_response`, into a structure that holds `response`. The code is not read. -/
def decodeResponseInto (response : RestfulResponse) (message : BusMessage) : RestfulResponse :=
  { response with
    mid := ((message.properties .mid).map (unsignedLong ∘ atoi)).getD response.mid
    payload := message.content
    destModule := message.properties .dest
    payloadFmt := ((message.properties .fmt).map atoi).getD (-1) }

/-- `decode_response`, into a structure of zeros. -/
def decodeResponse (message : BusMessage) : RestfulResponse :=
  decodeResponseInto ⟨0, 0, 0, [], none⟩ message

/-- `encode_event` -/
def encodeEvent (event : BusEvent) : BusMessage :=
  let properties : Properties := fun _ => none
  let properties := properties.addOrUpdate .tag tagEvent
  let properties :=
    properties.addIf (decide (event.payloadFmt ≠ -1)) .fmt (restFmtStr event.payloadFmt)
  let properties := properties.addGiven .src event.srcModule
  let properties := properties.addGiven .uri event.url
  ⟨properties.addGiven .query event.query, event.payload⟩

/-- What `decode_event` fills in. -/
def decodeEvent (message : BusMessage) : BusEvent where
  payloadFmt := ((message.properties .fmt).map atoi).getD (-1)
  payload := message.content
  url := message.properties .uri
  query := message.properties .query
  srcModule := message.properties .src

/-- What `decode_event` returns. -/
def decodeEventRet (message : BusMessage) : Bool :=
  (message.properties .uri).isSome && (message.properties .fmt).isSome

/-! ## Numbers -/

/-- The format as it is read: one that was not written is -1, like the one that is not written. -/
theorem atoi_fmt (fmt : Int32) :
    ((if decide (fmt ≠ -1) = true then some (restFmtStr fmt) else none).map atoi).getD
      (-1) = fmt := by
  by_cases absent : fmt = -1
  · rw [if_neg (by simp [absent]), absent]
    rfl
  · rw [if_pos (by simp [absent]), Option.map_some, atoi_restFmtStr]
    rfl

/-- A message id read back is the sign extension of its low half. -/
theorem unsignedLong_midString (mid : UInt64) :
    unsignedLong (atoi (midString mid)) = mid.toUInt32.toInt32.toInt64.toUInt64 := by
  rw [midString, atoi_decimal (Int32.le_toInt _) (Int32.toInt_lt _),
    Int32.ofInt_toInt, unsignedLong]

/-- The message ids that are read back as they were. -/
def HeldByInt (mid : UInt64) : Prop := mid.toNat < 2 ^ 31 ∨ 2 ^ 64 - 2 ^ 31 ≤ mid.toNat

instance : DecidablePred HeldByInt := fun mid =>
  inferInstanceAs (Decidable (mid.toNat < 2 ^ 31 ∨ 2 ^ 64 - 2 ^ 31 ≤ mid.toNat))

theorem unsignedLong_midString_iff (mid : UInt64) : unsignedLong (atoi (midString mid)) = mid ↔
    HeldByInt mid := by
  have low :
    mid.toUInt32.toInt32.toInt64.toUInt64.toBitVec = (mid.toBitVec.setWidth 32).signExtend 64 := rfl
  have extended : ((mid.toBitVec.setWidth 32).signExtend 64).toNat =
      mid.toNat % 2 ^ 32 + if 2 ^ 31 ≤ mid.toNat % 2 ^ 32 then 2 ^ 64 - 2 ^ 32 else 0 := by
    rw [BitVec.toNat_signExtend, BitVec.msb_eq_decide]
    simp
    omega
  have bounded := mid.toNat_lt
  rw [unsignedLong_midString, HeldByInt, ← UInt64.toBitVec_inj, low, ← BitVec.toNat_inj, extended,
    UInt64.toNat_toBitVec]
  split <;> omega

/-! ## Round trips -/

/-- The properties of a request. -/
theorem encodeRequest_properties (request : RestfulRequest) (key : BusKey) :
    (encodeRequest request).properties key =
      match key with
      | .tag => some tagRestReq
      | .fmt => if decide (request.payloadFmt ≠ -1) = true then
          some (restFmtStr request.payloadFmt) else none
      | .src => request.srcModule
      | .mid => some (midString request.mid)
      | .uri => request.url
      | .query => request.query
      | .action => some ((request.action.map restActionStr).getD unknownAction)
      | .dest | .respCode | .tm => none := by
  obtain ⟨action, payloadFmt, payload, url, query, srcModule, mid⟩ := request
  cases url <;> cases query <;> cases srcModule <;> cases key <;> simp [encodeRequest]

/-- The properties of an event. -/
theorem encodeEvent_properties (event : BusEvent) (key : BusKey) :
    (encodeEvent event).properties key =
      match key with
      | .tag => some tagEvent
      | .fmt => if decide (event.payloadFmt ≠ -1) = true then
          some (restFmtStr event.payloadFmt) else none
      | .src => event.srcModule
      | .uri => event.url
      | .query => event.query
      | .mid | .action | .dest | .respCode | .tm => none := by
  obtain ⟨payloadFmt, payload, url, query, srcModule⟩ := event
  cases url <;> cases query <;> cases srcModule <;> cases key <;> simp [encodeEvent]

/-- The properties of a response. -/
theorem encodeResponse_properties (response : RestfulResponse) (key : BusKey) :
    (encodeResponse response).properties key =
      match key with
      | .tag => some tagRestResp
      | .respCode => some (decimal response.code.toInt)
      | .mid => some (midString response.mid)
      | .fmt => if decide (response.payloadFmt ≠ -1) = true then
          some (restFmtStr response.payloadFmt) else none
      | .dest => response.destModule
      | .uri | .query | .action | .src | .tm => none := by
  obtain ⟨mid, code, payloadFmt, payload, destModule⟩ := response
  cases destModule <;> cases key <;> simp [encodeResponse]

/-- What a request with an action is read back as: only its message id may differ. -/
theorem decodeRequest_encodeRequest {request : RestfulRequest}
    {action : Nat} (acts : request.action = some action)
    (least : 1 ≤ action) (most : action ≤ 4) : decodeRequest (encodeRequest request) =
      { request with mid := unsignedLong (atoi (midString request.mid)) } := by
  obtain ⟨_, payloadFmt, payload, url, query, srcModule, mid⟩ := request
  cases acts
  simp only [decodeRequest, encodeRequest_properties, Option.map_some, Option.getD_some,
    Option.bind_some, Function.comp_apply, atoi_fmt, actionFromString_restActionStr least most]
  rfl

/-- An event with a url and a format comes back as it was. -/
theorem decodeEvent_encodeEvent {event : BusEvent}
    (url : event.url.isSome = true) (fmt : event.payloadFmt ≠ -1) :
    decodeEventRet (encodeEvent event) = true ∧ decodeEvent (encodeEvent event) = event := by
  constructor
  · simp [decodeEventRet, encodeEvent_properties, url, fmt]
  · simp only [decodeEvent, encodeEvent_properties, atoi_fmt]
    rfl

/-- A request comes back as it was if an `int` holds its message id, and only then; an event always
does. -/
theorem request_event_roundTrip {request : RestfulRequest}
    {action : Nat} (acts : request.action = some action) (least : 1 ≤ action)
    (most : action ≤ 4) (url : request.url.isSome = true) (fmt : request.payloadFmt ≠ -1)
    {event : BusEvent} (eventUrl : event.url.isSome = true) (eventFmt : event.payloadFmt ≠ -1) :
    ((decodeRequestRet (encodeRequest request) = true ∧
      decodeRequest (encodeRequest request) = request) ↔ HeldByInt request.mid) ∧
    decodeEventRet (encodeEvent event) = true ∧ decodeEvent (encodeEvent event) = event := by
  refine ⟨?_, decodeEvent_encodeEvent eventUrl eventFmt⟩
  have returns : decodeRequestRet (encodeRequest request) = true := by
    simp [decodeRequestRet, encodeRequest_properties, url, fmt]
  rw [decodeRequest_encodeRequest acts least most, ← unsignedLong_midString_iff]
  constructor
  · rintro ⟨-, same⟩
    exact congrArg RestfulRequest.mid same
  · intro same
    refine ⟨returns, ?_⟩
    rw [same]

/-- `"/a"` -/
def sampleUrl : CString := ⟨[0x2F, 0x61], by decide⟩

/-- A `GET` of `"/a"` with a message id. -/
def sampleRequest (mid : UInt64) : RestfulRequest :=
  ⟨some 1, 50, [0x7B, 0x7D], some sampleUrl, none, none, mid⟩

theorem request_event_roundTrip_sample :
    (sampleRequest 7).action = some 1 ∧ HeldByInt (sampleRequest 7).mid ∧
    decodeRequestRet (encodeRequest (sampleRequest 7)) = true ∧
    decodeRequest (encodeRequest (sampleRequest 7)) = sampleRequest 7 ∧
    decodeEvent (encodeEvent ⟨50, [0x31], some sampleUrl, none, none⟩) = ⟨50, [0x31],
      some sampleUrl, none, none⟩ := by
  have held : HeldByInt (sampleRequest 7).mid := by decide
  have both := @request_event_roundTrip (sampleRequest 7) 1 rfl (by decide)
    (by decide) rfl (by decide)
    ⟨50, [0x31], some sampleUrl, none, none⟩ rfl (by decide)
  exact ⟨rfl, held, (both.1.mpr held).1, (both.1.mpr held).2, both.2.2⟩

/-- The message id `2 ^ 31` comes back as `2 ^ 64 - 2 ^ 31`. -/
theorem request_roundTrip_half_fails :
    (sampleRequest 0x80000000).mid.toNat < 2 ^ 32 ∧
      (decodeRequest (encodeRequest (sampleRequest 0x80000000))).mid = 0xFFFFFFFF80000000 ∧
      decodeRequest (encodeRequest (sampleRequest 0x80000000)) ≠ sampleRequest 0x80000000 := by
  have back : decodeRequest (encodeRequest (sampleRequest 0x80000000)) =
      { sampleRequest 0x80000000 with
        mid := unsignedLong (atoi (midString (sampleRequest 0x80000000).mid)) } :=
    decodeRequest_encodeRequest rfl (by decide) (by decide)
  have mid :
      unsignedLong (atoi (midString (sampleRequest 0x80000000).mid)) = 0xFFFFFFFF80000000 := by
    rw [unsignedLong_midString]
    decide
  rw [back, mid]
  refine ⟨by decide, rfl, fun same => ?_⟩
  exact absurd (congrArg RestfulRequest.mid same) (by decide)

/-- A response comes back as it was if the structure already held its code and an `int` holds its
message id, and only then. -/
theorem decodeResponseInto_encodeResponse_iff (previous response : RestfulResponse) :
    decodeResponseInto previous (encodeResponse response) = response ↔
      previous.code = response.code ∧ HeldByInt response.mid := by
  obtain ⟨mid, code, payloadFmt, payload, destModule⟩ := response
  have back :
      decodeResponseInto previous (encodeResponse ⟨mid, code, payloadFmt, payload, destModule⟩) =
      ⟨unsignedLong (atoi (midString mid)), previous.code, payloadFmt, payload, destModule⟩ := by
    simp only [decodeResponseInto, encodeResponse_properties, atoi_fmt]
    rfl
  rw [back, ← unsignedLong_midString_iff, RestfulResponse.mk.injEq]
  constructor
  · rintro ⟨sameMid, sameCode, -⟩
    exact ⟨sameCode, sameMid⟩
  · rintro ⟨sameCode, sameMid⟩
    exact ⟨sameMid, sameCode, rfl, rfl, rfl⟩

/-- A response with the code 69 is read into a structure of zeros with the code 0. -/
theorem decodeResponse_code_fails :
    (decodeResponse (encodeResponse ⟨7, 69, 50, [0x31], none⟩)).code = 0 ∧ decodeResponseInto ⟨0, 0,
      0, [], none⟩ (encodeResponse ⟨7, 69, 50, [0x31], none⟩) ≠ ⟨7, 69, 50, [0x31], none⟩ := by
  refine ⟨rfl, fun same => ?_⟩
  exact absurd (congrArg RestfulResponse.code same) (by decide)

end Idrm.Plugin
