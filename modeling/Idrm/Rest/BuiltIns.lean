import Idrm.Coap.LargeMessages
import Idrm.Lib.Decimal
import Idrm.Rest.Discovery
import Idrm.Rest.Replies

/-!
# The resources of the agent

The agent registers its version, the state of its link and a reset beside the listing, and serves
the requests of the cloud over `serve_request_from_tcp`. The offset that the resources leave to say
that nothing is behind is there taken for a length, of which 16 bits are left: zero.
-/

namespace Idrm.Rest

open Idrm.Lib Idrm.Coap Option List

variable {E : Type}

/-- `version_get_handler` -/
def versionGetHandler (version : Int) : RestfulHandler E := fun _ _ response buffer _ _ app =>
  (storeAll buffer 0 (printInt version ++ [0])).map fun buffer =>
    (coapSetHeaderContentFormat 0
      (coapSetPayload (buffer.take ((printInt version).length + 1)) response), -1, app)

/-- `get_ilink_handle`, with the JSON text of the state of the link. -/
def getIlinkHandle (status : E → Option CString) : RestfulHandler E :=
  fun _ _ response buffer _ _ app =>
  match status app with
  | none => some (response, -1, app)
  | some text =>
    (storeAll buffer 0 text.terminated).map fun buffer =>
      (coapSetPayload (buffer.take (text.bytes.length + 1)) response, -1, app)

/-- `set_reset_handle`, which starts a command. -/
def setResetHandle : RestfulHandler E :=
  fun _ _ response _ _ offset app => some (response, offset, app)

/-- A resource with a handler for `GET` alone. -/
def readOnly (url : CString) (address : Nat) (handler : RestfulHandler E) : Resource E :=
  ⟨⟨url, false, some .empty⟩, address, some handler, none, none, none⟩

/-- `iagent/version` -/
def versionUrl : CString :=
  .ofBytes [105, 97, 103, 101, 110, 116, 47, 118, 101, 114, 115, 105, 111, 110]
/-- `ilink` -/
def ilinkUrl : CString := .ofBytes [105, 108, 105, 110, 107]
/-- `reset` -/
def resetUrl : CString := .ofBytes [114, 101, 115, 101, 116]

/-- The activations of `init_agent`. -/
def agentActivations (version : Int) (status : E → Option CString) : List (Resource E × CString) :=
  [(readOnly .empty 1 (versionGetHandler version), versionUrl),
    (readOnly .empty 2 (getIlinkHandle status), ilinkUrl),
    (readOnly .empty 3 setResetHandle, resetUrl)]

/-- The resources of the agent. -/
def agentServices (version : Int) (status : E → Option CString) : List (Resource E) :=
  [activeWellKnownCore 0, readOnly versionUrl 1 (versionGetHandler version),
    readOnly ilinkUrl 2 (getIlinkHandle status), readOnly resetUrl 3 setResetHandle]

theorem agent_runs (version : Int) (status : E → Option CString)
    {engine : Engine E} (down : engine.initialized = false) : Runs (agentServices version status)
      (activateAll (agentActivations version status) (restInitEngine 0 engine)) := by
  rw [restInitEngine, if_neg (by rw [down]; exact Bool.false_ne_true)]
  exact ⟨rfl, rfl⟩

/-! ## What the resources leave -/

/-- A response with content, and without the strings of a request. -/
structure Plain (request response : Packet) : Prop where
  wire : Answer response
  code : response.code = content205
  token : response.token = request.token
  uriHost : response.uriHost = []
  uriPath : response.uriPath = []
  uriQuery : response.uriQuery = []

/-- The memory at the buffer of a handler, behind the room for the header. -/
def tcpBufferSize : Nat := 4096 - coapMaxHeaderSize

/-- A handler that is done when it returns. -/
def Finishes (handler : RestfulHandler E) (services : List Service) (path : List UInt8) : Prop :=
  ∀ (request response : Packet) (buffer : List UInt8) (app : E) (answered : Packet)
    (newOffset : Int32) (after : E),
    Plain request response → buffer.length = tcpBufferSize → coapGetHeaderUriPath request = path →
    handler services request response buffer 4096 0 app = some (answered, newOffset, after) →
    Plain request answered ∧ newOffset.toInt ≤ 0

section Finish

variable {request response : Packet}

theorem plain_started (type : CoapMessageType) (mid : UInt16) (request : Packet) :
    Plain request (started type mid request.token) :=
  ⟨answer_started type mid request.token, rfl, rfl, rfl, rfl, rfl⟩

theorem Plain.setPayload (plain : Plain request response) (payload : List UInt8) :
    Plain request (coapSetPayload payload response) :=
  ⟨plain.wire.setPayload payload, plain.code, plain.token, plain.uriHost,
    plain.uriPath, plain.uriQuery⟩

theorem Plain.setContentFormat (plain : Plain request response) (format : UInt32) :
    Plain request (coapSetHeaderContentFormat format response) :=
  ⟨plain.wire.setContentFormat format, plain.code, plain.token, plain.uriHost,
    plain.uriPath, plain.uriQuery⟩

theorem versionGetHandler_finishes (version : Int) (services : List Service) (path : List UInt8) :
    Finishes (versionGetHandler version : RestfulHandler E) services path := by
  intro request response buffer app answered newOffset after plain length isPath result
  obtain ⟨written, -, done⟩ := map_eq_some_iff.mp result
  obtain ⟨rfl, rest⟩ := Prod.mk.inj done
  obtain ⟨rfl, -⟩ := Prod.mk.inj rest
  exact ⟨(plain.setPayload _).setContentFormat 0, by decide⟩

theorem getIlinkHandle_finishes (status : E → Option CString) (services : List Service)
    (path : List UInt8) : Finishes (getIlinkHandle status) services path := by
  intro request response buffer app answered newOffset after plain length isPath result
  rw [getIlinkHandle] at result
  split at result
  · obtain ⟨rfl, done⟩ := Prod.mk.inj (some.inj result)
    obtain ⟨rfl, -⟩ := Prod.mk.inj done
    exact ⟨plain, by decide⟩
  · obtain ⟨written, -, done⟩ := map_eq_some_iff.mp result
    obtain ⟨rfl, rest⟩ := Prod.mk.inj done
    obtain ⟨rfl, -⟩ := Prod.mk.inj rest
    exact ⟨plain.setPayload _, by decide⟩

theorem setResetHandle_finishes (services : List Service) (path : List UInt8) :
    Finishes (setResetHandle : RestfulHandler E) services path := by
  intro request response buffer app answered newOffset after plain length isPath result
  obtain ⟨rfl, done⟩ := Prod.mk.inj (some.inj result)
  obtain ⟨rfl, -⟩ := Prod.mk.inj done
  exact ⟨plain, by decide⟩

/-- A listing that fits is done. -/
theorem wellKnownCore_finishes {services : List Service}
    {path : List UInt8} (short : (listingText path services).length < tcpBufferSize) :
    Finishes (E := E) wellKnownCoreGetHandler services path := by
  intro request response buffer app answered newOffset after plain length isPath result
  rw [← length] at short
  have start : (0 : Int32).toInt = (0 : Nat) := rfl
  have fits : min (4096 : UInt16).toNat
      (((services.filter (·.covers path)).foldl addedTo []).length - 0) < buffer.length := by
    rw [listingText] at short
    omega
  obtain ⟨next, broke, listed, spec⟩ :=
    (shows_empty 0 (4096 : UInt16).toNat buffer).listServices start (by decide) (Nat.zero_le _) fits
  cases broke with
  | true =>
    have longer : _ ∧ 0 + (4096 : UInt16).toNat <
      ((services.filter (·.covers path)).foldl addedTo []).length := spec
    rw [listingText] at short
    have most : buffer.length ≤ 0 + (4096 : UInt16).toNat := by
      rw [length]
      decide
    omega
  | false =>
    rw [wellKnownCoreGetHandler, isPath, listed, map_some] at result
    obtain ⟨rfl, rest⟩ := Prod.mk.inj (some.inj result)
    obtain ⟨rfl, -⟩ := Prod.mk.inj rest
    have shows : Shows _ _ _ _ _ ∧ _ := spec
    have strpos := shows.1.strpos
    have bufpos := shows.1.bufpos
    refine ⟨?_, by decide⟩
    split
    · exact (plain.setPayload _).setContentFormat applicationLinkFormat
    · rename_i nothing
      have unlisted : ¬next.strpos > 0 := by
        rw [strpos]
        have size : (4096 : UInt16).toNat = 4096 := rfl
        omega
      rw [if_neg unlisted]
      exact plain

end Finish

/-! ## Over TCP -/

/-- An offset that is no start of a block leaves no length. -/
theorem offsetLength_done {offset : Int32} (done : offset.toInt ≤ 0) : offsetLength offset = 0 := by
  have least := offset.le_toInt
  rw [offsetLength, asSize]
  omega

theorem coapSerializeMessageTcp_code {packet left : Packet} {bytes : List UInt8}
    (written : coapSerializeMessageTcp packet = some (bytes, left)) : left.code = packet.code := by
  unfold coapSerializeMessageTcp at written
  simp only at written
  split at written
  · exact (Prod.mk.inj (some.inj written)).2 ▸ rfl
  · split at written
    · cases written
    · exact (Prod.mk.inj (some.inj written)).2 ▸ rfl

theorem tcpLength_extension (len : UInt32) : (tcpLength len).2.length ≤ 4 := by
  unfold tcpLength
  split
  · simp
  · split
    · simp
    · split <;> simp

section Tcp

variable {request response : Packet} {engine : Engine E} {buffer packet : List UInt8}
  {after : Engine E}

/-- A response without payload that survives the wire. -/
theorem Plain.arrives (plain : Plain request response) :
    ∃ message left, coapSerializeMessageTcp { response with payload := [] } = some (message, left) ∧
    message.length ≠ 0 ∧
      ∃ parsed, coapParseMessageTcp message = some (.ok parsed) ∧
      (received parsed).code = content205 ∧
      (request.token.bytes ≠ [] → (received parsed).token.bytes = request.token.bytes) ∧
      (received parsed).payload = [] := by
  have wire : Answer { response with payload := [] } := plain.wire.setPayload []
  have options := wire.brief.serializeOptions_length
  have body : contentLength { response with payload := [] } ≤ 171 := by
    have marker : payloadMarker { response with payload := ([] : List UInt8) } = [] := rfl
    rw [contentLength, messageBody, marker, append_nil, append_nil]
    exact options
  have fits : FitsTcp { response with payload := [] } := by
    have marker : payloadMarker { response with payload := ([] : List UInt8) } = [] := rfl
    refine ⟨?_, ?_⟩
    · show response.uriHost.length + response.uriPath.length + response.uriQuery.length ≤ 448
      rw [plain.uriHost, plain.uriPath, plain.uriQuery]
      decide
    · rw [marker, append_nil]
      omega
  obtain ⟨message, left, written, parses⟩ :=
    coapSerializeMessageTcp_roundTrip wire.expressible fits (by omega)
  have isMessage : message = tcpMessage { response with payload := [] } := by
    rw [coapSerializeMessageTcp_fits fits] at written
    exact (Prod.mk.inj (some.inj written)).1.symm
  have length := tcpMessage_length { response with payload := [] }
  have extension :=
    tcpLength_extension (UInt32.ofNat (contentLength { response with payload := [] }))
  have token := (tcpToken { response with payload := [] }).bounded
  obtain ⟨parsed, accepted, code, tokenBack, -, payload⟩ := parses (by rw [isMessage]; omega)
  refine ⟨message, left, written, by rw [isMessage]; omega, parsed, accepted, code.trans plain.code,
    fun filled => ?_, payload⟩
  rw [tokenBack]
  show (if response.token.bytes = [] then midBytes response.mid else response.token.bytes) =
    request.token.bytes
  rw [plain.token, if_neg filled]

/-- Whatever the handler has set, the payload of a request it has finished does not get out. -/
theorem serveRequestFromTcp_finished {path : List UInt8}
    (isPath : coapGetHeaderUriPath request = path)
    (finishes : ∀ handler, engine.handlerOf request = some handler →
      Finishes handler (engine.restfulServices.map Resource.toService) path)
    (room : buffer.length = tcpBufferSize)
    (result : serveRequestFromTcp buffer request engine = some (true, packet, after)) :
    ∃ parsed, coapParseMessageTcp packet = some (.ok parsed) ∧ (received parsed).code = content205 ∧
    (request.token.bytes ≠ [] → (received parsed).token.bytes = request.token.bytes) ∧
    (received parsed).payload = [] := by
  obtain ⟨type, mid, currentMid, prepared, -⟩ := prepare_spec request engine
  rw [serveRequestFromTcp, prepared] at result
  simp only at result
  cases handlerIs : engine.handlerOf request with
  | none =>
    have missing : { engine with currentMid := currentMid }.handlerOf request = none := handlerIs
    obtain ⟨code, called⟩ := serviceCbk_none missing (started type mid request.token) buffer 4096 0
    rw [called, bind_some] at result
    simp only [Bool.false_eq_true, if_false] at result
    obtain ⟨⟨message, left⟩, written, sent⟩ := map_eq_some_iff.mp result
    have isServed : decide (left.code ≠ notImplemented501) = true := (Prod.mk.inj sent).1
    exact absurd (coapSerializeMessageTcp_code written) (of_decide_eq_true isServed)
  | some handler =>
    have has : { engine with currentMid := currentMid }.handlerOf request = some handler :=
      handlerIs
    rw [serviceCbk_some has, bind_map] at result
    obtain ⟨⟨response, newOffset, app⟩, handled, sent⟩ := bind_eq_some_iff.mp result
    obtain ⟨plain, done⟩ := finishes handler handlerIs request (started type mid request.token)
      buffer engine.app response newOffset app (plain_started type mid request) room isPath handled
    obtain ⟨message, left, written, nonempty, parses⟩ := plain.arrives
    have nothing : offsetLength newOffset = 0 := offsetLength_done done
    simp only [Function.comp, if_true, nothing, Nat.zero_le, take_zero, written, bind_some,
      if_neg nonempty] at sent
    obtain ⟨-, packetIs⟩ := Prod.mk.inj (some.inj sent)
    obtain ⟨rfl, -⟩ := Prod.mk.inj packetIs
    exact parses

/-- What the resources of the agent say about themselves. -/
def agentListing : List Service :=
  [⟨wellKnownCoreUrl, false, some (.ofBytes [99, 116, 61, 52, 48])⟩,
    ⟨versionUrl, false, some .empty⟩,
    ⟨ilinkUrl, false, some .empty⟩, ⟨resetUrl, false, some .empty⟩]

/-- A resource with a handler for `GET` alone has no other one. -/
theorem getOnly {resource : Resource E}
    {handler : RestfulHandler E} (post : resource.postHandler = none)
    (put : resource.putHandler = none) (delete : resource.deleteHandler = none)
    (handles : resource.handlerFor request = some handler) :
    resource.getHandler = some handler := by
  simp only [Resource.handlerFor, post, put, delete, isSome_none, Bool.false_eq_true, and_false,
    if_false] at handles
  split at handles
  · exact handles
  · cases handles

/-- Without sub-resources a url covers its own path alone. -/
theorem path_of_covers {service : Service}
    {path : List UInt8} (single : service.hasSubResources = false)
    (covers : service.covers path = true) : path = service.url.bytes := by
  rw [Service.covers, single] at covers
  simp only [Bool.and_false, Bool.false_and, Bool.or_false, Bool.and_eq_true,
    decide_eq_true_eq] at covers
  exact ((List.isPrefixOf_iff_prefix.mp covers.2).eq_of_length covers.1.symm).symm

/-- Every request that the resources of the agent serve over TCP is answered without a payload. -/
theorem agent_servesEmpty {version : Int} {status : E → Option CString}
    (runs : Runs (agentServices version status) engine) (room : buffer.length = tcpBufferSize)
    (result : serveRequestFromTcp buffer request engine = some (true, packet, after)) :
    ∃ parsed, coapParseMessageTcp packet = some (.ok parsed) ∧ (received parsed).code = content205 ∧
    (request.token.bytes ≠ [] → (received parsed).token.bytes = request.token.bytes) ∧
    (received parsed).payload = [] := by
  refine serveRequestFromTcp_finished rfl (fun handler has => ?_) room result
  rw [Engine.handlerOf, if_pos runs.initialized, runs.services] at has
  rw [runs.services]
  obtain ⟨resource, found, handles⟩ := bind_eq_some_iff.mp has
  have covers := List.find?_some found
  have member := mem_of_find?_eq_some found
  simp only [agentServices, mem_cons, not_mem_nil, or_false] at member
  rcases member with rfl | rfl | rfl | rfl
  · obtain rfl := some.inj (getOnly rfl rfl rfl handles)
    refine wellKnownCore_finishes ?_
    rw [path_of_covers rfl covers]
    show (listingText wellKnownCoreUrl.bytes agentListing).length < tcpBufferSize
    decide
  · obtain rfl := some.inj (getOnly rfl rfl rfl handles)
    exact versionGetHandler_finishes version _ _
  · obtain rfl := some.inj (getOnly rfl rfl rfl handles)
    exact getIlinkHandle_finishes status _ _
  · obtain rfl := some.inj (getOnly rfl rfl rfl handles)
    exact setResetHandle_finishes _ _

/-- The version, asked for with a token. -/
theorem agent_servesEmpty_version : ∃ packet after parsed,
    serveRequestFromTcp (List.replicate 3584 0)
        (coapSetToken [1] (coapSetHeaderUriPath versionUrl (coapInitMessage .con coapGet 7)))
        (activateAll (agentActivations 1 fun _ => none) (restInitEngine 0 ⟨false, [], 0, [], ()⟩)) =
      some (true, packet, after) ∧
    coapParseMessageTcp packet = some (.ok parsed) ∧ (received parsed).payload = [] := by
  have served : (serveRequestFromTcp (List.replicate 3584 0)
      (coapSetToken [1] (coapSetHeaderUriPath versionUrl (coapInitMessage .con coapGet 7)))
      (activateAll (agentActivations 1 fun _ => none)
      (restInitEngine 0 ⟨false, [], 0, [], ()⟩))).map Prod.fst = some true := by
    decide +kernel
  obtain ⟨⟨isServed, packet, after⟩, result, isTrue⟩ := map_eq_some_iff.mp served
  obtain rfl : isServed = true := isTrue
  obtain ⟨parsed, accepted, -, -, payload⟩ :=
    agent_servesEmpty (agent_runs 1 (fun _ => none) rfl) length_replicate result
  exact ⟨packet, after, parsed, result, accepted, payload⟩

end Tcp

end Idrm.Rest
