import Idrm.Rest.Blocks

/-!
# What a request is answered

A request nobody has a handler for and an upload in blocks that its handler knows nothing of are
answered alike, with `5.01`, and both are reported as not served; only the first has left the
application alone. `4.04` and `4.05` do not get out.
-/

namespace Idrm.Rest

open Idrm.Lib Idrm.Coap Option

variable {E : Type}

/-- The handler of the first resource that covers the path of a request, if it has one for its
method. -/
def Engine.handlerOf (request : Packet) (engine : Engine E) : Option (RestfulHandler E) :=
  if engine.initialized then
    (engine.restfulServices.find? fun resource => resource.covers
      (coapGetHeaderUriPath request)).bind (Resource.handlerFor request)
  else none

/-- Two responses of one exchange. -/
structure SameExchange (one other : Packet) : Prop where
  type : other.type = one.type
  mid : other.mid = one.mid
  token : other.token = one.token

/-- A handler that fills in the response it is given, and does not answer that it is not
implemented. -/
structure Conforms (handler : RestfulHandler E) : Prop where
  answer : ∀ {services request response buffer size offset app answered newOffset after},
    Answer response →
    handler services request response buffer size offset app = some (answered, newOffset, after) →
    Answer answered
  code : ∀ {services request response buffer size offset app answered newOffset after},
    response.code = content205 →
    handler services request response buffer size offset app = some (answered, newOffset, after) →
    answered.code ≠ 0 ∧ answered.code ≠ notImplemented501
  exchange : ∀ {services request response buffer size offset app answered newOffset after},
    handler services request response buffer size offset app = some (answered, newOffset, after) →
    SameExchange response answered

/-- What a handler makes of a request, called with a size and an offset. -/
def Handles (buffer : List UInt8) (size : UInt16) (offset : Int32) (request : Packet)
    (engine : Engine E) (response : Packet) (newOffset : Int32) (app : E) : Prop :=
  ∃ handler, engine.handlerOf request = some handler ∧
    handler (engine.restfulServices.map Resource.toService) request
    (engine.prepare request).1 buffer size offset engine.app = some (response, newOffset, app)

/-- An upload in blocks that a handler has taken for a whole one. -/
def MistakenUpload (request response : Packet) : Prop :=
  request.isOption .block1 = true ∧ response.code < badRequest400 ∧
    response.isOption .block1 = false

section Callback

variable {request response : Packet} {engine : Engine E} {handler : RestfulHandler E}

theorem serviceCbk_none (missing : engine.handlerOf request = none)
    (response : Packet) (buffer : List UInt8) (size : UInt16)
    (offset : Int32) : ∃ code, engine.serviceCbk request response buffer size offset =
      some (false, coapSetStatusCode code response, offset, engine.app) := by
  rw [Engine.handlerOf] at missing
  rw [Engine.serviceCbk]
  split at missing
  · rename_i initialized
    rw [if_pos initialized, restInvokeRestfulService]
    cases found : engine.restfulServices.find? fun resource =>
      resource.covers (coapGetHeaderUriPath request) with
    | none => exact ⟨notFound404, rfl⟩
    | some resource =>
      rw [found, bind_some] at missing
      simp only [missing]
      exact ⟨methodNotAllowed405, rfl⟩
  · rename_i down
    rw [if_neg down]
    exact ⟨response.code, rfl⟩

theorem serviceCbk_some (has : engine.handlerOf request = some handler) (response : Packet)
    (buffer : List UInt8) (size : UInt16)
    (offset : Int32) : engine.serviceCbk request response buffer size offset =
      (handler (engine.restfulServices.map Resource.toService) request response buffer size offset
      engine.app).map (true, ·) := by
  rw [Engine.handlerOf] at has
  rw [Engine.serviceCbk]
  split at has
  · rename_i initialized
    obtain ⟨resource, found, handles⟩ := bind_eq_some_iff.mp has
    rw [if_pos initialized, restInvokeRestfulService, found]
    simp only [handles]
  · cases has

end Callback

/-! ## Blocks -/

section Block

variable {request response : Packet}

/-- A block that a block option can hold. -/
structure FitsOption (block : Block) : Prop where
  number : block.num.toNat < 2 ^ 20
  size : BlockSize block.size
  least : 16 ≤ block.size.toNat
  most : block.size.toNat ≤ 2048

theorem fitsOption_chunk : FitsOption ⟨0, false, 1024, 0⟩ :=
  ⟨by decide, blockSize_chunk, by decide, by decide⟩

theorem fitsOption_requested (arrived : ∀ block, coapGetHeaderBlock2 request = some block →
      ArrivedBlock block) : FitsOption (requestedBlock2 request) := by
  rw [requestedBlock2]
  cases asks : coapGetHeaderBlock2 request with
  | none => exact fitsOption_chunk
  | some block =>
    obtain ⟨number, size, offset⟩ := arrived block asks
    have sizes := (arrived block asks).sizes
    by_cases below : block.size < 1024
    · exact ⟨number, by simpa only [if_pos below] using size,
        by simpa only [if_pos below] using sizes.1, by simpa only [if_pos below] using sizes.2⟩
    · exact ⟨number, by simpa only [if_neg below] using blockSize_chunk,
        by simp only [if_neg below]; decide, by simp only [if_neg below]; decide⟩

/-- An answer of the same exchange, with the code it had or with one that refuses the block. -/
structure Keeps (response answer : Packet) : Prop where
  wire : Answer answer
  exchange : SameExchange response answer
  code : answer.code = response.code ∨ answer.code = badOption402

theorem Keeps.payload {answer : Packet} (keeps : Keeps response answer) (payload : List UInt8) :
    Keeps response (coapSetPayload payload answer) :=
  ⟨keeps.wire.setPayload payload,
    ⟨keeps.exchange.type, keeps.exchange.mid, keeps.exchange.token⟩, keeps.code⟩

theorem keeps_setBlock2 (answer : Answer response) {block : Block} (fits : FitsOption block)
    (more : Bool) : Keeps response (coapSetHeaderBlock2 block.num more block.size response) := by
  refine ⟨answer_setBlock2 answer fits.number fits.size fits.least fits.most more, ?_, ?_⟩
  · rw [coapSetHeaderBlock2]
    split <;> exact ⟨rfl, rfl, rfl⟩
  · rw [coapSetHeaderBlock2]
    split <;> exact .inl rfl

theorem keeps_blockResponse (answer : Answer response)
    {block : Block} (fits : FitsOption block) (request : Packet)
    (newOffset : Int32) : Keeps response (blockResponse request block newOffset response) := by
  rw [blockResponse]
  simp only
  split
  · split
    · split
      · exact ⟨(answer.setStatusCode badOption402).setPayload _, ⟨rfl, rfl, rfl⟩, .inr rfl⟩
      · exact (keeps_setBlock2 answer fits _).payload _
    · split
      · exact (keeps_setBlock2 answer fits _).payload _
      · exact keeps_setBlock2 answer fits _
  · split
    · split
      · exact (keeps_setBlock2 answer fitsOption_chunk _).payload _
      · exact keeps_setBlock2 answer fitsOption_chunk _
    · exact ⟨answer, ⟨rfl, rfl, rfl⟩, .inl rfl⟩

end Block

/-! ## Replies -/

section Reply

variable {request : Packet} {engine : Engine E} {buffer : List UInt8}

/-- What is sent for a request that is not served. -/
def refusal (message : List UInt8) (response : Packet) : Packet :=
  coapSetPayload message (coapSetStatusCode notImplemented501 response)

theorem sendServed_error {response : Packet}
    (answer : Answer response) (message : List UInt8) (engine : Engine E) :
    sendServed (.error (notImplemented501, message)) response engine = some (false,
      udpMessage (refusal message response), { engine with coapErrorMessage := message }) := by
  have wire : Answer (refusal message response) :=
    (answer.setStatusCode notImplemented501).setPayload message
  have nonzero : (refusal message response).code ≠ 0 := (by decide : notImplemented501 ≠ 0)
  have errorResponse : Engine.errorResponse notImplemented501 response
    { engine with coapErrorMessage := message } = refusal message response := rfl
  simp only [sendServed, errorResponse]
  rw [wire.serialized nonzero]
  rfl

/-- What is reported of a request, and what has become of the application. -/
structure Reported (buffer : List UInt8) (request : Packet) (engine : Engine E) (served : Bool)
    (reply : Packet) (app : E) : Prop where
  wire : Answer reply
  token : reply.token = request.token
  reported : served = true ↔ reply.code ≠ notImplemented501
  missing : engine.handlerOf request = none →
    served = false ∧ reply.payload = noServiceCallbck ∧ app = engine.app
  handled : ∀ response newOffset after, Handles buffer (requestedBlock2 request).size
    (requestedBlock2 request).offset.toInt32 request engine response newOffset after →
    app = after ∧ (served = true ↔ ¬MistakenUpload request response) ∧
    (served = false → reply.payload = noBlock1Support)

/-- A request is reported as not served exactly if there is no handler for it or it is an upload in
blocks that its handler has taken for a whole one. In the first case the application is as it was,
in the second the handler has run. -/
theorem serveRequest_reported
      (arrived : ∀ block, coapGetHeaderBlock2 request = some block → ArrivedBlock block)
    (conforms : ∀ handler, engine.handlerOf request = some handler → Conforms handler)
    {served : Bool} {packet : List UInt8} {after : Engine E}
    (result : serveRequest buffer request engine = some (served, packet, after)) :
    ∃ reply, packet = udpMessage reply ∧ Reported buffer request engine served reply after.app := by
  obtain ⟨type, mid, currentMid, prepared, -⟩ := prepare_spec request engine
  have start := answer_started type mid request.token
  rw [serveRequest, prepared] at result
  simp only at result
  cases handlerIs : engine.handlerOf request with
  | none =>
    have missing : { engine with currentMid := currentMid }.handlerOf request = none := handlerIs
    obtain ⟨code, called⟩ := serviceCbk_none missing (started type mid request.token) buffer
      (requestedBlock2 request).size (requestedBlock2 request).offset.toInt32
    rw [called, bind_some] at result
    simp only [servedResponse, Bool.false_eq_true, if_false] at result
    rw [sendServed_error (start.setStatusCode code)] at result
    obtain ⟨rfl, sent⟩ := Prod.mk.inj (some.inj result)
    obtain ⟨rfl, rfl⟩ := Prod.mk.inj sent
    refine ⟨_, rfl, ⟨((start.setStatusCode code).setStatusCode notImplemented501).setPayload _,
      rfl, ?_, ?_, ?_⟩⟩
    · exact ⟨fun isServed => absurd isServed Bool.false_ne_true,
        fun implemented => absurd rfl implemented⟩
    · exact fun _ => ⟨rfl, rfl, rfl⟩
    · rintro response newOffset app ⟨handler, has, -⟩
      rw [handlerIs] at has
      cases has
  | some handler =>
    have has : { engine with currentMid := currentMid }.handlerOf request = some handler :=
      handlerIs
    rw [serviceCbk_some has, bind_map] at result
    obtain ⟨⟨response, newOffset, app⟩, handled, sent⟩ := bind_eq_some_iff.mp result
    have isResponse : Answer response := (conforms handler handlerIs).answer start handled
    have codes := (conforms handler handlerIs).code rfl handled
    have exchange := (conforms handler handlerIs).exchange handled
    have only : ∀ other otherOffset otherApp, Handles buffer (requestedBlock2 request).size
        (requestedBlock2 request).offset.toInt32 request engine other otherOffset otherApp →
        other = response ∧ otherApp = app := by
      rintro other otherOffset otherApp ⟨otherHandler, otherIs, otherHandled⟩
      rw [handlerIs] at otherIs
      obtain rfl := some.inj otherIs
      rw [prepared] at otherHandled
      have same := otherHandled.symm.trans handled
      exact ⟨(Prod.mk.inj (some.inj same)).1, (Prod.mk.inj (Prod.mk.inj (some.inj same)).2).2⟩
    by_cases mistaken : MistakenUpload request response
    · have refused : servedResponse request true newOffset response = .error
          (notImplemented501, noBlock1Support) := by
        rw [servedResponse, if_pos rfl, if_pos ⟨mistaken.1, mistaken.2.1, by simp [mistaken.2.2]⟩]
      simp only [Function.comp, refused] at sent
      rw [sendServed_error isResponse] at sent
      obtain ⟨rfl, packetIs⟩ := Prod.mk.inj (some.inj sent)
      obtain ⟨rfl, rfl⟩ := Prod.mk.inj packetIs
      refine ⟨_, rfl, ⟨(isResponse.setStatusCode notImplemented501).setPayload _,
        exchange.token, ?_, ?_, ?_⟩⟩
      · exact ⟨fun isServed => absurd isServed Bool.false_ne_true,
          fun implemented => absurd rfl implemented⟩
      · intro missing
        rw [handlerIs] at missing
        cases missing
      · rintro other otherOffset otherApp handles
        obtain ⟨rfl, rfl⟩ := only _ _ _ handles
        exact ⟨rfl, ⟨fun isServed => absurd isServed Bool.false_ne_true,
          fun whole => absurd mistaken whole⟩, fun _ => rfl⟩
    · have accepted : servedResponse request true newOffset response =
          .ok (blockResponse request (requestedBlock2 request) newOffset response) := by
        have whole : ¬(request.isOption .block1 = true ∧ response.code < badRequest400 ∧
            ¬response.isOption .block1 = true) :=
          fun upload => mistaken ⟨upload.1, upload.2.1, Bool.eq_false_of_not_eq_true upload.2.2⟩
        rw [servedResponse, if_pos rfl, if_neg whole]
      have keeps := keeps_blockResponse isResponse (fitsOption_requested arrived) request newOffset
      have nonzero :
          (blockResponse request (requestedBlock2 request) newOffset response).code ≠ 0 := by
        rcases keeps.code with same | refused
        · exact ne_of_eq_of_ne same codes.1
        · exact ne_of_eq_of_ne refused (by decide : badOption402 ≠ 0)
      have implemented : (blockResponse request (requestedBlock2 request) newOffset response).code ≠
          notImplemented501 := by
        rcases keeps.code with same | refused
        · exact ne_of_eq_of_ne same codes.2
        · exact ne_of_eq_of_ne refused (by decide : badOption402 ≠ notImplemented501)
      simp only [Function.comp, accepted] at sent
      rw [sendServed_ok keeps.wire nonzero, decide_eq_true implemented] at sent
      obtain ⟨rfl, packetIs⟩ := Prod.mk.inj (some.inj sent)
      obtain ⟨rfl, rfl⟩ := Prod.mk.inj packetIs
      refine ⟨_, rfl, ⟨keeps.wire, keeps.exchange.token.trans exchange.token, ?_, ?_, ?_⟩⟩
      · exact ⟨fun _ => implemented, fun _ => rfl⟩
      · intro missing
        rw [handlerIs] at missing
        cases missing
      · rintro other otherOffset otherApp handles
        obtain ⟨rfl, rfl⟩ := only _ _ _ handles
        exact ⟨rfl, ⟨fun _ => mistaken, fun _ => rfl⟩,
          fun notServed => absurd notServed.symm Bool.false_ne_true⟩

end Reply

/-- A handler that counts its calls. -/
def countingHandler : RestfulHandler Nat :=
  fun _ _ response _ _ offset calls => some (response, offset, calls + 1)

theorem countingHandler_conforms : Conforms countingHandler where
  answer start handled := (Prod.mk.inj (some.inj handled)).1 ▸ start
  code start handled := by
    rw [← (Prod.mk.inj (some.inj handled)).1, start]
    decide
  exchange handled := (Prod.mk.inj (some.inj handled)).1 ▸ ⟨rfl, rfl, rfl⟩

/-- An engine with the counting resource at `x`. -/
def countingEngine : Engine Nat :=
  ⟨true, [⟨⟨.ofBytes [120], false, none⟩, 0, none, none, some countingHandler, none⟩], 0, [], 0⟩

/-- The first block of an upload to `x`. -/
def countedUpload : Packet :=
  coapSetHeaderBlock1 0 true 16
    (coapSetHeaderUriPath (.ofBytes [120]) (coapInitMessage .con coapPut 7))

/-- The upload is counted, and reported as not served. -/
theorem serveRequest_reported_upload : ∃ packet after, serveRequest (List.replicate 1024 0)
      countedUpload countingEngine = some (false, packet, after) ∧ after.app = 1 := by
  have answers :
    (serveRequest (List.replicate 1024 0) countedUpload countingEngine).isSome = true := by decide
  obtain ⟨⟨served, packet, after⟩, result⟩ := isSome_iff_exists.mp answers
  have arrived : ∀ block, coapGetHeaderBlock2 countedUpload = some block → ArrivedBlock block :=
    fun block asks => by
    have none : coapGetHeaderBlock2 countedUpload = none := by decide
    rw [none] at asks
    cases asks
  have conforms : ∀ handler, countingEngine.handlerOf countedUpload = some handler →
      Conforms handler := fun handler has => by
    have same : some countingHandler = some handler := has
    exact some.inj same ▸ countingHandler_conforms
  obtain ⟨reply, -, reported⟩ := serveRequest_reported arrived conforms result
  obtain ⟨app, isServed, -⟩ := reported.handled _ _ _ ⟨countingHandler, rfl, rfl⟩
  have notServed : served = false :=
    Bool.eq_false_of_not_eq_true fun claimed => isServed.mp claimed ⟨rfl, by decide, rfl⟩
  exact ⟨packet, after, notServed ▸ result, app⟩

end Idrm.Rest
