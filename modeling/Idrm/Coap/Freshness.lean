import Idrm.Coap.GetPaths
import Idrm.Coap.ServerRuns

/-!
# Which representation a `GET` is answered from

The store is asked before the handler, whatever block a `GET` is for. So a `GET` that starts a
transfer sees what the handler returns only if nothing is kept for its peer and url; otherwise
it sees what the handler returned when that was last the case.
-/

namespace Idrm.Coap

open Idrm.Lib Option List

/-! ## Transfers that start -/

section Starts

variable {A E : Type} [DecidableEq A] {source : A} {request response answer : Packet}
  {server next : ServerContext A E}
  {handler : Handler E} {outPayload : List UInt8} {more : Bool} {size : UInt16}

/-- A `GET` that starts a transfer: it asks for the first block, or for none. -/
structure StartsTransfer (request : Packet) : Prop where
  get : request.code = coapGet
  first : ∀ block, coapGetHeaderBlock2 request = some block → ArrivedBlock block ∧ block.num = 0

/-- What it is taken to ask for. -/
theorem StartsTransfer.asked (starts : StartsTransfer request) : ∃ more size,
    requestedBlock2 request = ⟨0, more, size, 0⟩ ∧ 16 ≤ size.toNat ∧ size.toNat ≤ 1024 := by
  cases asks : coapGetHeaderBlock2 request with
  | none => exact ⟨false, 1024, requestedBlock2_default asks, by decide, by decide⟩
  | some block =>
    obtain ⟨arrived, zero⟩ := starts.first block asks
    obtain ⟨num, sameMore, offset, size⟩ := requestedBlock2_asked asks
    obtain ⟨least, short, -⟩ := arrived.chunk_bounds
    have start : block.offset = 0 := by
      apply UInt32.toNat_inj.mp
      rw [arrived.offset_toNat.1, zero, UInt32.toNat_zero, Nat.zero_mul]
    have form : requestedBlock2 request = ⟨(requestedBlock2 request).num,
      (requestedBlock2 request).more,
      (requestedBlock2 request).size, (requestedBlock2 request).offset⟩ := rfl
    rw [num, zero, offset, start] at form
    exact ⟨_, _, form, by omega, by omega⟩

/-- The beginning of a representation, as far as it fits a block of the answer. -/
def beginning (request : Packet) (representation : List UInt8) : List UInt8 :=
  representation.take (requestedBlock2 request).size.toNat

/-- What the handler returned is sent from its start. -/
theorem getAnswer_first (asked : requestedBlock2 request = ⟨0, more, size, 0⟩)
    (least : 16 ≤ size.toNat)
    (most : size.toNat ≤ 1024) (small : (returnedPayload response outPayload).length < 2 ^ 31) :
    ∃ answer, getAnswer request response outPayload = some answer ∧
    answer.payload = beginning request (returnedPayload response outPayload) := by
  have first : ∀ {payload : List UInt8}, payload.length < 2 ^ 31 → ∀ start : Packet, ∃ answer,
      copiedPart request payload start = some answer ∧
      answer.payload = beginning request payload := by
    intro payload short start
    have count : (min (UInt32.ofNat payload.length - 0) size.toUInt32).toNat =
        min payload.length size.toNat := by
      rw [toNat_min, toNat_ofNat_sub_zero (Nat.lt_trans short (by decide)), UInt16.toNat_toUInt32]
    rw [copiedPart, beginning, asked]
    simp only [count, UInt32.toNat_zero, Nat.zero_add, drop_zero]
    rw [if_pos (Nat.min_le_left _ _)]
    refine ⟨_, rfl, ?_⟩
    change (payload.take (min payload.length size.toNat)).take restMaxChunkSize =
      payload.take size.toNat
    rw [take_take, take_eq_take_iff]
    simp only [restMaxChunkSize]
    omega
  cases further : moreBehind request (returnedPayload response outPayload) with
  | true =>
    have filled : returnedPayload response outPayload ≠ [] := by
      intro empty
      have nothing : (UInt32.ofNat ([] : List UInt8).length - 0).toNat = 0 :=
        toNat_ofNat_sub_zero (by decide)
      rw [empty, moreBehind, asked, decide_eq_true_eq, gt_iff_lt, UInt32.lt_iff_toNat_lt,
        nothing] at further
      exact absurd further (Nat.not_lt_zero _)
    rw [getAnswer_more further filled]
    exact first small _
  | false =>
    by_cases own : outPayload = []
    · subst own
      rw [getAnswer_set further, asked]
      refine ⟨response, rfl, ?_⟩
      rw [moreBehind, asked, decide_eq_false_iff_not, gt_iff_lt, UInt32.lt_iff_toNat_lt,
        toNat_ofNat_sub_zero (Nat.lt_trans small (by decide)), UInt16.toNat_toUInt32] at further
      rw [beginning, asked]
      exact (take_of_length_le (Nat.not_lt.mp further)).symm
    · have returned : returnedPayload response outPayload = outPayload :=
        if_neg fun empty => own (length_eq_zero_iff.mp empty)
      rw [getAnswer_own further own]
      rw [returned] at small ⊢
      exact first small response

/-- Where nothing is kept, the answer is the beginning of what the handler returns now. -/
theorem getResponse_now (answered : Answered server request handler)
    (starts : StartsTransfer request) (uncached : Uncached source request server.blockwise)
    (small : (handler request server.app).1.representation.length < 2 ^ 31) (now : UInt32) :
    ∃ answer, getResponse now source request server = some answer ∧
    answer.payload = beginning request (handler request server.app).1.representation := by
  obtain ⟨more, size, asked, least, most⟩ := starts.asked
  have returned :=
    returnedPayload_answerOf (handler request server.app).1 (prepareResponse request server).1
  rw [getResponse_handler answered uncached now, ← returned]
  rw [← returned] at small
  exact getAnswer_first asked least most small

/-- What is kept is sent from its start; if nothing of it is there, the `GET` is refused. -/
structure BeginsKept (request : Packet) (kept : List UInt8) (answer : Packet) : Prop where
  filled : kept ≠ [] → answer.payload = beginning request kept
  empty : kept = [] → answer.code = requestEntityTooLarge413

theorem getResponse_kept {url : CString}
    {kept : List UInt8} (cached : Cached source url kept server.blockwise)
    (full : coapGetFullUrlAlloc request = some url) (starts : StartsTransfer request)
    (now : UInt32) : ∃ answer, getResponse now source request server = some answer ∧
    BeginsKept request kept answer := by
  obtain ⟨mid, prepared⟩ := prepareResponse_server request server
  obtain ⟨more, size, asked, least, most⟩ := starts.asked
  rw [getResponse]
  generalize prepareResponse request server = pair at prepared
  obtain ⟨response, ready⟩ := pair
  simp only at prepared ⊢
  subst prepared
  by_cases nothing : kept = []
  · have beyond : slicesOf size.toNat kept.length ≤ (0 : UInt32).toNat := by
      rw [nothing, slicesOf, length_nil, Nat.zero_add, Nat.div_eq_of_lt (by omega)]
      exact Nat.zero_le _
    rw [checkBlockwiseTransferGet_beyond cached full asked least beyond now response]
    exact ⟨_, rfl, fun filled => absurd nothing filled, fun _ => rfl⟩
  · have inside : (0 : UInt32).toNat < slicesOf size.toNat kept.length := by
      rw [lt_slicesOf (by omega)]
      exact length_pos_iff.mpr nothing
    obtain ⟨format, after, -, reads⟩ :=
      checkBlockwiseTransferGet_inside cached full asked least inside now response
    rw [reads]
    refine ⟨_, rfl, fun _ => ?_, fun empty => absurd empty nothing⟩
    change (sliceAt size.toNat kept 0).take restMaxChunkSize = _
    rw [sliceAt, Nat.mul_zero, drop_zero, take_take, beginning, asked,
      Nat.min_eq_right (show size.toNat ≤ restMaxChunkSize from most)]

end Starts

/-! ## What is kept -/

section Kept

variable {A E : Type} [DecidableEq A] {source : A} {url : CString}
  {request response answer : Packet}
  {server next : ServerContext A E} {handler : Handler E} {now : UInt32}

omit [DecidableEq A] in
/-- The resources of a server stay what they are. -/
theorem ServerContext.send_resources {message : Packet}
    (sends : server.send source message = some next) :
    next.resources = server.resources ∧ next.handled = server.handled := by
  rw [ServerContext.send] at sends
  obtain ⟨packet, -, rfl⟩ := map_eq_some_iff.mp sends
  split <;> exact ⟨rfl, rfl⟩

theorem ServerContext.keep_resources (now : UInt32) (source : A) (request answer : Packet)
    (payload outPayload : List UInt8) (server : ServerContext A E) :
    (server.keep now source request answer payload outPayload).resources = server.resources := by
  rw [ServerContext.keep]
  split
  · split <;> rfl
  · rfl

omit [DecidableEq A] in
theorem ServerContext.fallBack_resources (request : Packet)
    (status : UInt8) (server : ServerContext A E) :
    (server.fallBack request status).2.resources = server.resources := by
  rw [ServerContext.fallBack]
  split
  · split <;> rfl
  · rfl

omit [DecidableEq A] in
theorem coapHandleRequestInternal_resources (request response : Packet)
    (server : ServerContext A E) :
    (coapHandleRequestInternal request response server).2.2.2.resources = server.resources := by
  rw [coapHandleRequestInternal]
  simp only
  split
  · rfl
  split <;> rfl

theorem respondGet_resources {outPayload : List UInt8}
    (responds : respondGet now source request response outPayload server = some next) :
    next.resources = server.resources := by
  rw [respondGet_eq] at responds
  obtain ⟨answer, -, sends⟩ := bind_eq_some_iff.mp responds
  obtain ⟨sent, delivers, rfl⟩ := map_eq_some_iff.mp sends
  exact (ServerContext.keep_resources now source request answer _ outPayload sent).trans
    (ServerContext.send_resources delivers).1

theorem serveRequest_resources
      (serves : serveRequest now source request response server = some next) :
    next.resources = server.resources := by
  have called := coapHandleRequestInternal_resources request response server
  rw [serveRequest_eq] at serves
  generalize coapHandleRequestInternal request response server = handled at serves called
  obtain ⟨status, answer, outPayload, behind⟩ := handled
  simp only at serves called
  have fallback := (ServerContext.fallBack_resources request status behind).trans called
  generalize behind.fallBack request status = outcome at serves fallback
  obtain ⟨code, context⟩ := outcome
  simp only at serves fallback
  rw [← fallback]
  split at serves
  · cases serves
    rfl
  split at serves
  · split at serves
    · exact respondGet_resources serves
    · exact (ServerContext.send_resources serves).1
  split at serves
  · exact (ServerContext.send_resources serves).1
  · cases serves
    rfl

theorem coapRequestHandler_resources
      (handles : coapRequestHandler now source request server = some next) :
    next.resources = server.resources := by
  obtain ⟨mid, prepared⟩ := prepareResponse_server request server
  rw [coapRequestHandler] at handles
  generalize prepareResponse request server = pair at handles prepared
  obtain ⟨response, ready⟩ := pair
  simp only at handles prepared
  subst prepared
  split at handles
  · obtain ⟨⟨check, answer, store⟩, -, served⟩ := bind_eq_some_iff.mp handles
    simp only at served
    split at served
    · exact (serveRequest_resources served).trans rfl
    · exact (ServerContext.send_resources served).1.trans rfl
  split at handles
  · obtain ⟨⟨check, answer, store⟩, -, served⟩ := bind_eq_some_iff.mp handles
    simp only at served
    split at served
    · exact (serveRequest_resources served).trans rfl
    · exact (serveRequest_resources served).trans rfl
    · exact (ServerContext.send_resources served).1.trans rfl
  · exact (serveRequest_resources handles).trans rfl

/-- What a handler returned for a request: its result, or nothing where there is no handler. -/
def KeptFrom (server : ServerContext A E) (request : Packet) (bytes : List UInt8) : Prop :=
  (∃ handler, Serves server request handler ∧
    bytes = (handler request server.app).1.representation) ∨
    bytes = [] ∧ (requestedBlock2 request).more = true

omit [DecidableEq A] in
/-- What the framework returns comes from the handler that was found, if there is one. -/
theorem coapHandleRequestInternal_returned (server : ServerContext A E)
    (get : request.code = coapGet) (plain : response.payload = []) :
    (∃ handler, Serves server request handler ∧ (coapHandleRequestInternal request response
      server).2.2.1 = (handler request server.app).1.outPayload ∧ (coapHandleRequestInternal request
      response server).2.1.payload = (handler request server.app).1.payload.take restMaxChunkSize) ∨
      (coapHandleRequestInternal request response server).2.2.1 = [] ∧
        (coapHandleRequestInternal request response server).2.1.payload = [] := by
  by_cases unfit : (coapGetHeaderUriPath request).length = 0 ∨
    (coapGetHeaderUriPath request).length ≥ 256
  · have refused :
        coapHandleRequestInternal request response server = (255, response, [], server) := by
      rw [coapHandleRequestInternal]
      exact if_pos unfit
    rw [refused]
    exact .inr ⟨rfl, plain⟩
  cases found : findHandler (.ofBytes (coapGetHeaderUriPath request)) request.code
    server.resources with
  | none =>
    have unknown : coapHandleRequestInternal request response server = (notImplemented501, response,
        [], server) := by
      rw [coapHandleRequestInternal]
      simp only [if_neg unfit, found]
    rw [unknown]
    exact .inr ⟨rfl, plain⟩
  | some handler =>
    obtain ⟨filled, short⟩ := not_or.mp unfit
    have serves : Serves server request handler :=
      ⟨fun empty => filled (length_eq_zero_iff.mpr empty), Nat.not_le.mp short, found⟩
    have out : takesOutPayload request.code = true := by
      rw [get]
      rfl
    rw [coapHandleRequestInternal_serves serves, if_pos out]
    refine .inl ⟨handler, serves, rfl, ?_⟩
    rw [applyResult]
    cases (handler request server.app).1.contentFormat with
    | none => rfl
    | some format => rfl

/-- A representation is put where nothing was kept, or nothing is. -/
theorem ServerContext.keep_absent (now : UInt32) (answer : Packet)
    (unique : Unique server.blockwise) (full : coapGetFullUrlAlloc request = some url)
    (absent : nodeAt source url true server.blockwise = none) (payload outPayload : List UInt8) :
    nodeAt source url true (server.keep now source request answer payload outPayload).blockwise =
      none ∨ (moreBehind request payload = true ∨ (requestedBlock2 request).more = true) ∧ ∃ node,
    nodeAt source url true (server.keep now source request answer payload outPayload).blockwise =
      some node ∧
          node.buffer = (if moreBehind request payload ∧
            outPayload.length = 0 then payload else outPayload) ∧
          node.bufferSize = Int32.ofNat node.buffer.length := by
  rw [ServerContext.keep]
  by_cases keeps : moreBehind request payload = true ∨ (requestedBlock2 request).more = true
  · refine .inr ⟨keeps, ?_⟩
    simp only [if_pos keeps, full]
    rw [setResBlockwise, findBlock_of_absent unique absent]
    exact ⟨_, (addBlock_put unique rfl rfl absent).2, rfl, rfl⟩
  · rw [if_neg keeps]
    exact .inl absent

/-- The end of a `GET` for which nothing was kept keeps what the handler returned, or nothing;
an empty buffer is kept for a client that sets the more bit. -/
theorem respondGet_keeps {returned : Packet} {outPayload : List UInt8}
    (unique : Unique server.blockwise) (full : coapGetFullUrlAlloc request = some url)
    (absent : nodeAt source url true server.blockwise = none)
    (responds : respondGet now source request returned outPayload server = some next) :
    nodeAt source url true next.blockwise = none ∨
    ∃ node, nodeAt source url true next.blockwise = some node ∧
    node.bufferSize = Int32.ofNat node.buffer.length ∧
    (node.buffer = returnedPayload returned outPayload ∧ returnedPayload returned outPayload ≠ [] ∨
      node.buffer = [] ∧ (requestedBlock2 request).more = true) := by
  rw [respondGet_eq] at responds
  obtain ⟨answer, answers, sends⟩ := bind_eq_some_iff.mp responds
  obtain ⟨sent, delivers, rfl⟩ := map_eq_some_iff.mp sends
  have store := ServerContext.send_blockwise delivers
  rw [← store] at unique absent
  rcases ServerContext.keep_absent now answer unique full absent
    (returnedPayload returned outPayload)
    outPayload with nothing | ⟨keeps, node, there, buffer, size⟩
  · exact .inl nothing
  refine .inr ⟨node, there, size, ?_⟩
  by_cases own : outPayload = []
  · cases further : moreBehind request (returnedPayload returned outPayload) with
    | true =>
      rw [further, if_pos ⟨rfl, length_eq_zero_iff.mpr own⟩] at buffer
      by_cases empty : returnedPayload returned outPayload = []
      · -- the unsigned difference has wrapped, and the code has stopped at its assertion
        have later : (requestedBlock2 request).offset ≠ 0 := by
          intro start
          have nothing : (UInt32.ofNat ([] : List UInt8).length - 0).toNat = 0 :=
            toNat_ofNat_sub_zero (by decide)
          rw [empty, moreBehind, start, decide_eq_true_eq, gt_iff_lt, UInt32.lt_iff_toNat_lt,
            nothing] at further
          exact absurd further (Nat.not_lt_zero _)
        rw [getAnswer_empty further empty later] at answers
        cases answers
      · exact .inl ⟨buffer, empty⟩
    | false =>
      rw [further] at keeps buffer
      exact .inr ⟨buffer.trans own, keeps.resolve_left Bool.false_ne_true⟩
  · have filled : outPayload.length ≠ 0 := fun empty => own (length_eq_zero_iff.mp empty)
    have whole : returnedPayload returned outPayload = outPayload := if_neg filled
    rw [if_neg fun both => filled both.2] at buffer
    rw [whole]
    exact .inl ⟨buffer, own⟩

omit [DecidableEq A] in
/-- What a node that a `GET` put into the store was made from. -/
theorem keptFrom_of_returned {returned : Packet} {outPayload bytes : List UInt8}
    (came : (∃ handler, Serves server request handler ∧
      outPayload = (handler request server.app).1.outPayload ∧
      returned.payload = (handler request server.app).1.payload.take restMaxChunkSize) ∨
      outPayload = [] ∧ returned.payload = []) (holds :
      bytes = returnedPayload returned outPayload ∧ returnedPayload returned outPayload ≠ [] ∨
      bytes = [] ∧ (requestedBlock2 request).more = true) : KeptFrom server request bytes := by
  rcases holds with ⟨rfl, filled⟩ | marked
  · rcases came with ⟨handler, serves, rfl, payload⟩ | ⟨rfl, payload⟩
    · refine .inl ⟨handler, serves, ?_⟩
      rw [returnedPayload, HandlerResult.representation, payload]
    · rw [returnedPayload, payload] at filled
      exact absurd rfl filled
  · exact .inr marked

/-- A `GET` for which nothing was kept leaves nothing, or what the handler has returned to it. -/
theorem coapRequestHandler_absent (unique : Unique server.blockwise) (get : request.code = coapGet)
    (full : coapGetFullUrlAlloc request = some url)
    (absent : nodeAt source url true server.blockwise = none)
    (handles : coapRequestHandler now source request server = some next) :
    nodeAt source url true next.blockwise = none ∨
    ∃ node, nodeAt source url true next.blockwise = some node ∧
    node.bufferSize = Int32.ofNat node.buffer.length ∧ KeptFrom server request node.buffer := by
  obtain ⟨mid, prepared⟩ := prepareResponse_server request server
  obtain ⟨type, id, token, fresh⟩ := prepareResponse_form request server
  rw [coapRequestHandler] at handles
  generalize prepareResponse request server = pair at handles prepared fresh
  obtain ⟨response, ready⟩ := pair
  simp only at handles prepared fresh
  have plain : response.payload = [] := by
    rw [fresh]
    rfl
  have uncached : Uncached source request server.blockwise := by
    intro name named
    obtain rfl := some.inj (full.symm.trans named)
    exact findBlock_of_absent unique absent
  subst prepared
  rw [if_pos get, checkBlockwiseTransferGet_uncached uncached, bind_some] at handles
  simp only at handles
  rw [serveRequest_eq] at handles
  have store := coapHandleRequestInternal_blockwise request response
    ({ server with currentMid := mid } : ServerContext A E)
  have came := coapHandleRequestInternal_returned
    ({ server with currentMid := mid } : ServerContext A E) get plain
  generalize coapHandleRequestInternal request response { server with currentMid := mid } =
    handled at *
  obtain ⟨status, returned, outPayload, called⟩ := handled
  simp only at handles store came
  have fallStore := ServerContext.fallBack_blockwise request status called
  generalize called.fallBack request status = outcome at handles fallStore
  obtain ⟨code, context⟩ := outcome
  simp only at handles fallStore
  rw [← store, ← fallStore] at unique absent
  split at handles
  · cases handles
    exact .inl absent
  split at handles
  · rcases respondGet_keeps unique full absent handles with nothing | ⟨node, there, size, holds⟩
    · exact .inl nothing
    · refine .inr ⟨node, there, size, keptFrom_of_returned ?_ holds⟩
      rcases came with ⟨handler, serves, out, payload⟩ | nothing
      · exact .inl ⟨handler, ⟨serves.some_path, serves.short, serves.found⟩, out, payload⟩
      · exact .inr nothing
  split at handles
  · rw [ServerContext.send_blockwise handles]
    exact .inl absent
  · cases handles
    exact .inl absent

/-- A `GET` for which something is kept leaves it, and is not given to the handler. -/
theorem coapRequestHandler_kept {node : BlockNode} (unique : Unique server.blockwise)
    (get : request.code = coapGet) (full : coapGetFullUrlAlloc request = some url)
    (there : nodeAt source url true server.blockwise = some node)
    (handles : coapRequestHandler now source request server = some next) :
    next.handled = server.handled ∧ ∃ after, nodeAt source url true next.blockwise = some after ∧
    after.buffer = node.buffer ∧ after.bufferSize = node.bufferSize := by
  obtain ⟨mid, prepared⟩ := prepareResponse_server request server
  obtain ⟨rest, finds⟩ := findBlock_of_nodeAt unique there
  rw [coapRequestHandler] at handles
  generalize prepareResponse request server = pair at handles prepared
  obtain ⟨response, ready⟩ := pair
  simp only at handles prepared
  subst prepared
  rw [if_pos get] at handles
  obtain ⟨⟨check, answer, store⟩, checked, served⟩ := bind_eq_some_iff.mp handles
  simp only at served
  have touched := (checkBlockwiseTransferGet_touches unique checked).unique unique
  obtain ⟨answers, after, found, buffer, size⟩ : check ≠ .notBlockwise ∧
      ∃ after, findBlock source url true store = some (after, rest) ∧ after.buffer = node.buffer ∧
        after.bufferSize = node.bufferSize := by
    rw [checkBlockwiseTransferGet, full] at checked
    simp only [finds] at checked
    generalize (if node.bufferSize.toInt.tmod (requestedBlock2 request).size.toNat ≠ 0 then
      node.bufferSize.toInt.tdiv (requestedBlock2 request).size.toNat + 1
        else node.bufferSize.toInt.tdiv (requestedBlock2 request).size.toNat) = total at checked
    generalize (if node.bufferSize.toInt.tmod (requestedBlock2 request).size.toNat ≠ 0 ∧
      (requestedBlock2 request).num = (Int32.ofInt total - 1).toUInt32 then
        node.bufferSize.toInt.tmod (requestedBlock2 request).size.toNat
          else (requestedBlock2 request).size.toNat) = payloadLen at checked
    split at checked
    · cases checked
      exact ⟨(fun same => by cases same), node, finds, rfl, rfl⟩
    · split at checked
      · cases checked
        refine ⟨(fun same => by cases same), _, findBlock_modifyBlock ?_ ?_ finds, rfl, rfl⟩
        · exact fun _ => rfl
        · exact fun _ => rfl
      · cases checked
  split at served
  · exact absurd rfl answers
  · refine ⟨(ServerContext.send_resources served).2, after, ?_, buffer, size⟩
    rw [ServerContext.send_blockwise served]
    have known : (findBlock source url true _).map Prod.fst = nodeAt source url true _ :=
      findBlock_nodeAt touched
    rw [found] at known
    exact known.symm

end Kept

/-! ## Histories -/

/-- What happens to a server: it is called, and its application changes. -/
inductive ServerEvent (A E : Type) where
  | call (call : ServerCall A)
  | change (app : E)

/-- An event whose request, if it has one, is kept under its url. -/
def ServerEvent.Named {A E : Type} : ServerEvent A E → Prop
  | .call called => called.Named
  | .change _ => True

/-- No other path and query that a peer asks for are put together to the url of a request. -/
def OneUrl {A E : Type} (source : A) (request : Packet) (history : List (ServerEvent A E)) : Prop :=
  ∀ time other, .call (.request time source other) ∈ history →
    coapGetFullUrlAlloc other = coapGetFullUrlAlloc request → urlOf other = urlOf request

section Histories

variable {A E : Type} [DecidableEq A] {source : A} {url : CString} {bytes : List UInt8}
  {start server next : ServerContext A E}
  {history : List (ServerEvent A E)} {event : ServerEvent A E} {node : BlockNode}

/-- One event of a history. -/
def ServerContext.happen : ServerEvent A E → ServerContext A E → Option (ServerContext A E)
  | .call call, server => server.perform call
  | .change app, server => some { server with app := app }

omit [DecidableEq A] in
/-- A handler that is found belongs to a resource. -/
theorem findHandler_mem {code : UInt8} {resources : List (ResourceHandler E)} {handler : Handler E}
    (found : findHandler url code resources = some handler) :
    ∃ resource ∈ resources, resource.handlerFor code = some handler := by
  induction resources with
  | nil => cases found
  | cons resource rest ih =>
    rw [findHandler] at found
    split at found
    · split at found
      · rename_i serves
        cases found
        exact ⟨resource, mem_cons_self, serves⟩
      · obtain ⟨other, member, serves⟩ := ih found
        exact ⟨other, mem_cons_of_mem _ member, serves⟩
    · obtain ⟨other, member, serves⟩ := ih found
      exact ⟨other, mem_cons_of_mem _ member, serves⟩

/-- A representation has the length of an `int`. -/
def ReturnsInts (resources : List (ResourceHandler E)) : Prop :=
  ∀ url code handler, findHandler url code resources = some handler →
    ∀ request app, (handler request app).1.representation.length < 2 ^ 31

/-- Bytes that are kept for a peer since a `GET` of a history: nothing was kept then, the handler
was asked, and what it returned has been kept ever since. -/
structure KeptSince (start : ServerContext A E) (source : A) (url : CString)
    (past : List (ServerEvent A E)) (time : UInt32) (request : Packet)
    (later : List (ServerEvent A E)) (bytes : List UInt8) : Prop where
  get : request.code = coapGet
  full : coapGetFullUrlAlloc request = some url
  asked : ∃ before, runAll ServerContext.happen past start = some before ∧
    nodeAt source url true before.blockwise = none ∧ KeptFrom before request bytes
  ever : ∀ front back, later = front ++ back → ∃ state node,
    runAll ServerContext.happen (past ++ .call (.request time source request) :: front) start =
    some state ∧ nodeAt source url true state.blockwise = some node ∧ node.buffer = bytes

/-- Bytes that are kept since some `GET` of a history. -/
def Remembered (start : ServerContext A E) (source : A) (url : CString)
    (history : List (ServerEvent A E)) (bytes : List UInt8) : Prop :=
  ∃ past time request later, history = past ++ .call (.request time source request) :: later ∧
    KeptSince start source url past time request later bytes

/-- What is still kept behind one more event. -/
theorem Remembered.extend (remembered : Remembered start source url history bytes)
    (ran : runAll ServerContext.happen (history ++ [event]) start = some next)
    (there : nodeAt source url true next.blockwise = some node) (buffer : node.buffer = bytes) :
    Remembered start source url (history ++ [event]) bytes := by
  obtain ⟨past, time, request, later, rfl, since⟩ := remembered
  refine ⟨past, time, request, later ++ [event], by rw [append_assoc, cons_append], since.get,
    since.full, since.asked, fun front back split => ?_⟩
  rcases append_eq_append_iff.mp split with ⟨rest, rfl, tail⟩ | ⟨rest, rfl, tail⟩
  · rcases append_eq_singleton_iff.mp tail.symm with ⟨rfl, -⟩ | ⟨rfl, -⟩
    · exact since.ever _ [] (by rw [append_nil, append_nil])
    · rw [append_assoc, cons_append] at ran
      exact ⟨next, node, ran, there, buffer⟩
  · exact since.ever front rest rfl

/-- What holds of every server with a history. -/
structure Traced (start : ServerContext A E) (history : List (ServerEvent A E))
    (server : ServerContext A E) : Prop where
  ran : runAll ServerContext.happen history start = some server
  unique : Unique server.blockwise
  resources : server.resources = start.resources
  kept : ∀ source url node, nodeAt source url true server.blockwise = some node →
    node.bufferSize.toInt = node.buffer.length ∧ Remembered start source url history node.buffer

/-- A `GET` either finds its representation or has it made. -/
theorem Traced.request {time : UInt32} {request : Packet} (ints : ReturnsInts start.resources)
    (traced : Traced start history server)
    (handles : coapRequestHandler time source request server = some next)
    (ran : runAll ServerContext.happen (history ++ [.call (.request time source request)]) start =
      some next) : Traced start (history ++ [.call (.request time source request)]) next := by
  have touches := coapRequestHandler_touches traced.unique handles
  refine ⟨ran, touches.unique traced.unique,
    (coapRequestHandler_resources handles).trans traced.resources, fun peer url node there => ?_⟩
  have stayed : ∀ before, nodeAt peer url true server.blockwise = some before →
      node.buffer = before.buffer →
      node.bufferSize = before.bufferSize → node.bufferSize.toInt = node.buffer.length ∧ Remembered
      start peer url (history ++ [.call (.request time source request)]) node.buffer := by
    intro before known buffer size
    obtain ⟨length, remembered⟩ := traced.kept peer url before known
    rw [← buffer] at length remembered
    rw [← size] at length
    exact ⟨length, remembered.extend ran there rfl⟩
  by_cases own : request.code = coapGet ∧ coapGetFullUrlAlloc request = some url ∧ peer = source
  · obtain ⟨get, full, rfl⟩ := own
    cases known : nodeAt peer url true server.blockwise with
    | some before =>
      obtain ⟨-, after, found, buffer, size⟩ :=
        coapRequestHandler_kept traced.unique get full known handles
      obtain rfl := some.inj (there.symm.trans found)
      exact stayed before known buffer size
    | none =>
      rcases coapRequestHandler_absent traced.unique get full known handles with
        nothing | ⟨made, found, size, keptFrom⟩
      · rw [nothing] at there
        cases there
      · obtain rfl := some.inj (there.symm.trans found)
        have short : node.buffer.length < 2 ^ 31 := by
          rcases keptFrom with ⟨handler, serves, same⟩ | ⟨same, -⟩
          · rw [same]
            have found := serves.found
            rw [traced.resources] at found
            exact ints _ _ handler found request server.app
          · rw [same]
            decide
        refine ⟨?_, history, time, request, [], rfl, get, full,
          ⟨server, traced.ran, known, keptFrom⟩, ?_⟩
        · rw [size, Int32.toInt_ofNat_of_lt short]
        · intro front back split
          obtain ⟨rfl, -⟩ := append_eq_nil_iff.mp split.symm
          exact ⟨next, node, ran, there, rfl⟩
  · have same : nodeAt peer url true next.blockwise = nodeAt peer url true server.blockwise := by
      rcases touches with equal | ⟨name, full, touched⟩
      · rw [equal]
      · refine touched.frame fun isSource here => own ?_
        obtain ⟨rfl, get⟩ := Prod.mk.injEq .. ▸ here
        exact ⟨decide_eq_true_eq.mp get.symm, full, isSource⟩
    rw [same] at there
    exact stayed node there rfl rfl

/-- Every event keeps that. -/
theorem Traced.happen (ints : ReturnsInts start.resources) (traced : Traced start history server)
    (happens : server.happen event = some next) : Traced start (history ++ [event]) next := by
  have ran : runAll ServerContext.happen (history ++ [event]) start = some next := by
    rw [runAll_concat, traced.ran]
    exact happens
  cases event with
  | change app =>
    cases happens
    refine ⟨ran, traced.unique, traced.resources, fun source url node there => ?_⟩
    obtain ⟨size, remembered⟩ := traced.kept source url node there
    exact ⟨size, remembered.extend ran there rfl⟩
  | call call =>
    cases call with
    | request time source request => exact traced.request ints happens ran
    | checkTimeout time timeout =>
      cases happens
      have store := checkBlockwiseTimeoutMs_store time timeout server.blockwise
      refine ⟨ran, ?_, traced.resources, fun source url node there => ?_⟩
      · rw [store]
        exact traced.unique.pruned _
      · have before := there
        rw [store] at before
        obtain ⟨size, remembered⟩ :=
          traced.kept source url node (traced.unique.valueAt_pruned _ before)
        exact ⟨size, remembered.extend ran there rfl⟩

theorem traced_of_runs (ints : ReturnsInts start.resources) (empty : start.blockwise = [])
    (ran : runAll ServerContext.happen history start = some server) :
    Traced start history server := by
  induction history using List.reverseRecOn generalizing server with
  | nil =>
    cases ran
    refine ⟨rfl, ?_, rfl, fun source url node there => ?_⟩
    · rw [empty]
      exact shelved_nil
    · rw [empty] at there
      cases there
  | append_singleton past event ih =>
    rw [runAll_concat] at ran
    obtain ⟨before, ranBefore, happens⟩ := bind_eq_some_iff.mp ran
    exact (ih ranBefore).happen ints happens

/-- In every history of requests that are kept under their urls, a `GET` that starts a transfer is
answered from what the handler returns now, unless something is kept for its peer and url. Then the
handler is not asked, and the answer begins what it returned to an earlier `GET` of the peer for
the same path and query, kept ever since. -/
theorem starting_get_sees {request : Packet} {handler : Handler E} (empty : start.blockwise = [])
    (ints : ReturnsInts start.resources)
    (runs : RunsUnder ServerContext.happen (fun _ event => event.Named) start history server)
    (apart : OneUrl source request history)
    (answered : Answered server request handler) (starts : StartsTransfer request)
    (full : coapGetFullUrlAlloc request = some url) (now : UInt32) :
    (nodeAt source url true server.blockwise = none →
      ∃ answer, getResponse now source request server = some answer ∧
      answer.payload = beginning request (handler request server.app).1.representation) ∧
    (∀ node, nodeAt source url true server.blockwise = some node → (∃ answer,
      getResponse now source request server = some answer ∧ BeginsKept request node.buffer answer) ∧
      (∀ next, coapRequestHandler now source request server = some next →
      next.handled = server.handled) ∧ ∃ past time earlier later,
      history = past ++ .call (.request time source earlier) :: later ∧ urlOf earlier =
      urlOf request ∧ KeptSince start source url past time earlier later node.buffer) := by
  have traced := traced_of_runs ints empty runs.ran
  constructor
  · intro absent
    have found := answered.serves.found
    rw [traced.resources] at found
    refine getResponse_now answered starts ?_ (ints _ _ handler found request server.app) now
    intro name named
    obtain rfl := some.inj (full.symm.trans named)
    exact findBlock_of_absent traced.unique absent
  · intro node there
    obtain ⟨size, past, time, earlier, later, split, since⟩ := traced.kept source url node there
    obtain ⟨rest, finds⟩ := findBlock_of_nodeAt traced.unique there
    refine ⟨getResponse_kept ⟨node, rest, finds, rfl, size⟩ full starts now, fun next handles => ?_,
      past, time, earlier, later, split, ?_, since⟩
    · exact (coapRequestHandler_kept traced.unique starts.get full there handles).1
    · refine apart time earlier ?_ (since.full.trans full.symm)
      rw [split]
      exact mem_append_right _ mem_cons_self

end Histories

/-! ## A representation that has changed -/

/-- A handler that returns a byte of the application twenty times. -/
def twentyTimes : Handler UInt8 := fun _ app => (⟨content205, [], none, List.replicate 20 app⟩, app)

/-- A server of the byte. -/
def byteServer (app : UInt8) : ServerContext Bool UInt8 :=
  ⟨[], [⟨.ofBytes [0x61], some twentyTimes, none, none, none⟩], none, true, 1, app, [], []⟩

theorem byteServer_ints (app : UInt8) : ReturnsInts (byteServer app).resources := by
  intro url code handler found request byte
  obtain ⟨resource, member, serves⟩ := findHandler_mem found
  obtain rfl := mem_singleton.mp member
  have same : handler = twentyTimes := by
    rw [ResourceHandler.handlerFor] at serves
    split at serves
    · exact (some.inj serves).symm
    · split at serves
      · cases serves
      · split at serves <;> cases serves
  have representation : (twentyTimes request byte).1.representation = List.replicate 20 byte :=
    if_neg (by decide : ¬ (20 = 0))
  rw [same, representation, length_replicate]
  decide

/-- A `GET` for the first sixteen bytes. -/
def askFirst : Packet := askTwenty ⟨0, false, 16, 0⟩

theorem askFirst_starts : StartsTransfer askFirst where
  get := rfl
  first := by
    intro block asks
    obtain rfl := some.inj
      (asks.symm.trans (rfl : coapGetHeaderBlock2 askFirst = some ⟨0, false, 16, 0⟩))
    exact ⟨⟨by decide, ⟨0, by decide, rfl⟩, rfl⟩, rfl⟩

theorem askFirst_answered {server : ServerContext Bool UInt8}
    (resources : server.resources = (byteServer 7).resources) :
    Answered server askFirst twentyTimes where
  serves := ⟨(by decide : ([0x61] : List UInt8) ≠ []),
    (by decide : ([0x61] : List UInt8).length < 256), by rw [resources]; rfl⟩
  get := rfl
  implemented := (by decide : content205 ≠ notImplemented501)
  responds := (by decide : content205 ≠ manualResponse)

/-- A transfer is started, and the application changes. -/
def changedByte : List (ServerEvent Bool UInt8) := [.call (.request 5 false askFirst), .change 8]

/-- A transfer that is started then begins what is kept of the one before. -/
theorem starting_get_sees_byte :
    ∃ server answer, runAll ServerContext.happen changedByte (byteServer 7) = some server ∧
    getResponse 6 false askFirst server = some answer ∧
    BeginsKept askFirst (List.replicate 20 7) answer := by
  obtain ⟨server, ran⟩ := isSome_iff_exists.mp
    (by decide +kernel : (runAll ServerContext.happen changedByte (byteServer 7)).isSome = true)
  have named : ∀ event ∈ changedByte, event.Named := by
    intro event member
    rcases mem_cons.mp member with rfl | member
    · exact ⟨fun _ nothing => absurd nothing (by decide +kernel), fun queried => absurd rfl queried⟩
    · obtain rfl := mem_singleton.mp member
      trivial
  have apart : OneUrl false askFirst changedByte := by
    intro time other member _
    rcases mem_cons.mp member with same | member
    · cases same
      rfl
    · cases mem_singleton.mp member
  have runs : RunsUnder ServerContext.happen (fun _ event => event.Named)
      (byteServer 7) changedByte server :=
    runsUnder_of_visited ran fun visit member => named visit.2 (mem_visited member)
  have resources := (traced_of_runs (byteServer_ints 7) rfl ran).resources
  have kept : (runAll ServerContext.happen changedByte (byteServer 7)).bind (fun server =>
      (nodeAt false (.ofBytes [0x61]) true server.blockwise).map (·.buffer)) =
        some (List.replicate 20 7) := by decide +kernel
  rw [ran, bind_some] at kept
  obtain ⟨node, there, buffer⟩ := map_eq_some_iff.mp kept
  obtain ⟨answer, answers, begins⟩ :=
    ((starting_get_sees rfl (byteServer_ints 7) runs apart (askFirst_answered resources)
    askFirst_starts (rfl : coapGetFullUrlAlloc askFirst = some (.ofBytes [0x61])) 6).2 node there).1
  exact ⟨server, answer, ran, answers, buffer ▸ begins⟩

/-- A transfer that is started a second later begins with the bytes there were before. -/
theorem starting_get_stale :
    ¬ ∀ (history : List (ServerEvent Bool UInt8)) (start server : ServerContext Bool UInt8)
      (request : Packet) (handler : Handler UInt8) (now : UInt32),
    start.blockwise = [] → ReturnsInts start.resources →
      runAll ServerContext.happen history start = some server → Answered server request handler →
      StartsTransfer request → ∃ answer, getResponse now false request server = some answer ∧
        answer.payload = beginning request (handler request server.app).1.representation := by
  intro claimed
  obtain ⟨server, ran⟩ := isSome_iff_exists.mp
    (by decide +kernel : (runAll ServerContext.happen changedByte (byteServer 7)).isSome = true)
  have resources := (traced_of_runs (byteServer_ints 7) rfl ran).resources
  obtain ⟨answer, answers, payload⟩ := claimed changedByte (byteServer 7) server askFirst
    twentyTimes 6 rfl (byteServer_ints 7) ran (askFirst_answered resources) askFirst_starts
  have app : (runAll ServerContext.happen changedByte (byteServer 7)).map (·.app) = some 8 := by
    decide +kernel
  have old : (runAll ServerContext.happen changedByte (byteServer 7)).bind (fun server =>
      (getResponse 6 false askFirst server).map (·.payload)) =
        some (List.replicate 16 7) := by decide +kernel
  rw [ran, map_some] at app
  rw [ran, bind_some, answers, map_some, payload, some.inj app] at old
  exact absurd old (by decide +kernel)

end Idrm.Coap
