import Idrm.Agent.SendRequest

/-!
# Every handler is called once

A handler that is left with a transport is owed a call where it waits: the node of a request on
the bus keeps its callback until it is freed, and an ongoing request at an endpoint leads to its
user until the user is called. Events on the one side leave the other alone.
-/

namespace Idrm.Agent.SendRequest

open Idrm.Lib Idrm.Coap Idrm.Trans Idrm.Bus Option List

variable {A : Type} {state after : SendState A} {number ptr : Nat} {place : Place}
  {request : SentRequest}
  {value : Option Handle}

/-! ## Records -/

/-- The handler of a call was left at a place. -/
def PlacedAt (state : SendState A) (number : Nat) (place : Place) : Prop :=
  ∃ request, state.requests[number]? = some request ∧ request.place = some place

theorem PlacedAt.unique {other : Place} (one : PlacedAt state number place)
    (two : PlacedAt state number other) : place = other := by
  obtain ⟨request, here, isPlace⟩ := one
  obtain ⟨same, there, isOther⟩ := two
  obtain rfl := some.inj (here.symm.trans there)
  exact some.inj (isPlace.symm.trans isOther)

theorem getElem?_record {state : SendState A} {found : SentRequest} :
    (state.record request).requests[number]? = some found ↔
      state.requests[number]? = some found ∨ number = state.requests.length ∧ found = request := by
  rw [SendState.record]
  by_cases older : number < state.requests.length
  · rw [List.getElem?_append_left older]
    exact ⟨.inl, fun either => either.resolve_right fun new => Nat.ne_of_lt older new.1⟩
  · rw [List.getElem?_append_right (Nat.not_lt.mp older),
      List.getElem?_eq_none (Nat.not_lt.mp older)]
    rcases Nat.eq_or_lt_of_le (Nat.not_lt.mp older) with same | later
    · rw [← same, Nat.sub_self]
      simp [eq_comm]
    · rw [List.getElem?_eq_none (by simp; omega)]
      simp [Nat.ne_of_gt later]

theorem placedAt_record : PlacedAt (state.record request) number place ↔
    PlacedAt state number place ∨ number = state.requests.length ∧ request.place = some place := by
  constructor
  · rintro ⟨found, here, isPlace⟩
    rcases getElem?_record.mp here with before | ⟨new, rfl⟩
    · exact .inl ⟨found, before, isPlace⟩
    · exact .inr ⟨new, isPlace⟩
  · rintro (⟨found, before, isPlace⟩ | ⟨new, isPlace⟩)
    · exact ⟨found, getElem?_record.mpr (.inl before), isPlace⟩
    · exact ⟨request, getElem?_record.mpr (.inr ⟨new, rfl⟩), isPlace⟩

/-- A call that leaves its handler nowhere changes no place. -/
theorem placedAt_unplaced (unplaced : request.place = none) :
    PlacedAt (state.record request) number place ↔ PlacedAt state number place := by
  rw [placedAt_record]
  refine or_iff_left fun new => ?_
  rw [unplaced] at new
  cases new.2

theorem not_placedAt_new (place : Place) : ¬PlacedAt state state.requests.length place := by
  rintro ⟨found, here, -⟩
  rw [List.getElem?_eq_none (Nat.le_refl _)] at here
  cases here

/-- The records of a run only grow. -/
structure Noted (state after : SendState A) : Prop where
  arrived : state.arrived ⊆ after.arrived
  expired : state.expired ⊆ after.expired

theorem Noted.occurred (noted : Noted state after) (occurred : Occurred number state value) :
    Occurred number after value := by
  cases value with
  | some handle => exact noted.arrived occurred
  | none =>
    rcases occurred with ranOut | ⟨reset, isReset, arrived⟩
    · exact .inl (noted.expired ranOut)
    · exact .inr ⟨reset, isReset, noted.arrived arrived⟩

/-! ## The outgoing requests -/

/-- A node has the handler that was left there for its callback, or none of a call. -/
def OwnsNode (state : SendState A) (ptr : Nat) (_ : UInt32) (cb : Option Nat) : Prop :=
  ptr < state.outgoing.nextPtr ∧ ∀ number, cb = some number ↔ PlacedAt state number (.node ptr)

/-- A node was resolved with what occurred for its call. -/
def ResolvedBy (state : SendState A) (ptr : Nat) (_ : UInt32) (response : Response Handle) : Prop :=
  ptr < state.outgoing.nextPtr ∧ ∀ number, PlacedAt state number (.node ptr) →
    Occurred number state response.data

/-- Every handler on the bus has a node of its own. -/
structure OnBus (state : SendState A) : Prop where
  accounted : Accounted (ResolvedBy state) state.outgoing
  owned : Owned (OwnsNode state) state.outgoing
  allocated : ∀ number ptr, PlacedAt state number (.node ptr) → ptr < state.outgoing.nextPtr
  single : ∀ number other ptr, PlacedAt state number (.node ptr) →
    PlacedAt state other (.node ptr) → number = other

/-- Nodes that are there keep their handlers. -/
structure Keeps (state after : SendState A) : Prop where
  nextPtr : state.outgoing.nextPtr ≤ after.outgoing.nextPtr
  placed : ∀ number ptr, ptr < state.outgoing.nextPtr →
    (PlacedAt after number (.node ptr) ↔ PlacedAt state number (.node ptr))
  noted : Noted state after

section Outgoing

variable {world : World Handle (Option Nat) Unit}

theorem Keeps.owned (keeps : Keeps state after) (owned : Owned (OwnsNode state) world) :
    Owned (OwnsNode after) world := by
  refine owned.weaken fun ptr id cb own => ⟨Nat.lt_of_lt_of_le own.1 keeps.nextPtr,
    fun number => ?_⟩
  rw [own.2 number, keeps.placed number ptr own.1]

theorem Keeps.accounted (keeps : Keeps state after)
    (accounted : Accounted (ResolvedBy state) world) : Accounted (ResolvedBy after) world := by
  refine accounted.weaken fun ptr id response resolved =>
    ⟨Nat.lt_of_lt_of_le resolved.1 keeps.nextPtr, fun number placed => ?_⟩
  exact keeps.noted.occurred (resolved.2 number ((keeps.placed number ptr resolved.1).mp placed))

/-- Requests that stay as they are keep their places. -/
theorem Keeps.sameRequests (nextPtr : state.outgoing.nextPtr = after.outgoing.nextPtr)
    (requests : after.requests = state.requests)
    (noted : Noted state after) : Keeps state after := by
  refine ⟨Nat.le_of_eq nextPtr, fun number ptr _ => ?_, noted⟩
  rw [PlacedAt, PlacedAt, requests]

/-- A step of the outgoing requests that registers nothing. -/
theorem OnBus.step (onBus : OnBus state) (nextPtr : state.outgoing.nextPtr = after.outgoing.nextPtr)
    (requests : after.requests = state.requests)
    (accounted : Accounted (ResolvedBy after) after.outgoing)
    (owned : Owned (OwnsNode after) after.outgoing) : OnBus after := by
  refine ⟨accounted, owned, fun number ptr placed => ?_, fun number other ptr one two => ?_⟩
  · rw [PlacedAt, requests] at placed
    exact nextPtr ▸ onBus.allocated number ptr placed
  · rw [PlacedAt, requests] at one two
    exact onBus.single number other ptr one two

/-- What happens elsewhere does not matter. -/
theorem OnBus.elsewhere (onBus : OnBus state) (outgoing : after.outgoing = state.outgoing)
    (placed : ∀ number ptr, PlacedAt after number (.node ptr) ↔ PlacedAt state number (.node ptr))
    (noted : Noted state after) : OnBus after := by
  have keeps : Keeps state after :=
    ⟨Nat.le_of_eq (by rw [outgoing]), fun number ptr _ => placed number ptr, noted⟩
  refine ⟨outgoing ▸ keeps.accounted onBus.accounted, outgoing ▸ keeps.owned onBus.owned,
    fun number ptr here => ?_, fun number other ptr one two => ?_⟩
  · rw [outgoing]
    exact onBus.allocated number ptr ((placed number ptr).mp here)
  · exact onBus.single number other ptr ((placed number ptr).mp one) ((placed other ptr).mp two)

/-- A request is registered, for a handler or for somebody else. -/
theorem OnBus.register (onBus : OnBus state) {now : UInt64} {id timeout : UInt32}
    {handler : Option Nat} {workThread : Option Unit} (outgoing : after.outgoing =
      (bhWaitResponseAsync now id (some handler) timeout workThread state.outgoing).2)
    (placed : ∀ number ptr, PlacedAt after number (.node ptr) ↔
      PlacedAt state number (.node ptr) ∨ handler = some number ∧ ptr = state.outgoing.nextPtr)
    (noted : Noted state after) : OnBus after := by
  have nextPtr : after.outgoing.nextPtr = state.outgoing.nextPtr + 1 :=
    congrArg World.nextPtr outgoing
  have keeps : Keeps state after := by
    refine ⟨nextPtr ▸ Nat.le_succ _, fun number ptr older => ?_, noted⟩
    rw [placed]
    exact or_iff_left fun new => Nat.ne_of_lt older new.2
  have unused (number : Nat) : ¬PlacedAt state number (.node state.outgoing.nextPtr) := fun here =>
    Nat.lt_irrefl _ (onBus.allocated number _ here)
  have own : OwnsNode after state.outgoing.nextPtr
      (chooseId id (bhUpdateTransTimer now state.outgoing.ctx).2).1 handler := by
    refine ⟨nextPtr ▸ Nat.lt_succ_self _, fun number => ?_⟩
    rw [placed]
    exact ⟨fun isNumber => .inr ⟨isNumber, rfl⟩,
      fun here => (here.resolve_left (unused number)).1⟩
  refine ⟨?_, ?_, fun number ptr here => ?_, fun number other ptr one two => ?_⟩
  · rw [outgoing]
    exact (keeps.accounted onBus.accounted).waitResponseAsync now id
      (some handler) timeout workThread
  · rw [outgoing]
    exact (keeps.owned onBus.owned).waitResponseAsync own
  · rw [nextPtr]
    rcases (placed number ptr).mp here with before | ⟨-, rfl⟩
    · exact Nat.lt_succ_of_lt (onBus.allocated number ptr before)
    · exact Nat.lt_succ_self _
  · rcases (placed number ptr).mp one with before | ⟨isNumber, rfl⟩
    · rcases (placed other ptr).mp two with beforeToo | ⟨-, rfl⟩
      · exact onBus.single number other ptr before beforeToo
      · exact absurd before (unused number)
    · rcases (placed other _).mp two with before | ⟨isOther, -⟩
      · exact absurd before (unused other)
      · exact some.inj (isNumber.symm.trans isOther)

/-- A node in the list has the handler that was left there. -/
theorem OnBus.numberOf_listed (onBus : OnBus state) {node : SyncNode Handle (Option Nat) Unit}
    (listed : node ∈ state.outgoing.ctx.list) (placed : PlacedAt state number (.node node.ptr)) :
    numberOf node = some number := by
  obtain ⟨cb, isCallback, own⟩ := onBus.owned.listed node listed
  rw [numberOf, isCallback, (own.2 number).mpr placed]
  rfl

theorem OnBus.response (onBus : OnBus state)
    (malloc : UInt32 → Bool) (id : UInt32) (handle : Handle)
    (fed : bhFeedResponse malloc id (responseOf handle) state.outgoing = some world) :
    OnBus { state with
      outgoing := world
      arrived := state.arrived ++ (waitingUnder id state.outgoing).map (·, handle) } := by
  have nextPtr := feedResponse_nextPtr fed
  let noted : SendState A :=
    { state with arrived := state.arrived ++ (waitingUnder id state.outgoing).map (·, handle) }
  have keeps : Keeps state noted :=
    .sameRequests rfl rfl ⟨subset_append_left _ _, List.Subset.refl _⟩
  have data : (responseOf handle).data = some handle := by cases handle <;> rfl
  obtain ⟨next, fedToo, accounted⟩ := (keeps.accounted onBus.accounted).feedResponse malloc id
      (responseOf handle) fun node listed same => by
      refine ⟨listed_lt onBus.accounted listed, fun number placed => ?_⟩
      rw [data]
      refine mem_append_right _ (List.mem_map_of_mem (mem_filterMap.mpr ⟨node, ?_, ?_⟩))
      · exact mem_filter.mpr ⟨listed, by simpa using same⟩
      · exact onBus.numberOf_listed listed placed
  obtain rfl := some.inj (fedToo.symm.trans fed)
  have owned := (keeps.owned onBus.owned).feedResponse fed
  have later : Keeps noted { noted with outgoing := next } := .sameRequests nextPtr.symm rfl
    ⟨List.Subset.refl _, List.Subset.refl _⟩
  exact onBus.step nextPtr.symm rfl (later.accounted accounted) (later.owned owned)

theorem OnBus.expire (onBus : OnBus state) (now : UInt64) :
    OnBus { state with
      outgoing := (bhHandleExpiredTrans now state.outgoing).2
      expired := state.expired ++ ranOut now state.outgoing } := by
  have nextPtr : (bhHandleExpiredTrans now state.outgoing).2.nextPtr = state.outgoing.nextPtr :=
    handleExpired_nextPtr (bhRemoveExpiredTrans now state.outgoing.ctx).2.1 _
  let noted : SendState A := { state with expired := state.expired ++ ranOut now state.outgoing }
  have keeps : Keeps state noted :=
    .sameRequests rfl rfl ⟨List.Subset.refl _, subset_append_left _ _⟩
  have accounted :=
    (keeps.accounted onBus.accounted).handleExpiredTrans now fun node listed goes => by
    refine ⟨listed_lt onBus.accounted listed, fun number placed => .inl ?_⟩
    refine mem_append_right _ (mem_filterMap.mpr ⟨node, ?_, onBus.numberOf_listed listed placed⟩)
    exact mem_filter.mpr ⟨listed, by rw [goes]; rfl⟩
  have owned := (keeps.owned onBus.owned).handleExpiredTrans now
  have later : Keeps noted { noted with outgoing := (bhHandleExpiredTrans now state.outgoing).2 } :=
    .sameRequests nextPtr.symm rfl ⟨List.Subset.refl _, List.Subset.refl _⟩
  exact onBus.step nextPtr.symm rfl (later.accounted accounted) (later.owned owned)

theorem OnBus.execute (onBus : OnBus state)
    {index : Nat} (executed : executeCallbackNode index state.outgoing = some world) :
    OnBus { state with outgoing := world } := by
  have nextPtr := executeCallbackNode_nextPtr executed
  obtain ⟨next, executedToo, accounted⟩ := onBus.accounted.executeCallbackNode index
  obtain rfl := some.inj (executedToo.symm.trans executed)
  have later : Keeps state { state with outgoing := next } := .sameRequests nextPtr.symm rfl
    ⟨List.Subset.refl _, List.Subset.refl _⟩
  exact onBus.step nextPtr.symm rfl (later.accounted accounted)
    (later.owned (onBus.owned.executeCallbackNode executed))

theorem OnBus.genId (onBus : OnBus state) : OnBus state.genId.2 := by
  have keeps : Keeps state state.genId.2 :=
    .sameRequests rfl rfl ⟨List.Subset.refl _, List.Subset.refl _⟩
  refine onBus.step rfl rfl (keeps.accounted ?_) (keeps.owned ?_)
  · exact onBus.accounted.of_sameList rfl rfl
  · exact onBus.owned.relist onBus.owned.listed

end Outgoing

/-! ## Endpoints -/

/-- Every handler at an endpoint is owed one call. -/
structure AtEndpoints (state : SendState A) : Prop where
  attended : Attended ∅ state.endpoint
  promises : Promises {number | PlacedAt state number .endpoint}
    (waitsFor state.endpoint) state.endpoint.env.called
  occurred : ∀ number value, (number, value) ∈ state.endpoint.env.called →
    Occurred number state (value.map .coapPacket)

section Endpoints

theorem AtEndpoints.elsewhere (atEndpoints : AtEndpoints state)
    (endpoint : after.endpoint = state.endpoint)
    (placed : ∀ number, PlacedAt after number .endpoint ↔ PlacedAt state number .endpoint)
    (noted : Noted state after) : AtEndpoints after := by
  have same : {number | PlacedAt after number .endpoint} =
    {number | PlacedAt state number .endpoint} := Set.ext placed
  refine ⟨endpoint ▸ atEndpoints.attended, ?_, fun number value called => ?_⟩
  · rw [same, endpoint]
    exact atEndpoints.promises
  · rw [endpoint] at called
    exact noted.occurred (atEndpoints.occurred number value called)

/-- A packet or a timer keeps the promise it is for, or hands it on. -/
theorem AtEndpoints.moves (atEndpoints : AtEndpoints state)
    {response : Option Packet} {asked : Option Nat} (attended : Attended ∅ after.endpoint)
    (moves : Moves response asked state.endpoint after.endpoint)
    (requests : after.requests = state.requests) (noted : Noted state after)
    (origin : ∀ number value, asked = some number → Suitable response value →
      Occurred number after (value.map .coapPacket)) : AtEndpoints after := by
  have same :
      {number | PlacedAt after number .endpoint} = {number | PlacedAt state number .endpoint} := by
    refine Set.ext fun number => ?_
    change PlacedAt after number .endpoint ↔ PlacedAt state number .endpoint
    rw [PlacedAt, PlacedAt, requests]
  have before (number : Nat)
    (value : Option Packet) (called : (number, value) ∈ state.endpoint.env.called) :
    Occurred number after (value.map .coapPacket) :=
    noted.occurred (atEndpoints.occurred number value called)
  cases moves with
  | rests waits calls =>
    refine ⟨attended, ?_, fun number value called => before number value (calls ▸ called)⟩
    rw [same, waits, calls]
    exact atEndpoints.promises
  | answers r user value isAsked here waits calls suitable =>
    refine ⟨attended, ?_, fun number other called => ?_⟩
    · rw [same, waits, calls]
      exact atEndpoints.promises.keep here value
    · rw [calls] at called
      rcases mem_append.mp called with old | new
      · exact before number other old
      · obtain ⟨rfl, rfl⟩ := Prod.mk.inj (mem_singleton.mp new)
        exact origin number other isAsked suitable
  | hands r fresh user here free waits calls =>
    refine ⟨attended, ?_, fun number value called => before number value (calls ▸ called)⟩
    rw [same, waits, calls]
    exact atEndpoints.promises.hand here free

/-- A handler joins those who wait. -/
theorem AtEndpoints.joins (atEndpoints : AtEndpoints state) {handler : Option Nat}
    (attended : Attended ∅ after.endpoint) (joins : Joins handler state.endpoint after.endpoint)
    (new : ∀ number, handler = some number → ¬PlacedAt state number .endpoint)
    (placed : ∀ number, PlacedAt after number .endpoint ↔ PlacedAt state number .endpoint ∨
      handler = some number) (noted : Noted state after) : AtEndpoints after := by
  obtain ⟨fresh, free, waits⟩ := joins.waits
  refine ⟨attended, ?_, fun number value called => ?_⟩
  · rw [waits, joins.called]
    cases handler with
    | none =>
      have same : {number | PlacedAt after number .endpoint} =
          {number | PlacedAt state number .endpoint} := by
        ext number
        exact (placed number).trans (or_iff_left (some_ne_none number).symm)
      have unchanged :
          Function.update (waitsFor state.endpoint) fresh none = waitsFor state.endpoint :=
        Function.update_eq_self_iff.mpr free.symm
      rw [same, unchanged]
      exact atEndpoints.promises
    | some handler =>
      have more : {number | PlacedAt after number .endpoint} = insert handler
          {number | PlacedAt state number .endpoint} := by
        refine Set.ext fun number => (placed number).trans ⟨?_, ?_⟩
        · rintro (before | isNew)
          · exact .inr before
          · exact .inl (some.inj isNew).symm
        · rintro (rfl | before)
          · exact .inr rfl
          · exact .inl before
      rw [more]
      exact atEndpoints.promises.make free (new handler rfl)
  · rw [joins.called] at called
    exact noted.occurred (atEndpoints.occurred number value called)

theorem AtEndpoints.packet (atEndpoints : AtEndpoints state) {source : A} {message : Packet}
    {endpoint : ClientContext A Nat} (plainly : AnswersPlainly state.endpoint message)
    (handles : coapHandleResponse runCallback source message state.endpoint = some endpoint) :
    AtEndpoints { state with
      endpoint := endpoint
      arrived := state.arrived ++ (answeredUser message state.endpoint).toList.map
        (·, .coapPacket message) } := by
  obtain ⟨attended, moves⟩ := atEndpoints.attended.coapHandleResponse plainly handles
  refine atEndpoints.moves attended moves rfl ⟨subset_append_left _ _, List.Subset.refl _⟩
    fun number value isAsked suitable => ?_
  have arrived : (number, Handle.coapPacket message) ∈ state.arrived ++
      (answeredUser message state.endpoint).toList.map (·, .coapPacket message) := by
    rw [isAsked]
    exact mem_append_right _ mem_cons_self
  rcases suitable with rfl | ⟨rfl, reset⟩
  · exact arrived
  · exact .inr ⟨message, reset message rfl, arrived⟩

theorem AtEndpoints.resend (atEndpoints : AtEndpoints state) {t : Nat} {transaction : Transaction A}
    {endpoint : ClientContext A Nat} (found : state.endpoint.transactionAt t = some transaction)
    (resends : resendTransaction runCallback transaction state.endpoint = some endpoint) :
    AtEndpoints { state with
      endpoint := endpoint
      expired := state.expired ++ (expiredUser t state.endpoint).toList } := by
  obtain ⟨attended, moves⟩ := atEndpoints.attended.resendTransaction found resends
  refine atEndpoints.moves attended moves rfl ⟨List.Subset.refl _, subset_append_left _ _⟩
    fun number value isAsked suitable => ?_
  have nothing : value = none := suitable.elim id And.left
  subst nothing
  refine .inl (mem_append_right _ ?_)
  rw [isAsked]
  exact mem_cons_self

end Endpoints

/-! ## Calls and events -/

/-- A call that leaves its handler nowhere sends nothing and has user data; any other asks for a
response. -/
structure Sound (request : SentRequest) : Prop where
  unplaced : request.place = none → request.sent = none ∧ request.call.userData = true
  placed : request.place ≠ none → ∃ message, request.sent = some message ∧ message.Asks

/-- The invariant of the runs. -/
structure Kept (state : SendState A) : Prop where
  onBus : OnBus state
  atEndpoints : AtEndpoints state
  sound : ∀ (number : Nat) (request : SentRequest), state.requests[number]? = some request →
    request.call.handler = true → Sound request

section Events

theorem Kept.start (created : UInt64) (mid : UInt16) :
    Kept (SendState.start created mid : SendState A) := by
  have nowhere {number : Nat} {place : Place} :
      ¬PlacedAt (SendState.start created mid : SendState A) number place := by
    rintro ⟨request, here, -⟩
    cases here
  refine ⟨⟨accounted_start created, owned_start created, fun _ _ here => absurd here nowhere,
    fun _ _ _ here => absurd here nowhere⟩, ⟨attended_new mid, ?_,
    fun _ _ called => absurd called not_mem_nil⟩, fun _ _ here => by cases here⟩
  have empty :
      {number | PlacedAt (SendState.start created mid : SendState A) number .endpoint} = ∅ :=
    Set.eq_empty_of_forall_notMem fun number => nowhere
  rw [empty]
  exact Promises.start

theorem Kept.genId (kept : Kept state) : Kept state.genId.2 :=
  ⟨kept.onBus.genId, kept.atEndpoints.elsewhere rfl (fun _ => Iff.rfl)
    ⟨List.Subset.refl _, List.Subset.refl _⟩, kept.sound⟩

/-- One more call is sound, if it has a handler. -/
theorem sound_record (sound : ∀ (number : Nat) (request : SentRequest),
      state.requests[number]? = some request → request.call.handler = true → Sound request)
    (new : request.call.handler = true → Sound request) {found : SentRequest}
    (here : (state.record request).requests[number]? = some found)
    (handler : found.call.handler = true) : Sound found := by
  rcases getElem?_record.mp here with before | ⟨-, rfl⟩
  · exact sound number found before handler
  · exact new handler

/-- A call that leaves its handler nowhere. -/
theorem Kept.record (kept : Kept state) (unplaced : request.place = none)
    (plain : request.call.handler = true → request.sent = none ∧ request.call.userData = true) :
    Kept (state.record request) where
  onBus := kept.onBus.elsewhere rfl (fun _ _ => placedAt_unplaced unplaced)
    ⟨List.Subset.refl _, List.Subset.refl _⟩
  atEndpoints := kept.atEndpoints.elsewhere rfl (fun _ => placedAt_unplaced unplaced)
    ⟨List.Subset.refl _, List.Subset.refl _⟩
  sound _ _ here handler :=
    sound_record kept.sound
      (fun given => ⟨fun _ => plain given, fun isPlaced => absurd unplaced isPlaced⟩) here handler

theorem busRequest_asks {moduleId : CString} {args : SendArgs} {msgId : UInt32} {uri : CString}
    {dest : Option CString} (requires : args.requireResponse = true) :
    (Message.bus (busRequest moduleId args msgId uri dest)).Asks := by
  have other : tagRestReq ≠ tagRestResp := by decide
  cases dest <;> simp [Message.Asks, busRequest, requires, setupBusRestfulMessage, other]

theorem endpointPacket_unobserved (call : SendCall) (msgId : UInt32) (resUri : CString) :
    (endpointPacket call msgId resUri).isOption .observe = false := rfl

theorem devicePacket_unobserved (call : SendCall) (msgId : UInt32) (path : CString) :
    (devicePacket call msgId path).isOption .observe = false := rfl

section Sending

variable {env : Surroundings A} {call : SendCall} {now : UInt64}

theorem Kept.sendToBus (kept : Kept state) {uri : CString} {dest : Option CString}
    (suits : call.handler = true → if env.allocates then call.args.requireResponse = true
      else call.userData = true) : Kept (sendToBus env now call uri dest state) := by
  have generated := kept.genId
  unfold SendRequest.sendToBus
  dsimp only
  split
  · rename_i fails
    refine generated.record rfl fun handler => ⟨rfl, ?_⟩
    have data := suits handler
    rw [fails, if_neg Bool.false_ne_true] at data
    exact data
  rename_i allocates
  split
  · rename_i handler
    have asks : call.args.requireResponse = true := by
      have requires := suits handler
      rw [Bool.of_not_eq_false allocates, if_pos rfl] at requires
      exact requires
    refine ⟨generated.onBus.register rfl (fun number ptr => ?_) ⟨List.Subset.refl _,
      List.Subset.refl _⟩, generated.atEndpoints.elsewhere rfl (fun number => ?_)
      ⟨List.Subset.refl _, List.Subset.refl _⟩, fun number found here given => ?_⟩
    · refine placedAt_record.trans (or_congr Iff.rfl ⟨?_, ?_⟩)
      · rintro ⟨rfl, isPlace⟩
        exact ⟨rfl, (Place.node.inj (some.inj isPlace)).symm⟩
      · rintro ⟨isNumber, rfl⟩
        exact ⟨(some.inj isNumber).symm, rfl⟩
    · refine placedAt_record.trans (or_iff_left fun new => ?_)
      cases some.inj new.2
    · refine sound_record generated.sound
        (fun _ => ⟨fun isNone => ?_, fun _ => ⟨_, rfl, ?_⟩⟩) here given
      · cases isNone
      · exact busRequest_asks asks
  · rename_i noHandler
    exact generated.record rfl fun handler => absurd handler noHandler

theorem Kept.sendToIbroker (kept : Kept state) {path : CString} (suits : call.handler = true →
      (env.ready = true → env.allocates = false) ∧ call.userData = true)
    (sends : sendToIbroker env call path state = some after) : Kept after := by
  unfold SendRequest.sendToIbroker at sends
  dsimp only at sends
  split at sends
  · split at sends
    · split at sends
      · obtain rfl := some.inj sends
        exact kept.record rfl fun handler => ⟨rfl, (suits handler).2⟩
      · obtain rfl := some.inj sends
        exact kept.genId.record rfl fun handler => ⟨rfl, (suits handler).2⟩
    · obtain rfl := some.inj sends
      exact kept.record rfl fun handler => ⟨rfl, (suits handler).2⟩
  rename_i ready
  split at sends
  · obtain rfl := some.inj sends
    exact kept.genId.record rfl fun handler => ⟨rfl, (suits handler).2⟩
  · rename_i allocates
    obtain ⟨serialized, -, rfl⟩ := map_eq_some_iff.mp sends
    exact kept.genId.record rfl fun handler => absurd
      ((suits handler).1 (Bool.of_not_eq_false ready)) allocates

theorem Kept.sendToEndpoint (kept : Kept state)
    {addr : A} {packet : Packet} (unobserved : packet.isOption .observe = false)
    (asks : call.handler = true → packet.type = .con)
    (sends : sendToEndpoint call addr packet state = some after) : Kept after := by
  obtain ⟨endpoint, requests, rfl⟩ := map_eq_some_iff.mp sends
  obtain ⟨attended, joins⟩ := kept.atEndpoints.attended.coapNonblockingRequest unobserved requests
  refine ⟨kept.onBus.elsewhere rfl (fun number ptr => ?_) ⟨List.Subset.refl _, List.Subset.refl _⟩,
    kept.atEndpoints.joins attended joins (fun number isNew => ?_) (fun number => ?_)
    ⟨List.Subset.refl _, List.Subset.refl _⟩, fun number found here given => ?_⟩
  · refine placedAt_record.trans (or_iff_left fun new => ?_)
    have isPlace := new.2
    dsimp only at isPlace
    split at isPlace
    · cases some.inj isPlace
    · cases isPlace
  · split at isNew
    · obtain rfl := some.inj isNew
      exact not_placedAt_new _
    · cases isNew
  · refine placedAt_record.trans (or_congr Iff.rfl ?_)
    by_cases handler : call.handler = true
    · rw [if_pos handler, if_pos handler]
      exact ⟨fun new => congrArg some new.1.symm, fun new => ⟨(some.inj new).symm, rfl⟩⟩
    · rw [if_neg handler, if_neg handler]
      exact ⟨fun new => absurd new.2.symm (some_ne_none _),
        fun new => absurd new.symm (some_ne_none _)⟩
  · refine sound_record kept.sound
      (fun handler => ⟨fun isNone => ?_, fun _ => ⟨.coap packet, rfl, asks handler⟩⟩) here given
    rw [if_pos handler] at isNone
    cases isNone

theorem Kept.sendRequest (kept : Kept state) (suits : call.handler = true → Suits env call)
    (sends : sendRequest env now call state = some after) : Kept after := by
  have type (handler : call.handler = true) : call.type = .con := by
    rw [SendCall.type, handler, Bool.or_true, if_pos rfl]
  unfold SendRequest.sendRequest at sends
  unfold Suits at suits
  cases target : route env call.args.target with
  | nowhere =>
    simp only [target] at sends suits
    obtain rfl := some.inj sends
    exact kept.record rfl fun handler => ⟨rfl, suits handler⟩
  | unconnected =>
    simp only [target] at sends suits
    obtain rfl := some.inj sends
    exact kept.genId.record rfl fun handler => ⟨rfl, suits handler⟩
  | endpoint addr resUri =>
    simp only [target] at sends
    exact kept.genId.sendToEndpoint (endpointPacket_unobserved call _ resUri) type sends
  | device addr path =>
    simp only [target] at sends
    exact kept.genId.sendToEndpoint (devicePacket_unobserved call _ path) type sends
  | ibroker path =>
    simp only [target] at sends suits
    exact kept.sendToIbroker suits sends
  | bus uri dest =>
    simp only [target] at sends suits
    obtain rfl := some.inj sends
    exact kept.sendToBus suits

end Sending

/-- One event. -/
theorem Kept.perform (kept : Kept state)
    {malloc : UInt32 → Bool} {event : Nat × SendEvent A} (permitted : Permitted state event)
    (performed : perform malloc event state = some after) : Kept after := by
  obtain ⟨time, event⟩ := event
  cases event with
  | send env call => exact kept.sendRequest permitted performed
  | genId =>
    obtain rfl := some.inj performed
    exact kept.genId
  | wait id timeout workThread =>
    obtain rfl := some.inj performed
    refine ⟨kept.onBus.register rfl (fun number ptr => ?_) ⟨List.Subset.refl _, List.Subset.refl _⟩,
      kept.atEndpoints.elsewhere rfl (fun _ => Iff.rfl) ⟨List.Subset.refl _, List.Subset.refl _⟩,
      kept.sound⟩
    exact (or_iff_left fun new => some_ne_none number new.1.symm).symm
  | response id handle =>
    obtain ⟨outgoing, fed, rfl⟩ := map_eq_some_iff.mp performed
    exact ⟨kept.onBus.response malloc id handle fed, kept.atEndpoints.elsewhere rfl
      (fun _ => Iff.rfl) ⟨subset_append_left _ _, List.Subset.refl _⟩, kept.sound⟩
  | expire =>
    obtain rfl := some.inj performed
    exact ⟨kept.onBus.expire _, kept.atEndpoints.elsewhere rfl (fun _ => Iff.rfl)
      ⟨List.Subset.refl _, subset_append_left _ _⟩, kept.sound⟩
  | execute index =>
    obtain ⟨outgoing, executed, rfl⟩ := map_eq_some_iff.mp performed
    exact ⟨kept.onBus.execute executed, kept.atEndpoints.elsewhere rfl (fun _ => Iff.rfl)
      ⟨List.Subset.refl _, List.Subset.refl _⟩, kept.sound⟩
  | packet source message =>
    rw [SendRequest.perform] at performed
    split at performed
    · obtain rfl := some.inj performed
      exact kept
    · rename_i response
      obtain ⟨endpoint, handled, rfl⟩ := map_eq_some_iff.mp performed
      exact ⟨kept.onBus.elsewhere rfl (fun _ _ => Iff.rfl) ⟨subset_append_left _ _,
        List.Subset.refl _⟩,
        kept.atEndpoints.packet (permitted (Bool.of_not_eq_true response)) handled, kept.sound⟩
  | resend ptr =>
    obtain ⟨transaction, found, resent⟩ := bind_eq_some_iff.mp performed
    obtain ⟨endpoint, resends, rfl⟩ := map_eq_some_iff.mp resent
    exact ⟨kept.onBus.elsewhere rfl (fun _ _ => Iff.rfl) ⟨List.Subset.refl _,
      subset_append_left _ _⟩, kept.atEndpoints.resend found resends, kept.sound⟩

end Events

/-! ## What the invariant says about a call -/

section Answered

theorem mem_of_keptWith {kept : List (Nat × Option Packet)} {value : Option Packet}
    (once : keptWith kept number = [value]) : (number, value) ∈ kept := by
  have member : value ∈ keptWith kept number := by
    rw [once]
    exact mem_cons_self
  obtain ⟨⟨promise, other⟩, here, rfl⟩ := List.mem_map.mp member
  obtain ⟨isKept, same⟩ := mem_filter.mp here
  obtain rfl := of_decide_eq_true same
  exact isKept

/-- The calls by the outgoing requests. -/
def busCalls (number : Nat) (state : SendState A) : List (Option Handle) :=
  (state.outgoing.invoked.filter (·.cb = some number)).map (·.response.data)

/-- The calls by the CoAP context. -/
def coapCalls (number : Nat) (state : SendState A) : List (Option Handle) :=
  (keptWith state.endpoint.env.called number).map (Option.map .coapPacket)

theorem callsOf_recorded (here : state.requests[number]? = some request) :
    callsOf number state = (if request.calledAtEnd then [none] else []) ++ busCalls number state ++
      coapCalls number state := by
  rw [callsOf, here]
  rfl

/-- A handler without a node is not called by the outgoing requests. -/
theorem OnBus.uncalled (onBus : OnBus state)
    (elsewhere : ∀ ptr, ¬PlacedAt state number (.node ptr)) : busCalls number state = [] := by
  refine map_eq_nil_iff.mpr (filter_eq_nil_iff.mpr fun invocation member own => ?_)
  exact elsewhere invocation.ptr
    (((onBus.owned.invoked invocation member).2 number).mp (of_decide_eq_true own))

/-- A handler that does not wait at an endpoint is not called by the CoAP context. -/
theorem AtEndpoints.uncalled (atEndpoints : AtEndpoints state)
    (elsewhere : ¬PlacedAt state number .endpoint) : coapCalls number state = [] := by
  rw [coapCalls, (atEndpoints.promises.others number elsewhere).2, map_nil]

/-- A handler on the bus waits, or was called once. -/
theorem OnBus.answered (onBus : OnBus state) (placed : PlacedAt state number (.node ptr)) :
    Waits number state ∧ busCalls number state = [] ∨ ∃ value,
    Occurred number state value ∧ busCalls number state = [value] := by
  have own (invocation : Invocation Handle (Option Nat))
      (member : invocation ∈ state.outgoing.invoked) :
      invocation.cb = some number ↔ invocation.ptr = ptr := by
    refine ((onBus.owned.invoked invocation member).2 number).trans
      ⟨fun here => ?_, fun same => same ▸ placed⟩
    exact Place.node.inj (here.unique placed)
  have calls : state.outgoing.invoked.filter (·.cb = some number) = state.outgoing.invoked.filter
      (·.ptr = ptr) :=
    filter_congr fun invocation member => decide_eq_decide.mpr (own invocation member)
  by_cases freed : ptr ∈ state.outgoing.freed
  · obtain ⟨invocation, member, rfl⟩ := onBus.owned.freed ptr freed
    refine .inr ⟨invocation.response.data,
      (onBus.accounted.invokedBecause invocation member).2 number placed, ?_⟩
    rw [busCalls, calls, filter_ptr_of_nodup onBus.accounted.invokedOnce member]
    rfl
  · refine .inl ⟨?_, ?_⟩
    · have somewhere :=
        onBus.accounted.places.symm.subset (mem_range.mpr (onBus.allocated number ptr placed))
      rcases mem_append.mp somewhere with held | somewhere
      · cases held
      · rcases mem_append.mp ((mem_append.mp somewhere).resolve_right freed) with listed | posted
        · obtain ⟨node, member, rfl⟩ := List.mem_map.mp listed
          exact .inl ⟨node, member, onBus.numberOf_listed member placed⟩
        · obtain ⟨callback, member, rfl⟩ := List.mem_map.mp posted
          obtain ⟨cb, isCallback, owns⟩ := onBus.owned.posted callback member
          refine .inr (.inl ⟨callback, member, ?_⟩)
          rw [numberOf, isCallback, (owns.2 number).mpr placed]
          rfl
    · refine map_eq_nil_iff.mpr
        (calls.trans (filter_eq_nil_iff.mpr fun invocation member same => freed ?_))
      exact of_decide_eq_true same ▸ onBus.accounted.invokedFreed invocation member

/-- A handler at an endpoint waits with a timer, or was called once. -/
theorem AtEndpoints.answered (atEndpoints : AtEndpoints state)
    (placed : PlacedAt state number .endpoint) : Waits number state ∧ coapCalls number state = [] ∨
    ∃ value, Occurred number state value ∧ coapCalls number state = [value] := by
  rcases atEndpoints.promises.promised number placed with ⟨r, only, unkept⟩ | ⟨value, -, once⟩
  · refine .inl ⟨.inr (.inr ⟨r, (only r).mpr rfl, ?_⟩), by rw [coapCalls, unkept, map_nil]⟩
    obtain ⟨request, there, user⟩ := bind_eq_some_iff.mp ((only r).mpr rfl)
    have timed := (atEndpoints.attended.tended r (Set.notMem_empty r) request there).timed
      (user ▸ some_ne_none number)
    obtain ⟨t, linked⟩ := ne_none_iff_exists'.mp timed
    obtain ⟨transaction, live, -⟩ := atEndpoints.attended.alive.tidy.transaction_linked there linked
    refine ⟨t, ?_, by rw [live]; rfl⟩
    rw [CoapContext.transactionOf, there]
    exact linked
  · refine .inr ⟨_, atEndpoints.occurred number value (mem_of_keptWith once), ?_⟩
    rw [coapCalls, once, map_singleton]

theorem Kept.answersOnce (kept : Kept state) : AnswersOnce state := by
  intro number request here handler
  have sound := kept.sound number request here handler
  cases isPlace : request.place with
  | none =>
    obtain ⟨unsent, data⟩ := sound.unplaced isPlace
    have nowhere (place : Place) : ¬PlacedAt state number place := by
      rintro ⟨found, there, isThere⟩
      obtain rfl := some.inj (here.symm.trans there)
      rw [isPlace] at isThere
      cases isThere
    refine ⟨fun _ => ?_, fun message sent => ?_⟩
    · rw [callsOf_recorded here, kept.onBus.uncalled fun ptr => nowhere _,
        kept.atEndpoints.uncalled (nowhere _), SentRequest.calledAtEnd, handler, data, isPlace]
      rfl
    · rw [unsent] at sent
      cases sent
  | some place =>
    obtain ⟨asked, sent, asks⟩ := sound.placed (isPlace ▸ some_ne_none place)
    have placed : PlacedAt state number place := ⟨request, here, isPlace⟩
    have handedOver : request.calledAtEnd = false := by
      rw [SentRequest.calledAtEnd, isPlace, isNone_some, Bool.and_false]
    refine ⟨fun unsent => ?_, fun message isSent => ?_⟩
    · rw [sent] at unsent
      cases unsent
    obtain rfl := some.inj (sent.symm.trans isSent)
    refine ⟨asks, ?_⟩
    rw [callsOf_recorded here, handedOver, if_neg Bool.false_ne_true, nil_append]
    cases place with
    | node ptr =>
      have notThere : ¬PlacedAt state number .endpoint := fun there => by cases placed.unique there
      rw [kept.atEndpoints.uncalled notThere, append_nil]
      exact kept.onBus.answered placed
    | endpoint =>
      have notThere : ∀ ptr, ¬PlacedAt state number (.node ptr) :=
        fun ptr there => by cases placed.unique there
      rw [kept.onBus.uncalled notThere, nil_append]
      exact kept.atEndpoints.answered placed

end Answered

/-! ## Every run -/

/-- In every run in which calls with a handler go over the bus or CoAP, ask for a response on the
bus and have user data where nothing is sent, and in which a packet for a handler answers it
plainly, every handler is called once. -/
theorem answersOnce_of_permitted {malloc : UInt32 → Bool}
    {created : UInt64} {mid : UInt16} {events : List (Nat × SendEvent A)}
    (runs : RunsUnder (perform malloc) Permitted (SendState.start created mid) events state) :
    AnswersOnce state :=
  (runs.keeps (fun kept permitted performed => kept.perform permitted performed)
    (Kept.start created mid)).answersOnce

/-- Around a call: no urls with a host, no clients, and endpoints that are connected. -/
def sampleSurroundings : Surroundings Nat where
  parseUrl _ := none
  standardOf _ := none
  endpointConn _ := some 9
  ready := true
  selfAgentId := .empty
  moduleId := moduleAgent
  time := 5
  allocates := true

/-- A call with a handler. -/
def sampleCall (target : List UInt8) (requireResponse userData : Bool) : SendCall :=
  ⟨⟨.ofBytes target, 0, [1], requireResponse, coapPut, none⟩, true, userData⟩

/-- `"m/a/b"`, for the bus -/
def busTarget : List UInt8 := [0x6D, 0x2F, 0x61, 0x2F, 0x62]
/-- `"ibroker/a"` -/
def cloudTarget : List UInt8 := ibrokerStem ++ [0x2F, 0x61]
/-- `"ep/a/b"` -/
def epTarget : List UInt8 := [0x65, 0x70, 0x2F, 0x61, 0x2F, 0x62]

/-- A call over the bus is answered in time. -/
def answeredCall : List (Nat × SendEvent Nat) :=
  [(0, .send sampleSurroundings (sampleCall busTarget true true)),
    (1, .response 0 (.busMessage busReply))]

theorem answersOnce_answeredCall : ∃ state : SendState Nat,
    RunsUnder (perform fun _ => true) Permitted (SendState.start 0 0) answeredCall state ∧
    callsOf 0 state = [some (.busMessage busReply)] ∧ AnswersOnce state := by
  have runs : RunsUnder (perform fun _ => true) Permitted
      (SendState.start 0 0 : SendState Nat) answeredCall _ :=
    .call (fun _ => rfl) rfl (.call trivial rfl (.done _))
  exact ⟨_, runs, rfl, answersOnce_of_permitted runs⟩

/-- What a run shows of its first call: whether it has a handler and sent a message, the calls of
the handler and whether they had a response, how many responses and timeouts were matched, and how
many nodes, posted callbacks and transactions there are. -/
def shown (state : SendState Nat) : Option (Bool × Bool) × List Bool × Nat × Nat :=
  ((state.requests[0]?).map fun request => (request.call.handler, request.sent.isSome),
    (callsOf 0 state).map Option.isSome, state.arrived.length + state.expired.length,
    state.outgoing.ctx.list.length + state.outgoing.posted.length +
    state.endpoint.transactions.length)

theorem answered_of_shown {state : SendState Nat} {calls : List Bool}
    {noted places : Nat} (answers : AnswersOnce state)
    (shows : shown state = (some (true, true), calls, noted, places)) : Waits 0 state ∧
    callsOf 0 state = [] ∨ ∃ value, Occurred 0 state value ∧ callsOf 0 state = [value] := by
  obtain ⟨request, here, both⟩ := map_eq_some_iff.mp (Prod.mk.inj shows).1
  obtain ⟨handler, isSent⟩ := Prod.mk.inj both
  obtain ⟨message, sent⟩ := isSome_iff_exists.mp isSent
  exact ((answers 0 request here handler).2 message sent).2

/-- A handler that is called with nothing before anything occurred. -/
theorem not_answersOnce_of_early {state : SendState Nat} {places : Nat}
    (shows : shown state = (some (true, true), [false], 0, places)) : ¬AnswersOnce state := by
  intro answers
  obtain ⟨-, calls, noted, -⟩ : _ ∧ _ ∧ _ ∧ _ := by simpa only [shown, Prod.mk.injEq] using shows
  rcases answered_of_shown answers shows with ⟨-, uncalled⟩ | ⟨value, occurred, called⟩
  · rw [uncalled] at calls
    cases calls
  · rw [called] at calls
    obtain ⟨arrived, expired⟩ := Nat.add_eq_zero_iff.mp noted
    rw [length_eq_zero_iff] at arrived expired
    cases value with
    | some handle => cases calls
    | none =>
      rcases occurred with ranOut | ⟨reset, -, matched⟩
      · rw [expired] at ranOut
        cases ranOut
      · rw [arrived] at matched
        cases matched

/-- A handler that is not called, and waits without a timer. -/
theorem not_answersOnce_of_lost {state : SendState Nat} {noted : Nat}
    (shows : shown state = (some (true, true), [], noted, 0)) : ¬AnswersOnce state := by
  intro answers
  obtain ⟨-, calls, -, places⟩ : _ ∧ _ ∧ _ ∧ _ := by simpa only [shown, Prod.mk.injEq] using shows
  obtain ⟨nodes, transactions⟩ := Nat.add_eq_zero_iff.mp places
  obtain ⟨listed, posted⟩ := Nat.add_eq_zero_iff.mp nodes
  rw [length_eq_zero_iff] at listed posted transactions
  rcases answered_of_shown answers shows with ⟨waits, -⟩ | ⟨value, -, called⟩
  · rcases waits with ⟨node, member, -⟩ | ⟨callback, member, -⟩ | ⟨r, -, t, -, live⟩
    · rw [listed] at member
      cases member
    · rw [posted] at member
      cases member
    · rw [CoapContext.transactionAt, transactions] at live
      cases live
  · rw [called] at calls
    cases calls

/-- A message on the bus that needs no response is an event; a handler is called at once with
nothing though the request is on its way to the cloud; without user data it is not called where
nothing is sent; and an empty acknowledgement leaves it without a timer. -/
theorem answersOnce_fails : (∃ state, runAll (perform fun _ => true) [(0, .send sampleSurroundings
      (sampleCall busTarget false true))] (SendState.start 0 0) = some state ∧ ¬AnswersOnce state) ∧
    (∃ state, runAll (perform fun _ => true) [(0, .send sampleSurroundings (sampleCall cloudTarget
      true true))] (SendState.start 0 0) = some state ∧ ¬AnswersOnce state) ∧
    (∃ state, runAll (perform fun _ => true) [(0, .send sampleSurroundings
      (sampleCall [] true false))] (SendState.start 0 0) = some state ∧ ¬AnswersOnce state) ∧
    ∃ state, runAll (perform fun _ => true) [(0, .send sampleSurroundings
      (sampleCall epTarget true true)), (1, .packet 9 (coapInitMessage .ack noError 1))]
    (SendState.start 0 0) = some state ∧ ¬AnswersOnce state := by
  refine ⟨⟨_, rfl, fun answers => ?_⟩, ?_, ⟨_, rfl, fun answers => ?_⟩, ?_⟩
  · have asks := ((answers 0 _ rfl rfl).2 _ rfl).1
    exact absurd (some.inj asks) (by decide)
  · have runs : (runAll (perform fun _ => true) [(0, .send sampleSurroundings
        (sampleCall cloudTarget true true))] (SendState.start 0 0)).map shown =
        some (some (true, true), [false], 0, 0) := by decide +kernel
    obtain ⟨state, ran, shows⟩ := map_eq_some_iff.mp runs
    exact ⟨state, ran, not_answersOnce_of_early shows⟩
  · have called := (answers 0 _ rfl rfl).1 rfl
    cases called
  · have runs : (runAll (perform fun _ => true) [(0, .send sampleSurroundings
        (sampleCall epTarget true true)), (1, .packet 9 (coapInitMessage .ack noError 1))]
        (SendState.start 0 0)).map shown = some (some (true, true), [], 0, 0) := by decide +kernel
    obtain ⟨state, ran, shows⟩ := map_eq_some_iff.mp runs
    exact ⟨state, ran, not_answersOnce_of_lost shows⟩

end Idrm.Agent.SendRequest
