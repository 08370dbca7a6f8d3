import Idrm.Plugin.MessageCoder
import Idrm.Trans.Owned

/-!
# Requests of a plugin

`idrm_request_bus_service` registers a request with `cb_request` and publishes it on the bus. A
response comes back to `idrm_handle_bus_message`, and a request that is not answered in time
expires; either way `cb_request` is called, at once or in the working thread. The run keeps a
record of the requests sent, the responses that arrived and the requests that expired.

A framework with a working thread hands callbacks over in a queue that `create_dlist` makes.
`create_dlist` has no return statement, so there is no such framework to run.
-/

namespace Idrm.Plugin

open Idrm.Lib Idrm.Bus Idrm.Trans Option List

/-- `T_Broker_Message_Handle` -/
def tBrokerMessageHandle : UInt8 := 5

/-- `cb_request`: what it calls the user's handler with, before it releases the context. With
another format it does neither. -/
def cbRequest (response : Response BusMessage) : Option (Option RestfulResponse) :=
  if response.format ≠ tBrokerMessageHandle then none else some (response.data.map decodeResponse)

/-- The id a response on the bus is fed with; `none` for a message that is no response to the
module. -/
def responseId (moduleName : CString) (message : BusMessage) : Option UInt32 :=
  if message.properties .dest = some moduleName ∧ message.properties .tag = some tagRestResp then
    (message.properties .mid).map fun mid => (atoi mid).toUInt32
  else none

/-- `create_dlist` makes a queue and returns nothing: what its caller reads is no queue. -/
def createDlist {Q : Type} : Option Q := none

/-- `internal_queue` as `idrm_init_restful_framework` leaves it, `NULL` without a separate
thread. -/
def initInternalQueue {Q : Type} (separateThread : Bool) : Option (Option Q) :=
  if separateThread then createDlist.map some else some none

section Plugin

variable {H : Type}

/-- The transactions of a plugin; a callback's context is the user's handler with its data. -/
abbrev PluginWorld (H : Type) := World BusMessage H Unit

/-- A request that was sent. -/
structure PluginRequest (H : Type) where
  id : UInt32
  handler : H

/-- A response that arrived, after some number of requests had been sent. -/
structure Arrival where
  id : UInt32
  message : BusMessage
  sentBefore : Nat

/-- A plugin with its records. -/
structure PluginState (H : Type) where
  world : PluginWorld H
  sent : List (PluginRequest H)
  arrived : List Arrival
  expired : List Nat

/-- A plugin that has sent nothing yet. -/
def PluginState.start (now : UInt64) : PluginState H := ⟨World.start now, [], [], []⟩

/-- What happens to the requests of a plugin. -/
inductive PluginEvent (H : Type) where
  | request (handler : H) (timeout : UInt32)
  | busMessage (message : BusMessage)
  | expire
  | execute (index : Nat)

/-- `idrm_request_bus_service` for a request that can be encoded; `queue` tells whether
`internal_queue` is not `NULL`. -/
def idrmRequestBusService (queue : Bool) (now : UInt64) (handler : H) (timeout : UInt32)
    (state : PluginState H) : PluginState H :=
  let (mid, ctx) := bhGenId state.world.ctx
  { state with
    world := (bhWaitResponseAsync now mid (some handler) timeout (if queue then some () else none)
      { state.world with ctx := ctx }).2
    sent := state.sent ++ [⟨mid, handler⟩] }

/-- `idrm_handle_bus_message`, as far as it is about responses. -/
def idrmHandleBusMessage (malloc : UInt32 → Bool) (moduleName : CString) (message : BusMessage)
    (state : PluginState H) : Option (PluginState H) :=
  match responseId moduleName message with
  | none => some state
  | some id =>
    (bhFeedResponse malloc id ⟨some message, 0, tBrokerMessageHandle⟩ state.world).map fun world =>
      { state with
        world := world
        arrived := state.arrived ++ [⟨id, message, state.world.nextPtr⟩] }

/-- The requests that a check at some time finds to have run out. -/
def ranOut (now : UInt64) (world : PluginWorld H) : List (SyncNode BusMessage H Unit) :=
  world.ctx.list.filter (!·.stays (bhGetElpasedMs now world.ctx.lastCheck).1)

/-- One event, at a time in milliseconds. -/
def performPlugin (malloc : UInt32 → Bool) (queue : Bool) (moduleName : CString) :
    Nat × PluginEvent H → PluginState H → Option (PluginState H)
  | (time, .request handler timeout), state =>
    some (idrmRequestBusService queue (UInt64.ofNat time) handler timeout state)
  | (_, .busMessage message), state => idrmHandleBusMessage malloc moduleName message state
  | (time, .expire), state =>
    some { state with
      world := (bhHandleExpiredTrans (UInt64.ofNat time) state.world).2
      expired := state.expired ++ (ranOut (UInt64.ofNat time) state.world).map (·.ptr) }
  | (_, .execute index), state =>
    (executeCallbackNode index state.world).map fun world => { state with world := world }

/-- The calls of the user's handler for one request. -/
def callsOf (request : Nat) (state : PluginState H) : List (H × Option RestfulResponse) :=
  (state.world.invoked.filter (·.ptr = request)).filterMap fun invocation =>
    (cbRequest invocation.response).map (invocation.cb, ·)

/-- The contexts that were released, by their requests. -/
def released (state : PluginState H) : List Nat :=
  state.world.invoked.filterMap fun invocation => (cbRequest invocation.response).map
    fun _ => invocation.ptr

/-- A request that waits for its response, or for the working thread. -/
def Pending (request : Nat) (state : PluginState H) : Prop :=
  request ∈ state.world.ctx.list.map (·.ptr) ∨ request ∈ state.world.posted.map (·.transaction.ptr)

/-- Every request is pending, or its handler was called once: with the response that arrived
for it, or with nothing if it expired. Its context was released once then, and not before. -/
def Completes (state : PluginState H) : Prop :=
  ∀ number request, state.sent[number]? = some request →
    (Pending number state ∧ callsOf number state = [] ∧ (released state).count number = 0) ∨
    ((released state).count number = 1 ∧
      ((∃ arrival ∈ state.arrived, arrival.id = request.id ∧ number < arrival.sentBefore ∧
        callsOf number state = [(request.handler, some (decodeResponse arrival.message))]) ∨
      (number ∈ state.expired ∧ callsOf number state = [(request.handler, none)])))

/-- No check finds a request that has run out. -/
def NoneExpires (state : PluginState H) : Nat × PluginEvent H → Prop
  | (time, .expire) => ranOut (UInt64.ofNat time) state.world = []
  | _ => True

/-! ## What the events keep -/

/-- A response arrived for a request, after it was sent and with its id. -/
def ArrivedFor (state : PluginState H) (number : Nat) (id : UInt32)
    (response : Response BusMessage) : Prop :=
  ∃ arrival ∈ state.arrived, arrival.id = id ∧ number < arrival.sentBefore ∧
    response = ⟨some arrival.message, 0, tBrokerMessageHandle⟩

/-- The request of a number. -/
def SentAs (state : PluginState H) (number : Nat) (id : UInt32) (handler : H) : Prop :=
  state.sent[number]? = some ⟨id, handler⟩

/-- The invariant of the runs. -/
structure Kept (state : PluginState H) : Prop where
  numbered : state.sent.length = state.world.nextPtr
  accounted : Accounted (ArrivedFor state) state.world
  owned : Owned (SentAs state) state.world

variable {malloc : UInt32 → Bool} {queue : Bool} {moduleName : CString} {state next : PluginState H}

theorem Kept.start (now : UInt64) : Kept (PluginState.start now : PluginState H) :=
  ⟨rfl, accounted_start now, owned_start now⟩

theorem Kept.request (kept : Kept state) (now : UInt64) (handler : H) (timeout : UInt32) :
    Kept (idrmRequestBusService queue now handler timeout state) := by
  have chosen : ∀ ctx : SyncCtx BusMessage H Unit,
      chooseId (bhGenId state.world.ctx).1 ctx = ((bhGenId state.world.ctx).1, ctx) :=
    fun ctx => if_neg (bhGenId_ne state.world.ctx)
  refine ⟨?_, ?_, ?_⟩
  · have more := congrArg (· + 1) kept.numbered
    simpa [idrmRequestBusService, bhWaitResponseAsync] using more
  · have generated :
        Accounted (ArrivedFor state) { state.world with ctx := (bhGenId state.world.ctx).2 } :=
      kept.accounted.of_sameList rfl rfl
    exact generated.waitResponseAsync now (bhGenId state.world.ctx).1 (some handler) timeout
      (if queue then some () else none)
  · have own : SentAs (idrmRequestBusService queue now handler timeout state) state.world.nextPtr
        (bhGenId state.world.ctx).1 handler := by
      rw [SentAs, ← kept.numbered]
      exact List.getElem?_concat_length ..
    have later : Owned
        (SentAs (idrmRequestBusService queue now handler timeout state)) state.world :=
      kept.owned.weaken fun number id cb sentAs =>
        (List.getElem?_append_left (List.getElem?_eq_some_iff.mp sentAs).1).trans sentAs
    have grown : Owned (SentAs (idrmRequestBusService queue now handler timeout state))
        { state.world with ctx := (bhGenId state.world.ctx).2 } := later.relist later.listed
    refine grown.waitResponseAsync ?_
    have same := congrArg Prod.fst (chosen (bhUpdateTransTimer now (bhGenId state.world.ctx).2).2)
    exact same.symm ▸ own

theorem Kept.busMessage (kept : Kept state)
    (malloc : UInt32 → Bool) (moduleName : CString) (message : BusMessage) :
    ∃ next, idrmHandleBusMessage malloc moduleName message state = some next ∧ Kept next := by
  unfold idrmHandleBusMessage
  cases responseId moduleName message with
  | none => exact ⟨state, rfl, kept⟩
  | some id =>
    let after : List Arrival := state.arrived ++ [⟨id, message, state.world.nextPtr⟩]
    have cause : ∀ node ∈ state.world.ctx.list, node.id = id →
        ArrivedFor { state with arrived := after } node.ptr node.id
        ⟨some message, 0, tBrokerMessageHandle⟩ := by
      intro node member same
      refine ⟨_, mem_append_right _ mem_cons_self, same.symm, ?_, rfl⟩
      exact listed_lt kept.accounted member
    have carried : Accounted (ArrivedFor { state with arrived := after }) state.world :=
      kept.accounted.weaken fun number id response ⟨arrival, member, rest⟩ =>
        ⟨arrival, mem_append_left _ member, rest⟩
    obtain ⟨world, fed, accounted⟩ := carried.feedResponse malloc id _ cause
    have nextPtr := feedResponse_nextPtr fed
    refine ⟨{ state with world := world, arrived := after }, by simp only [fed,
      map_some, after], ?_⟩
    exact ⟨kept.numbered.trans nextPtr.symm, accounted, kept.owned.feedResponse fed⟩

theorem Kept.expire (kept : Kept state) (malloc : UInt32 → Bool) (queue : Bool)
    (moduleName : CString) {time : Nat} (none_ : NoneExpires state (time, .expire)) : ∃ next,
    performPlugin malloc queue moduleName (time, .expire) state = some next ∧ Kept next := by
  have stays : ∀ node ∈ state.world.ctx.list,
      node.stays (bhGetElpasedMs (UInt64.ofNat time) state.world.ctx.lastCheck).1 = true := by
    intro node member
    have kept := filter_eq_nil_iff.mp none_ node member
    simpa using kept
  have accounted := kept.accounted.handleExpiredTrans (UInt64.ofNat time) fun node member goes =>
    absurd (goes.symm.trans (stays node member)) Bool.false_ne_true
  have unchanged := handleExpiredTrans_of_stays stays
  refine ⟨_, rfl, ?_, accounted, ?_⟩
  · simp only [unchanged]
    exact kept.numbered
  · simp only [unchanged]
    exact kept.owned.removeExpired _

theorem Kept.execute (kept : Kept state) (index : Nat) : ∃ world,
    executeCallbackNode index state.world = some world ∧ Kept { state with world := world } := by
  obtain ⟨world, executed, accounted⟩ := kept.accounted.executeCallbackNode index
  exact ⟨world, executed, kept.numbered.trans (executeCallbackNode_nextPtr executed).symm,
    accounted, kept.owned.executeCallbackNode executed⟩

/-- Every event has a result and keeps the invariant, unless a request runs out. -/
theorem Kept.event (kept : Kept state) (malloc : UInt32 → Bool) (queue : Bool)
    (moduleName : CString) {event : Nat × PluginEvent H} (none_ : NoneExpires state event) :
    ∃ next, performPlugin malloc queue moduleName event state = some next ∧ Kept next := by
  obtain ⟨time, event⟩ := event
  cases event with
  | request handler timeout => exact ⟨_, rfl, kept.request _ handler timeout⟩
  | busMessage message => exact kept.busMessage malloc moduleName message
  | expire => exact kept.expire malloc queue moduleName none_
  | execute index =>
    obtain ⟨world, executed, after⟩ := kept.execute index
    refine ⟨{ state with world := world }, ?_, after⟩
    rw [performPlugin, executed, map_some]

/-! ## What the invariant says about a request -/

variable {number : Nat}

theorem cbRequest_of_arrivedFor {id : UInt32} {response : Response BusMessage}
    (arrivedFor : ArrivedFor state number id response) :
    ∃ arrival ∈ state.arrived, arrival.id = id ∧ number < arrival.sentBefore ∧
      cbRequest response = some (some (decodeResponse arrival.message)) := by
  obtain ⟨arrival, arrived, same, later, rfl⟩ := arrivedFor
  exact ⟨arrival, arrived, same, later, rfl⟩

/-- Every invocation releases its context. -/
theorem Kept.released_eq (kept : Kept state) :
    released state = state.world.invoked.map (·.ptr) := by
  have all : ∀ invocations : List (Invocation BusMessage H),
      (∀ invocation ∈ invocations, invocation ∈ state.world.invoked) →
      (invocations.filterMap fun invocation => (cbRequest invocation.response).map fun _ =>
      invocation.ptr) = invocations.map (·.ptr) := by
    intro invocations among
    induction invocations with
    | nil => rfl
    | cons invocation rest ih =>
      obtain ⟨arrival, -, -, -, called⟩ :=
        cbRequest_of_arrivedFor
          (kept.accounted.invokedBecause invocation (among invocation mem_cons_self))
      have later := ih fun other member => among other (mem_cons_of_mem _ member)
      rw [filterMap_cons_some (by rw [called]; rfl), later, map_cons]
  exact all _ fun _ member => member

/-- A request that was not freed is pending, and `cb_request` was not called for it. -/
theorem Kept.pending (kept : Kept state) (sent : number < state.world.nextPtr)
    (held : number ∉ state.world.freed) :
    Pending number state ∧ callsOf number state = [] ∧ (released state).count number = 0 := by
  have uninvoked : ∀ invocation ∈ state.world.invoked, invocation.ptr ≠ number :=
    fun invocation member same => held (same ▸ kept.accounted.invokedFreed invocation member)
  refine ⟨?_, ?_, ?_⟩
  · have placed := kept.accounted.places.symm.subset (mem_range.mpr sent)
    rcases mem_append.mp placed with none_ | placed
    · cases none_
    · rcases mem_append.mp placed with waiting | freed
      · exact mem_append.mp waiting
      · exact absurd freed held
  · have nothing : state.world.invoked.filter (·.ptr = number) = [] :=
      filter_eq_nil_iff.mpr fun invocation member => by simpa using uninvoked invocation member
    rw [callsOf, nothing, filterMap_nil]
  · rw [kept.released_eq, count_eq_zero]
    intro member
    obtain ⟨invocation, invoked, same⟩ := List.mem_map.mp member
    exact uninvoked invocation invoked same

/-- A freed request was completed with a response that arrived for it. -/
theorem Kept.completed (kept : Kept state) {request : PluginRequest H}
    (sentAs : state.sent[number]? = some request) (freed : number ∈ state.world.freed) :
    (released state).count number = 1 ∧
      ∃ arrival ∈ state.arrived, arrival.id = request.id ∧ number < arrival.sentBefore ∧
        callsOf number state = [(request.handler, some (decodeResponse arrival.message))] := by
  obtain ⟨invocation, invoked, rfl⟩ := kept.owned.freed number freed
  obtain ⟨arrival, arrived, same, later, called⟩ :=
    cbRequest_of_arrivedFor (kept.accounted.invokedBecause invocation invoked)
  have own : some request = some ⟨invocation.id, invocation.cb⟩ :=
    sentAs.symm.trans (kept.owned.invoked invocation invoked)
  obtain rfl := some.inj own
  refine ⟨?_, arrival, arrived, same, later, ?_⟩
  · rw [kept.released_eq]
    exact count_eq_one_of_mem kept.accounted.invokedOnce (List.mem_map_of_mem invoked)
  · rw [callsOf, filter_ptr_of_nodup kept.accounted.invokedOnce invoked,
      filterMap_cons_some (by rw [called]; rfl), filterMap_nil]

theorem Kept.completes (kept : Kept state) : Completes state := by
  intro number request sentAs
  by_cases freed : number ∈ state.world.freed
  · have completed := kept.completed sentAs freed
    exact .inr ⟨completed.1, .inl completed.2⟩
  · refine .inl (kept.pending ?_ freed)
    rw [← kept.numbered]
    exact (List.getElem?_eq_some_iff.mp sentAs).1

/-! ## Progress -/

end Plugin

end Idrm.Plugin
