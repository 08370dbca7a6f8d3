import Idrm.Coap.LiveTransfers

/-!
# What the events of a client change

An event runs the callback of at most one request. What is freed around it takes requests and
transactions away; the callback ends its transfer, or writes the state of its transfer and puts
a request for it behind the others. No other state is touched.
-/

namespace Idrm.Coap

open Idrm.Lib Function Option List

variable {A U : Type} {ctx after : ClientContext A U} {state stored : RequestState U}

/-! ## The messages of uploads -/

instance (state : RequestState U) (response : Packet) : Decidable (PutGoesOn state response) :=
  inferInstanceAs (Decidable (_ ∧ _ ∧ _ ∧ (_ ∧ _ ∨ _ ∧ ¬ _)))

/-- The state of the upload that an event brings a response for. -/
def ClientEvent.putAnswered (event : ClientEvent A U) (ctx : ClientContext A U) :
    Option (RequestState U × Packet) :=
  (event.called ctx).bind fun r =>
    match r.callback with
    | .put ptr => (stateAt ctx ptr).bind fun state => event.response.map fun response =>
      (state, response)
    | _ => none

/-- An upload at its next block. -/
def nextUpload (state : RequestState U) (ctx : ClientContext A U) : RequestState U :=
  { state with blockNum := state.blockNum + 1 }.renew (coapGetMid ctx).1 ctx.nextPtr

/-- The state that `coap_nonblocking_put_callback` makes its next message from. -/
def ClientEvent.upload (event : ClientEvent A U) (ctx : ClientContext A U) :
    Option (RequestState U) :=
  (event.putAnswered ctx).bind fun answered =>
    if PutGoesOn answered.1 answered.2 then some (nextUpload answered.1 ctx) else none

/-- `payload_len` is a `uint16_t`. -/
def ClientEvent.Sized : ClientEvent A U → Prop
  | .put _ request _ => request.payload.length < 65536
  | _ => True

/-- An upload whose blocks so far were all in its payload. -/
structure Uploading (state : RequestState U) : Prop where
  blockSize : state.blockSize = 1024
  length : state.request.payload.length < 65536
  inside : state.blockNum.toNat * 1024 ≤ state.request.payload.length

/-! ## What calls change -/

/-- New transactions get fresh addresses, and are sent at least once. -/
structure Ready (ctx : ClientContext A U) : Prop where
  below : ∀ t ∈ ctx.transactions, t.ptr < ctx.nextPtr
  retries : 0 < ctx.defaultRetransCnt

/-- Requests and transactions go, and none come. -/
structure Frees (ctx after : ClientContext A U) : Prop where
  leaves : OnlyLeaves ctx after
  nextPtr : after.nextPtr = ctx.nextPtr
  retries : after.defaultRetransCnt = ctx.defaultRetransCnt
  transactions : ∀ t ∈ after.transactions, ∃ old ∈ ctx.transactions, old.ptr = t.ptr

/-- Nothing is new but for requests of users. -/
structure Less (ctx after : ClientContext A U) : Prop where
  ready : Ready ctx → Ready after
  nextPtr : ctx.nextPtr ≤ after.nextPtr
  states : ∀ ptr state, stateAt after ptr = some state → stateAt ctx ptr = some state
  waits : ∀ r ∈ after.ongoingRequests, ∀ ptr, r.callback.stateOf = some ptr →
    ∃ old ∈ ctx.ongoingRequests, old.callback = r.callback

/-- A state is new or was written, and a request waits for it. -/
structure WritesState (stored : RequestState U) (callback : ClientCallback U)
    (ctx after : ClientContext A U) : Prop where
  ready : Ready ctx → Ready after
  nextPtr : ctx.nextPtr ≤ after.nextPtr
  states : ∀ ptr state, stateAt after ptr = some state →
    ptr ≠ stored.ptr ∧ stateAt ctx ptr = some state ∨ ptr = stored.ptr ∧ state = stored
  waits : ∀ r ∈ after.ongoingRequests, ∀ ptr, r.callback.stateOf = some ptr →
    r.callback = callback ∨ ∃ old ∈ ctx.ongoingRequests, old.callback = r.callback

section Calls

variable {middle : ClientContext A U} {callback : ClientCallback U} {ptr : Nat}
  {transaction : Transaction A}

/-- Nothing done frees nothing. -/
theorem Frees.refl (ctx : ClientContext A U) : Frees ctx ctx :=
  ⟨.refl ctx, rfl, rfl, fun t member => ⟨t, member, rfl⟩⟩

/-- Two steps that only free only free. -/
theorem Frees.trans (one : Frees ctx middle) (two : Frees middle after) : Frees ctx after where
  leaves := one.leaves.trans two.leaves
  nextPtr := two.nextPtr.trans one.nextPtr
  retries := two.retries.trans one.retries
  transactions := by
    intro t member
    obtain ⟨old, oldMember, same⟩ := two.transactions t member
    obtain ⟨first, firstMember, sameFirst⟩ := one.transactions old oldMember
    exact ⟨first, firstMember, sameFirst.trans same⟩

theorem frees_modifyTransaction (ptr : Nat)
    (change : Transaction A → Transaction A) (samePtr : ∀ t, (change t).ptr = t.ptr)
    (ctx : ClientContext A U) : Frees ctx (modifyTransaction ptr change ctx) where
  leaves := modifyTransaction_leaves ptr change ctx
  nextPtr := rfl
  retries := rfl
  transactions := by
    intro t member
    obtain ⟨old, oldMember, rfl⟩ := List.mem_map.mp member
    refine ⟨old, oldMember, ?_⟩
    split
    · exact (samePtr old).symm
    · rfl

theorem frees_transmit (addr : A) (packet : List UInt8) (ctx : ClientContext A U) :
    Frees ctx (transmit addr packet ctx) :=
  ⟨transmit_leaves addr packet ctx, rfl, rfl, fun t member => ⟨t, member, rfl⟩⟩

theorem frees_coapClearTransaction (transaction : Transaction A) (ctx : ClientContext A U) :
    Frees ctx (coapClearTransaction transaction ctx) where
  leaves := coapClearTransaction_leaves transaction ctx
  nextPtr := (coapClearTransaction_rest transaction ctx).nextPtr
  retries := (coapClearTransaction_rest transaction ctx).retries
  transactions := by
    intro t member
    have left : t ∈ ctx.transactions.filter (·.ptr ≠ transaction.ptr) := by
      cases linked : transaction.ongoingRequest with
      | none =>
        rw [coapClearTransaction_single linked] at member
        exact member
      | some request =>
        rw [coapClearTransaction_linked linked] at member
        exact member
    exact ⟨t, (mem_filter.mp left).1, rfl⟩

theorem frees_freeOngoingRequest (request : OngoingRequest (ClientCallback U))
    (ctx : ClientContext A U) : Frees ctx (freeOngoingRequest request ctx) where
  leaves := freeOngoingRequest_leaves request ctx
  nextPtr := (freeOngoingRequest_rest request ctx).nextPtr
  retries := (freeOngoingRequest_rest request ctx).retries
  transactions := by
    cases linked : request.transaction with
    | none =>
      rw [freeOngoingRequest_single linked]
      exact fun t member => ⟨t, member, rfl⟩
    | some address =>
      rw [freeOngoingRequest_linked linked]
      exact (frees_modifyTransaction address Transaction.unlinked (fun _ => rfl)
        (withoutRequest request ctx)).transactions

/-- The end of a transaction only frees. -/
theorem frees_endTransaction (transaction : Transaction A) (ctx : ClientContext A U) :
    Frees ctx (endTransaction transaction ctx) := by
  unfold endTransaction
  split
  · exact frees_coapClearTransaction transaction ctx
  · exact (frees_freeOngoingRequest _ ctx).trans (frees_coapClearTransaction _ _)

/-- Nothing new comes of two such steps. -/
theorem Less.trans (one : Less ctx middle) (two : Less middle after) : Less ctx after where
  ready before := two.ready (one.ready before)
  nextPtr := Nat.le_trans one.nextPtr two.nextPtr
  states ptr state found := one.states ptr state (two.states ptr state found)
  waits := by
    intro r member ptr owner
    obtain ⟨old, oldMember, same⟩ := two.waits r member ptr owner
    obtain ⟨first, firstMember, sameFirst⟩ :=
      one.waits old oldMember ptr (by rw [same]; exact owner)
    exact ⟨first, firstMember, sameFirst.trans same⟩

theorem Less.writes (less : Less ctx middle) (writes : WritesState stored callback middle after) :
    WritesState stored callback ctx after where
  ready before := writes.ready (less.ready before)
  nextPtr := Nat.le_trans less.nextPtr writes.nextPtr
  states ptr state found :=
    (writes.states ptr state found).imp_left fun both => ⟨both.1, less.states ptr state both.2⟩
  waits := by
    intro r member ptr owner
    refine (writes.waits r member ptr owner).imp_right ?_
    rintro ⟨old, oldMember, same⟩
    obtain ⟨first, firstMember, sameFirst⟩ :=
      less.waits old oldMember ptr (by rw [same]; exact owner)
    exact ⟨first, firstMember, sameFirst.trans same⟩

theorem WritesState.less (writes : WritesState stored callback ctx middle)
    (less : Less middle after) : WritesState stored callback ctx after where
  ready before := less.ready (writes.ready before)
  nextPtr := Nat.le_trans writes.nextPtr less.nextPtr
  states ptr state found := writes.states ptr state (less.states ptr state found)
  waits := by
    intro r member ptr owner
    obtain ⟨old, oldMember, same⟩ := less.waits r member ptr owner
    rw [← same]
    exact writes.waits old oldMember ptr (by rw [same]; exact owner)

/-- Where the states are left alone, the requests say everything. -/
theorem Frees.less (frees : Frees ctx after) : Less ctx after where
  ready before := by
    refine ⟨fun t member => ?_, frees.retries ▸ before.retries⟩
    obtain ⟨old, oldMember, same⟩ := frees.transactions t member
    rw [← same, frees.nextPtr]
    exact before.below old oldMember
  nextPtr := Nat.le_of_eq frees.nextPtr.symm
  states ptr state found := by
    rw [stateAt, frees.leaves.env] at found
    exact found
  waits := by
    intro r member ptr owner
    obtain ⟨old, oldMember, -, same⟩ := frees.leaves.requests r member
    exact ⟨old, oldMember, same⟩

theorem less_env {env : ClientEnv U} (fewer : ∀ ptr state,
      stateAt (ctx.withEnv env) ptr = some state → stateAt ctx ptr = some state) :
    Less ctx (ctx.withEnv env) :=
  ⟨fun ready => ⟨ready.below, ready.retries⟩, Nat.le_refl _, fewer,
    fun r member _ _ => ⟨r, member, rfl⟩⟩

/-- A call of the user makes nothing new. -/
theorem less_callIfSet (callback : Option U) (response : Option Packet) (ctx : ClientContext A U) :
    Less ctx (callIfSet callback response ctx) := by
  obtain ⟨calls, same⟩ := callIfSet_withCalled callback response ctx
  rw [same]
  exact less_env fun _ _ found => found

theorem less_free (state : RequestState U) (ctx : ClientContext A U) :
    Less ctx (freeBlockwiseState state ctx) := by
  refine less_env fun ptr other found => ?_
  have freed : stateAt (freeBlockwiseState state ctx) ptr = some other := found
  rw [stateAt_freeBlockwiseState] at freed
  by_cases same : ptr = state.ptr
  · rw [same, update_self] at freed
    cases freed
  · rwa [update_of_ne same] at freed

theorem less_cleanupPut (state : RequestState U) (ctx : ClientContext A U) :
    Less ctx (cleanupPut state ctx) :=
  (less_callIfSet ..).trans (less_free ..)

/-- Nor does the callback of a timeout. -/
theorem less_expireCallback (expires : expireCallback callback ctx = some after) :
    Less ctx after := by
  cases callback with
  | user callback =>
    cases expires
    exact less_callIfSet callback none ctx
  | put ptr =>
    obtain ⟨state, -, rfl⟩ := map_eq_some_iff.mp expires
    exact less_cleanupPut state ctx
  | request ptr =>
    obtain ⟨state, -, cleans⟩ := bind_eq_some_iff.mp expires
    obtain ⟨callback, -, rfl⟩ := map_eq_some_iff.mp cleans
    exact (less_callIfSet (some callback) none ctx).trans (less_free ..)

/-- Sending a transaction at most ends a transfer. -/
theorem less_coapSendTransaction {run : Run A U}
    (called : ∀ {callback next}, run callback none ctx = some next → Less ctx next)
    (sends : coapSendTransaction run transaction ctx = some after) : Less ctx after := by
  unfold coapSendTransaction at sends
  split at sends
  · split at sends
    · cases sends
      exact ((frees_modifyTransaction transaction.ptr Transaction.counted (fun _ => rfl) ctx).trans
        (frees_transmit _ _ _)).less
    · split at sends
      · cases sends
        exact (frees_endTransaction transaction ctx).less
      · obtain ⟨next, calls, rfl⟩ := map_eq_some_iff.mp sends
        exact (called calls).trans (frees_endTransaction transaction next).less
  · cases sends
    exact ((frees_transmit _ _ ctx).trans (frees_endTransaction transaction _)).less

/-- Nor does sending. -/
theorem less_sendTransactionAt (sends : sendTransactionAt ptr ctx = some after) :
    Less ctx after := by
  obtain ⟨transaction, -, sends⟩ := bind_eq_some_iff.mp sends
  exact less_coapSendTransaction less_expireCallback sends

/-- Nor does packing. -/
theorem less_setTransactionPacket {message : Packet}
    (packs : setTransactionPacket ptr message ctx = some after) : Less ctx after := by
  obtain ⟨packet, rfl⟩ := setTransactionPacket_cases packs
  exact (frees_modifyTransaction ptr (Transaction.packed message.type packet)
    (fun _ => rfl) ctx).less

/-- A new transaction keeps the addresses fresh. -/
theorem Ready.newTransaction (ready : Ready ctx) (mid : UInt16) (addr : A) :
    Ready (coapNewTransaction mid addr ctx).2 where
  below := by
    intro t member
    rcases mem_append.mp member with old | new
    · exact Nat.lt_succ_of_lt (ready.below t old)
    · rw [mem_singleton.mp new]
      exact Nat.lt_succ_self _
  retries := ready.retries

/-- So does arming. -/
theorem Ready.setResponseHandler (ready : Ready ctx) (t : Nat) (message : Packet)
    (callback : ClientCallback U) : Ready (coapSetResponseHandler t message callback ctx) := by
  unfold coapSetResponseHandler
  split
  · exact ready
  · refine ⟨fun other member => ?_, ready.retries⟩
    obtain ⟨old, oldMember, rfl⟩ := List.mem_map.mp member
    have bound := ready.below old oldMember
    split <;> exact Nat.lt_succ_of_lt bound

theorem less_coapGetMid (ctx : ClientContext A U) : Less ctx (coapGetMid ctx).2 :=
  less_env fun _ _ found => found

/-- A transaction with a new message id. -/
theorem less_numbered (addr : A) (ctx : ClientContext A U) :
    Less ctx (coapNewTransaction (coapGetMid ctx).1 addr (coapGetMid ctx).2).2 :=
  (less_coapGetMid ctx).trans ⟨fun ready => ready.newTransaction _ addr, Nat.le_succ _,
    fun _ _ found => found, fun r member _ _ => ⟨r, member, rfl⟩⟩

/-- A new request waits for a state. -/
theorem waits_setResponseHandler (t : Nat)
    (message : Packet) (callback : ClientCallback U) (ctx : ClientContext A U) :
    ∀ r ∈ (coapSetResponseHandler t message callback ctx).ongoingRequests, r.callback = callback ∨
    ∃ old ∈ ctx.ongoingRequests, old.callback = r.callback := by
  intro r member
  unfold coapSetResponseHandler at member
  split at member
  · exact .inr ⟨r, member, rfl⟩
  · rcases mem_append.mp member with old | new
    · exact .inr ⟨r, old, rfl⟩
    · rw [mem_singleton.mp new]
      exact .inl rfl

/-- A state is written and gets a request. -/
theorem writes_store (stored : RequestState U) (callback : ClientCallback U)
    (t : Nat) (message : Packet) (ctx : ClientContext A U) : WritesState stored callback ctx
      (coapSetResponseHandler t message callback (storeState stored ctx)) where
  ready before := by
    have kept : Ready (storeState stored ctx) := ⟨before.below, before.retries⟩
    exact kept.setResponseHandler t message callback
  nextPtr := coapSetResponseHandler_nextPtr t message callback (storeState stored ctx)
  states := by
    intro ptr state found
    rw [stateAt_congr (coapSetResponseHandler_env t message callback (storeState stored ctx)),
      stateAt_storeState] at found
    by_cases same : ptr = stored.ptr
    · rw [same, update_self] at found
      obtain ⟨old, -, rfl⟩ := map_eq_some_iff.mp found
      exact .inr ⟨same, rfl⟩
    · rw [update_of_ne same] at found
      exact .inl ⟨same, found⟩
  waits := fun r member _ _ => waits_setResponseHandler t message callback
    (storeState stored ctx) r member

end Calls

/-! ## A message goes out -/

/-- A transaction that was not sent yet. -/
def Unsent (t : Nat) (type : CoapMessageType) (ctx : ClientContext A U) : Prop :=
  ∃ node, ctx.transactionAt t = some node ∧ node.retransCounter = 0 ∧ node.type = type

section Unsent

variable {t : Nat} {type : CoapMessageType}

/-- The new transaction is found at its address. -/
theorem Ready.transactionAt_new (ready : Ready ctx) (mid : UInt16) (addr : A) :
    (coapNewTransaction mid addr ctx).2.transactionAt ctx.nextPtr = some ⟨ctx.nextPtr, mid, 0, addr,
      .con, [], none⟩ := by
  have fresh : ctx.transactions.find? (fun t => t.ptr = ctx.nextPtr) = none := by
    refine List.find?_eq_none.mpr fun t member here => ?_
    have bound := ready.below t member
    rw [of_decide_eq_true here] at bound
    exact Nat.lt_irrefl _ bound
  change (ctx.transactions ++ _).find? _ = _
  rw [List.find?_append, fresh, none_or, List.find?_singleton, if_pos (decide_eq_true rfl)]

theorem Ready.unsent (ready : Ready ctx) (mid : UInt16) (addr : A) :
    Unsent ctx.nextPtr .con (coapNewTransaction mid addr ctx).2 :=
  ⟨_, ready.transactionAt_new mid addr, rfl, rfl⟩

theorem Unsent.modify {change : Transaction A → Transaction A} {other : CoapMessageType}
    (unsent : Unsent t type ctx) (samePtr : ∀ node, (change node).ptr = node.ptr)
    (sameCounter : ∀ node, (change node).retransCounter = node.retransCounter)
    (newType : ∀ node, node.type = type → (change node).type = other) :
    Unsent t other (modifyTransaction t change ctx) := by
  obtain ⟨node, found, counter, isType⟩ := unsent
  refine ⟨change node, ?_, (sameCounter node).trans counter, newType node isType⟩
  rw [modifyTransaction_at t change samePtr, update_self, found, map_some]

theorem Unsent.handler (unsent : Unsent t type ctx)
    (message : Packet) (callback : ClientCallback U) :
    Unsent t type (coapSetResponseHandler t message callback ctx) := by
  unfold coapSetResponseHandler
  split
  · exact unsent
  · exact unsent.modify (fun _ => rfl) (fun _ => rfl) fun _ same => same

/-- A packed transaction is still unsent. -/
theorem Unsent.packed {message : Packet} (unsent : Unsent t type ctx)
    (packs : setTransactionPacket t message ctx = some after) : Unsent t message.type after := by
  obtain ⟨packet, rfl⟩ := setTransactionPacket_cases packs
  have written :
      Unsent t message.type (modifyTransaction t (Transaction.packed message.type packet) ctx) :=
    unsent.modify (fun _ => rfl) (fun _ => rfl) fun _ _ => rfl
  exact written

/-- The first time, nobody is called back; a confirmable message stays. -/
theorem Unsent.sent (unsent : Unsent t type ctx) (ready : Ready ctx)
    (sends : sendTransactionAt t ctx = some after) :
    Frees ctx after ∧ (type = .con → (after.transactionAt t).isSome = true) := by
  obtain ⟨node, found, counter, rfl⟩ := unsent
  have waits : node.retransCounter.toUInt16 < ctx.defaultRetransCnt := by
    rw [counter]
    exact ready.retries
  rw [sendTransactionAt, found, bind_some, coapSendTransaction] at sends
  by_cases con : node.type = .con
  · rw [if_pos con, if_pos waits] at sends
    cases sends
    refine ⟨(frees_modifyTransaction node.ptr Transaction.counted (fun _ => rfl) ctx).trans
      (frees_transmit ..), fun _ => ?_⟩
    change ((modifyTransaction node.ptr Transaction.counted ctx).transactionAt t).isSome = true
    have here := transactionAt_ptr found
    rw [here, modifyTransaction_at t Transaction.counted fun _ => rfl, update_self, found]
    rfl
  · rw [if_neg con] at sends
    cases sends
    exact ⟨(frees_transmit ..).trans (frees_endTransaction node _), fun same => absurd same con⟩

end Unsent

/-! ## What an event changes -/

/-- A state that suits the callback of its request: an upload sends as many messages as it has
counted, from one payload; a download has no block size. -/
def Suits (sent : List (RequestState U)) (state : RequestState U) : ClientCallback U → Prop
  | .user _ => True
  | .put ptr => Uploading state ∧ state.blockNum.toNat = sent.countP (·.ptr = ptr) ∧
      ∀ earlier ∈ sent, earlier.ptr = ptr → earlier.request.payload = state.request.payload
  | .request _ => state.blockSize = 0

/-- An event that comes from outside. -/
def ClientEvent.Incoming : ClientEvent A U → Prop
  | .packet _ _ => True
  | .expire _ => True
  | _ => False

/-- What an event does to the states. -/
inductive Effect (event : ClientEvent A U) (ctx after : ClientContext A U) : Prop
  | less : event.upload ctx = none → Less ctx after → Effect event ctx after
  | begins (stored : RequestState U) (callback : ClientCallback U) : ¬ event.Incoming →
      event.upload ctx = none → stored.ptr = ctx.nextPtr → callback.stateOf = some stored.ptr →
      ctx.nextPtr < after.nextPtr → (event.Sized → Suits [] stored callback) →
      WritesState stored callback ctx after → Effect event ctx after
  | uploads (state : RequestState U) :
      event.upload ctx = some (nextUpload state ctx) → stateAt ctx state.ptr = some state →
      (∃ r ∈ ctx.ongoingRequests, r.callback = .put state.ptr) →
      WritesState (nextUpload state ctx) (.put state.ptr) ctx after → Effect event ctx after
  | downloads (state stored : RequestState U) :
      event.upload ctx = none → stateAt ctx state.ptr = some state →
      (∃ r ∈ ctx.ongoingRequests, r.callback = .request state.ptr) → stored.ptr = state.ptr →
      stored.blockSize = state.blockSize → WritesState stored (.request state.ptr) ctx after →
      Effect event ctx after

section Events

variable {middle : ClientContext A U} {callback : ClientCallback U} {ptr : Nat}
  {event : ClientEvent A U} {stops : Stops U}

/-- States that go behind it change nothing of an effect. -/
theorem Effect.then (effect : Effect event ctx middle) (less : Less middle after) :
    Effect event ctx after := by
  cases effect with
  | less silent earlier => exact .less silent (earlier.trans less)
  | begins stored callback outgoing silent here owner grows suits writes =>
    exact .begins stored callback outgoing silent here owner
      (Nat.lt_of_lt_of_le grows less.nextPtr) suits (writes.less less)
  | uploads state sends found waits writes =>
    exact .uploads state sends found waits (writes.less less)
  | downloads state stored silent found waits same size writes =>
    exact .downloads state stored silent found waits same size (writes.less less)

/-- Behind every effect addresses are fresh. -/
theorem Effect.ready (effect : Effect event ctx after) (ready : Ready ctx) : Ready after := by
  cases effect with
  | less silent less => exact less.ready ready
  | begins stored callback outgoing silent here owner grows suits writes => exact writes.ready ready
  | uploads state sends found waits writes => exact writes.ready ready
  | downloads state stored silent found waits same size writes => exact writes.ready ready

theorem Effect.nextPtr (effect : Effect event ctx after) : ctx.nextPtr ≤ after.nextPtr := by
  cases effect with
  | less silent less => exact less.nextPtr
  | begins stored callback outgoing silent here owner grows suits writes => exact writes.nextPtr
  | uploads state sends found waits writes => exact writes.nextPtr
  | downloads state stored silent found waits same size writes => exact writes.nextPtr

/-- What comes from outside gives no state a callback of another kind. -/
theorem Effect.waits (effect : Effect event ctx after) (incoming : event.Incoming) :
    ∀ r ∈ after.ongoingRequests, ∀ ptr, r.callback.stateOf = some ptr → ∃ old ∈ ctx.ongoingRequests,
    old.callback = r.callback := by
  intro r member ptr owner
  cases effect with
  | less silent less => exact less.waits r member ptr owner
  | begins stored callback outgoing silent here isOwner grows suits writes =>
    exact absurd incoming outgoing
  | uploads state sends found waits writes =>
    rcases writes.waits r member ptr owner with isNew | old
    · rw [isNew]
      exact waits
    · exact old
  | downloads state stored silent found waits same size writes =>
    rcases writes.waits r member ptr owner with isNew | old
    · rw [isNew]
      exact waits
    · exact old

/-- An upload that goes on has its next block in its state. -/
theorem continuePut_writes
      (goes : continuePut { state with blockNum := state.blockNum + 1 } ctx = some after) :
    WritesState (nextUpload state ctx) (.put state.ptr) ctx after := by
  obtain ⟨old, -, goes⟩ := bind_eq_some_iff.mp goes
  obtain ⟨message, -, goes⟩ := bind_eq_some_iff.mp goes
  obtain ⟨packed, packs, goes⟩ := bind_eq_some_iff.mp goes
  obtain ⟨sent, sends, rfl⟩ := map_eq_some_iff.mp goes
  have stored := (less_numbered old.addr ctx).writes
    (writes_store (nextUpload state ctx) (.put state.ptr) ctx.nextPtr message _)
  have writes := (stored.less (less_setTransactionPacket packs)).less (less_sendTransactionAt sends)
  split
  · exact writes.less (less_cleanupPut ..)
  · exact writes

/-- A request that goes on writes its state. -/
theorem continueRequest_writes (goes : continueRequest state ctx = some after) :
    ∃ stored : RequestState U, stored.ptr = state.ptr ∧ stored.blockSize = state.blockSize ∧
      WritesState stored (.request state.ptr) ctx after := by
  obtain ⟨old, -, goes⟩ := bind_eq_some_iff.mp goes
  obtain ⟨packed, packs, sends⟩ := bind_eq_some_iff.mp goes
  rw [storeState_setResponseHandler] at packs
  let renewed := state.renew (coapGetMid ctx).1 ctx.nextPtr
  let stored : RequestState U := { renewed with request := nextRequest renewed }
  have written := (less_numbered old.addr ctx).writes
    (writes_store stored (.request state.ptr) ctx.nextPtr renewed.request _)
  exact ⟨stored, rfl, rfl, (written.less (less_setTransactionPacket packs)).less
    (less_sendTransactionAt sends)⟩

/-- Without the callback of an upload no upload goes on. -/
theorem upload_none (silent : ∀ r, event.called ctx = some r → ∀ ptr, r.callback ≠ .put ptr) :
    event.upload ctx = none := by
  unfold ClientEvent.upload ClientEvent.putAnswered
  cases called : event.called ctx with
  | none => rfl
  | some r =>
    have silent := silent r called
    cases isCallback : r.callback with
    | user callback => simp only [bind_some, isCallback, bind_none]
    | put ptr => exact absurd isCallback (silent ptr)
    | request ptr => simp only [bind_some, isCallback, bind_none]

variable {r : OngoingRequest (ClientCallback U)}

/-- An upload goes on with its next block. -/
theorem upload_put (called : event.called ctx = some r) (isCallback : r.callback = .put ptr)
    (found : stateAt ctx ptr = some state) :
    event.upload ctx = event.response.bind fun response =>
      if PutGoesOn state response then some (nextUpload state ctx) else none := by
  unfold ClientEvent.upload ClientEvent.putAnswered
  simp only [called, isCallback, found, bind_some]
  cases event.response <;> rfl

/-- The request that is called is in the list. -/
theorem ClientEvent.called_mem (called : event.called ctx = some r) :
    r ∈ ctx.ongoingRequests := by
  cases event with
  | put addr request callback => cases called
  | get addr request callback blockNum => cases called
  | packet source message =>
    simp only [ClientEvent.called] at called
    split at called
    · cases called
    · unfold answeredRequest at called
      split at called
      · split at called
        · exact requestAt_mem called
        · cases called
      · exact mem_of_find?_eq_some called
  | expire ptr =>
    obtain ⟨transaction, -, called⟩ := bind_eq_some_iff.mp called
    split at called
    · exact requestAt_mem called
    · cases called

/-- What the callback of a request changes. -/
theorem runRequestCallback_effect (called : event.called ctx = some r)
    (runs : runRequestCallback stops r.callback event.response ctx = some after) :
    Effect event ctx after := by
  have member := event.called_mem called
  cases isCallback : r.callback with
  | user callback =>
    rw [isCallback] at runs
    cases runs
    refine .less (upload_none fun other isOther ptr isPut => ?_) (less_callIfSet ..)
    cases called.symm.trans isOther
    rw [isCallback] at isPut
    cases isPut
  | put ptr =>
    rw [isCallback] at runs
    obtain ⟨state, found, -⟩ := bind_eq_some_iff.mp runs
    have here : state.ptr = ptr := by simpa using List.find?_some found
    subst here
    have runs : coapNonblockingPutCallback state.ptr event.response ctx = some after := runs
    have upload := upload_put called isCallback found
    rcases coapNonblockingPutCallback_cases found stops event.response with ⟨ends, calls, frees⟩ |
      ⟨goesOn, goes⟩
    · cases runs.symm.trans frees
      refine .less (upload.trans ?_)
        ((less_env fun _ _ same => same : Less ctx (withCalled calls ctx)).trans (less_free ..))
      cases response : event.response with
      | none => rfl
      | some message =>
        rw [response] at ends
        exact if_neg ends
    · refine .uploads state (upload.trans ?_) found ⟨r, member, isCallback⟩
        (continuePut_writes (goes.symm.trans runs))
      cases response : event.response with
      | none =>
        rw [response] at goesOn
        cases goesOn
      | some message =>
        rw [response] at goesOn
        exact if_pos goesOn
  | request ptr =>
    have silent : event.upload ctx = none := by
      refine upload_none fun other isOther ptr isPut => ?_
      cases called.symm.trans isOther
      rw [isCallback] at isPut
      cases isPut
    rw [isCallback] at runs
    obtain ⟨state, found, -⟩ := bind_eq_some_iff.mp runs
    have here : state.ptr = ptr := by simpa using List.find?_some found
    subst here
    have runs : coapNonblockingRequestCallback stops state.ptr event.response ctx = some after :=
      runs
    have noted : ∀ calls, Less ctx (withCalled calls ctx) :=
      fun calls => less_env fun _ _ same => same
    rcases coapNonblockingRequestCallback_cases found stops event.response with ⟨-, frees⟩ |
      ⟨-, calls, blockNum, goes⟩
    · obtain ⟨calls, rfl⟩ := frees after runs
      exact .less silent ((noted calls).trans (less_free ..))
    · obtain ⟨stored, same, size, writes⟩ := continueRequest_writes (goes.symm.trans runs)
      exact .downloads state stored silent found ⟨r, member, isCallback⟩ same size
        ((noted calls).writes writes)

theorem Effect.of_called {called : ClientContext A U}
    (isCalled : event.called ctx = none → called = ctx) (runs : ∀ r, event.called ctx = some r →
      runRequestCallback stops r.callback event.response ctx = some called)
    (less : Less called after) : Effect event ctx after := by
  cases asked : event.called ctx with
  | none =>
    rw [isCalled asked] at less
    refine .less (upload_none fun r isCalled => ?_) less
    rw [asked] at isCalled
    cases isCalled
  | some r => exact (runRequestCallback_effect asked (runs r asked)).then less

end Events

/-! ### New transfers -/

section Begin

variable {callback : ClientCallback U} {user : Option U} {addr : A} {request message : Packet}
  {t : Nat} {middle : ClientContext A U}

/-- A request of a user waits for no state. -/
theorem less_userHandler (t : Nat) (message : Packet) (user : Option U) (ctx : ClientContext A U) :
    Less ctx (coapSetResponseHandler t message (.user user) ctx) where
  ready before := before.setResponseHandler t message (.user user)
  nextPtr := coapSetResponseHandler_nextPtr t message (.user user) ctx
  states ptr state found := by
    rw [stateAt_congr (coapSetResponseHandler_env t message (.user user) ctx)] at found
    exact found
  waits := by
    intro r member ptr owner
    refine (waits_setResponseHandler t message (.user user) ctx r member).resolve_left
      fun isUser => ?_
    rw [isUser] at owner
    cases owner

/-- A new state is written over with its transaction. -/
theorem writes_begin (state : RequestState U)
    (callback : ClientCallback U) (mid : UInt16) (addr : A) (t : Nat) (ctx : ClientContext A U) :
    WritesState (state.withTransaction t) callback ctx (storeState (state.withTransaction t)
      (coapNewTransaction mid addr (newState state ctx)).2) where
  ready before := by
    have grown : Ready (newState state ctx) :=
      ⟨fun t member => Nat.lt_succ_of_lt (before.below t member), before.retries⟩
    have made := grown.newTransaction mid addr
    exact ⟨made.below, made.retries⟩
  nextPtr := Nat.le_add_right ctx.nextPtr 2
  states := by
    intro ptr other found
    rw [stateAt_storeState] at found
    by_cases same : ptr = state.ptr
    · have here : (state.withTransaction t).ptr = ptr := same.symm
      rw [here, update_self] at found
      obtain ⟨old, -, rfl⟩ := map_eq_some_iff.mp found
      exact .inr ⟨same, rfl⟩
    · have elsewhere : ptr ≠ (state.withTransaction t).ptr := same
      rw [update_of_ne elsewhere] at found
      refine .inl ⟨elsewhere, ?_⟩
      have appended :
        (ctx.env.states ++ [state]).find? (fun state => state.ptr = ptr) = some other := found
      rw [List.find?_append, or_eq_some_iff] at appended
      refine appended.resolve_right ?_
      rintro ⟨-, isNew⟩
      obtain rfl := mem_singleton.mp (mem_of_find?_eq_some isNew)
      have here : other.ptr = ptr := by simpa using List.find?_some isNew
      exact same here.symm
  waits := fun r member _ _ => .inr ⟨r, member, rfl⟩

/-- The request of a new transfer. -/
theorem WritesState.handler (writes : WritesState stored callback ctx middle)
    (t : Nat) (message : Packet) :
    WritesState stored callback ctx (coapSetResponseHandler t message callback middle) where
  ready before := (writes.ready before).setResponseHandler t message callback
  nextPtr := Nat.le_trans writes.nextPtr (coapSetResponseHandler_nextPtr t message callback middle)
  states ptr state found := by
    rw [stateAt_congr (coapSetResponseHandler_env t message callback middle)] at found
    exact writes.states ptr state found
  waits := by
    intro r member ptr owner
    rcases waits_setResponseHandler t message callback middle r
      member with isNew | ⟨old, oldMember, same⟩
    · exact .inl isNew
    · rw [← same]
      exact writes.waits old oldMember ptr (by rw [same]; exact owner)

/-- A short upload waits for its user alone, a long one has a new state. -/
theorem coapNonblockingPut_writes (puts : coapNonblockingPut addr request user ctx = some after) :
    Less ctx after ∨ ∃ stored : RequestState U,
    stored.ptr = ctx.nextPtr ∧ ctx.nextPtr < after.nextPtr ∧ (request.payload.length < 65536 →
      Suits [] stored (.put stored.ptr)) ∧ WritesState stored (.put stored.ptr) ctx after := by
  unfold coapNonblockingPut at puts
  simp only at puts
  split at puts
  · obtain ⟨packed, packs, sends⟩ := bind_eq_some_iff.mp puts
    have made := (less_numbered addr ctx).trans (less_setTransactionPacket packs)
    exact .inl
      ((made.trans (less_userHandler _ _ user packed)).trans (less_sendTransactionAt sends))
  · obtain ⟨packed, packs, sends⟩ := bind_eq_some_iff.mp puts
    let state : RequestState U :=
      ⟨ctx.nextPtr, none, { request with mid := (coapGetMid ctx).1, type := .con }, user, 0, 1024⟩
    have begun := (less_coapGetMid ctx).writes (writes_begin state (.put state.ptr)
      (coapGetMid ctx).1 addr (ctx.nextPtr + 1) (coapGetMid ctx).2)
    have handled := (begun.less (less_setTransactionPacket packs)).handler (ctx.nextPtr + 1)
      (firstPutBlock state.request)
    have sent := less_sendTransactionAt sends
    have grows : ctx.nextPtr + 2 ≤ packed.nextPtr := (less_setTransactionPacket packs).nextPtr
    have armed : packed.nextPtr ≤ (coapSetResponseHandler
      (ctx.nextPtr + 1) (firstPutBlock state.request) (.put state.ptr) packed).nextPtr :=
      coapSetResponseHandler_nextPtr ..
    refine .inr ⟨state.withTransaction (ctx.nextPtr + 1), rfl, ?_, fun sized => ?_,
      handled.less sent⟩
    · exact Nat.lt_of_lt_of_le (Nat.lt_add_of_pos_right (by decide))
        (Nat.le_trans grows (Nat.le_trans armed sent.nextPtr))
    · have start : (state.withTransaction (ctx.nextPtr + 1)).blockNum.toNat = 0 := UInt32.toNat_zero
      refine ⟨⟨rfl, sized, ?_⟩, start, fun earlier member => ?_⟩
      · rw [start, Nat.zero_mul]
        exact Nat.zero_le _
      · cases member

/-- A started upload has its effect. -/
theorem coapNonblockingPut_effect (puts : coapNonblockingPut addr request user ctx = some after) :
    Effect (.put addr request user) ctx after := by
  rcases coapNonblockingPut_writes puts with less | ⟨stored, here, grows, suits, writes⟩
  · exact .less rfl less
  · exact .begins stored (.put stored.ptr) id rfl here rfl grows suits writes

/-- A download has a new state. -/
theorem coapNonblockingGet_writes {blockNum : UInt32}
    (gets : coapNonblockingGet addr request user blockNum ctx = some after) :
    ∃ stored : RequestState U, stored.ptr = ctx.nextPtr ∧ ctx.nextPtr < after.nextPtr ∧
    stored.blockSize = 0 ∧ WritesState stored (.request stored.ptr) ctx after := by
  unfold coapNonblockingGet at gets
  simp only at gets
  obtain ⟨packed, packs, gets⟩ := bind_eq_some_iff.mp gets
  obtain ⟨sent, sends, rfl⟩ := map_eq_some_iff.mp gets
  let state : RequestState U := ⟨ctx.nextPtr, none, request, user, blockNum, 0⟩
  have begun := (less_coapGetMid ctx).writes (writes_begin state (.request state.ptr)
    (coapGetMid ctx).1 addr (ctx.nextPtr + 1) (coapGetMid ctx).2)
  have handled := begun.handler (ctx.nextPtr + 1) { request with mid := (coapGetMid ctx).1 }
  have armed := coapSetResponseHandler_nextPtr (ctx.nextPtr + 1)
    { request with mid := (coapGetMid ctx).1 } (.request state.ptr)
    (storeState (state.withTransaction (ctx.nextPtr + 1))
    (coapNewTransaction (coapGetMid ctx).1 addr (newState state (coapGetMid ctx).2)).2)
  have packedLess := less_setTransactionPacket packs
  have sentLess := less_sendTransactionAt sends
  have writes := (handled.less packedLess).less sentLess
  have allocated : ctx.nextPtr + 2 ≤ packed.nextPtr := Nat.le_trans armed packedLess.nextPtr
  have grows : ctx.nextPtr < sent.nextPtr :=
    Nat.lt_of_lt_of_le (Nat.lt_add_of_pos_right (by decide))
      (Nat.le_trans allocated sentLess.nextPtr)
  refine ⟨state.withTransaction (ctx.nextPtr + 1), rfl, ?_, rfl, ?_⟩
  · split
    · exact grows
    · exact grows
  · split
    · exact writes.less (less_free ..)
    · exact writes

/-- So has a started download. -/
theorem coapNonblockingGet_effect {blockNum : UInt32}
    (gets : coapNonblockingGet addr request user blockNum ctx = some after) :
    Effect (.get addr request user blockNum) ctx after := by
  obtain ⟨stored, here, grows, size, writes⟩ := coapNonblockingGet_writes gets
  exact .begins stored (.request stored.ptr) id rfl here rfl grows (fun _ => size) writes

end Begin

/-! ### Packets and timers -/

section Packets

variable {run : Run A U} {message : Packet} {transaction : Transaction A} {ptr : Nat}

/-- A response runs the callback of the request it answers, and frees what has ended. -/
theorem matchResponse_called (matched : matchResponse run message ctx = some after) : ∃ called,
    (answeredRequest message ctx = none → called = ctx) ∧
    (∀ r, answeredRequest message ctx = some r → run r.callback (some message) ctx = some called) ∧
    Frees called after := by
  unfold answeredRequest
  unfold matchResponse at matched
  cases byMid : coapGetTransactionByMid ctx message.mid with
  | some transaction =>
    simp only [byMid] at matched ⊢
    cases linked : ctx.requestAt transaction.ongoingRequest with
    | none =>
      simp only [linked] at matched
      cases matched
      refine ⟨ctx, fun _ => rfl, fun r isSome => ?_, frees_coapClearTransaction transaction ctx⟩
      rw [ite_self] at isSome
      cases isSome
    | some request =>
      simp only [linked] at matched
      obtain ⟨called, calls, rfl⟩ := map_eq_some_iff.mp matched
      refine ⟨called, fun isNone => ?_, fun r isSome => ?_, ?_⟩
      · split at calls
        · rename_i answers
          rw [if_pos answers] at isNone
          cases isNone
        · exact (some.inj calls).symm
      · split at isSome
        · rename_i answers
          obtain rfl := some.inj isSome
          rw [if_pos answers] at calls
          exact calls
        · cases isSome
      · split
        · exact frees_endTransaction transaction called
        · exact frees_coapClearTransaction transaction called
  | none =>
    simp only [byMid] at matched ⊢
    cases byToken : coapFindOngoingRequest ctx message.token.bytes with
    | none =>
      simp only [byToken] at matched
      cases matched
      refine ⟨ctx, fun _ => rfl, fun r isSome => ?_, .refl ctx⟩
      cases isSome
    | some request =>
      simp only [byToken] at matched
      obtain ⟨called, calls, rfl⟩ := map_eq_some_iff.mp matched
      refine ⟨called, fun isNone => ?_, fun r isSome => ?_, ?_⟩
      · cases isNone
      · obtain rfl := some.inj isSome
        exact calls
      · split
        · exact frees_freeOngoingRequest request called
        · exact .refl called

/-- A transaction whose retransmissions are used up runs the callback of its request. -/
theorem coapSendTransaction_called (found : ctx.transactionAt ptr = some transaction)
    (sends : coapSendTransaction run transaction ctx = some after) : ∃ called,
    (expiredRequest ptr ctx = none → called = ctx) ∧
    (∀ r, expiredRequest ptr ctx = some r → run r.callback none ctx = some called) ∧
    Frees called after := by
  unfold expiredRequest
  rw [found, bind_some]
  unfold coapSendTransaction at sends
  by_cases con : transaction.type = .con
  · rw [if_pos con] at sends
    by_cases waits : transaction.retransCounter.toUInt16 < ctx.defaultRetransCnt
    · rw [if_pos waits] at sends
      cases sends
      rw [if_neg fun both => both.2 waits]
      refine ⟨ctx, fun _ => rfl, fun r isSome => ?_, ?_⟩
      · cases isSome
      · exact (frees_modifyTransaction transaction.ptr Transaction.counted (fun _ => rfl) ctx).trans
          (frees_transmit _ _ _)
    · rw [if_neg waits] at sends
      rw [if_pos ⟨con, waits⟩]
      cases linked : ctx.requestAt transaction.ongoingRequest with
      | none =>
        rw [linked] at sends
        cases sends
        refine ⟨ctx, fun _ => rfl, fun r isSome => ?_, frees_endTransaction transaction ctx⟩
        cases isSome
      | some request =>
        rw [linked] at sends
        obtain ⟨called, calls, rfl⟩ := map_eq_some_iff.mp sends
        refine ⟨called, fun isNone => ?_, fun r isSome => ?_,
          frees_endTransaction transaction called⟩
        · cases isNone
        · obtain rfl := some.inj isSome
          exact calls
  · rw [if_neg con] at sends
    cases sends
    rw [if_neg fun both => con both.1]
    refine ⟨ctx, fun _ => rfl, fun r isSome => ?_, ?_⟩
    · cases isSome
    · exact (frees_transmit _ _ ctx).trans (frees_endTransaction transaction _)

theorem frees_toEnd (ptr : Nat) (ctx : ClientContext A U) : Frees ctx (toEnd ptr ctx) where
  leaves := ⟨rfl, fun r member => ⟨r, member, rfl, rfl⟩⟩
  nextPtr := rfl
  retries := rfl
  transactions := by
    intro t member
    rcases mem_append.mp member with front | behind
    · exact ⟨t, (mem_filter.mp front).1, rfl⟩
    · exact ⟨t, (mem_filter.mp behind).1, rfl⟩

/-- It runs the callback of the request it is for, and frees what has ended. -/
theorem ClientEvent.perform_called {event : ClientEvent A U} {stops : Stops U}
    (incoming : event.Incoming) (performs : event.perform stops ctx = some after) : ∃ called,
    (event.called ctx = none → called = ctx) ∧ (∀ r, event.called ctx = some r →
      runRequestCallback stops r.callback event.response ctx = some called) ∧
    Frees called after := by
  cases event with
  | put addr request callback => cases incoming
  | get addr request callback blockNum => cases incoming
  | packet source message =>
    unfold ClientEvent.perform ClientEvent.performWith at performs
    simp only at performs
    split at performs
    · rename_i isRequest
      cases performs
      refine ⟨ctx, fun _ => rfl, fun r called => ?_, .refl ctx⟩
      rw [ClientEvent.called, if_pos isRequest] at called
      cases called
    · rename_i noRequest
      obtain ⟨middle, matched, acknowledges⟩ := bind_eq_some_iff.mp performs
      obtain ⟨called, uncalled, calls, freed⟩ := matchResponse_called matched
      have frees : Frees middle after := by
        split at acknowledges
        · obtain ⟨packet, -, rfl⟩ := map_eq_some_iff.mp acknowledges
          split
          · exact frees_transmit ..
          · exact .refl middle
        · cases acknowledges
          exact .refl _
      refine ⟨called, fun isNone => uncalled ?_, fun r isSome => calls r ?_, freed.trans frees⟩
      · rw [ClientEvent.called, if_neg noRequest] at isNone
        exact isNone
      · rw [ClientEvent.called, if_neg noRequest] at isSome
        exact isSome
  | expire ptr =>
    obtain ⟨transaction, found, resends⟩ := bind_eq_some_iff.mp performs
    obtain ⟨sent, sends, rfl⟩ := map_eq_some_iff.mp resends
    obtain ⟨called, uncalled, calls, freed⟩ := coapSendTransaction_called found sends
    exact ⟨called, uncalled, calls, freed.trans (frees_toEnd transaction.ptr sent)⟩

/-- Every event has its effect. -/
theorem ClientEvent.perform_effect {event : ClientEvent A U} {stops : Stops U}
    (performs : event.perform stops ctx = some after) : Effect event ctx after := by
  have outside (incoming : event.Incoming) : Effect event ctx after := by
    obtain ⟨called, uncalled, calls, frees⟩ := ClientEvent.perform_called incoming performs
    exact .of_called uncalled calls frees.less
  cases event with
  | put addr request callback => exact coapNonblockingPut_effect performs
  | get addr request callback blockNum => exact coapNonblockingGet_effect performs
  | packet source message => exact outside trivial
  | expire ptr => exact outside trivial

end Packets

end Idrm.Coap
