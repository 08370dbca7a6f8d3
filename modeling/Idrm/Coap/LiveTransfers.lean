import Idrm.Coap.LiveCallbacks

/-!
# Transfers stay alive

`Alive` is what a client keeps between two events: the request of a block-wise transfer has a
state, and the state a transaction, which is gone only where the request knows about it. The
request that is being answered is set aside while its callback runs, because its state may go
or belong to the next request then.
-/

namespace Idrm.Coap

open Idrm.Lib Function Option

variable {A U : Type} {ctx after : ClientContext A U} {aside aside' : Set Nat} {r t ptr base : Nat}

/-- The state of the request at an address. -/
def ownerOf (ctx : ClientContext A U) (r : Nat) : Option Nat :=
  (ctx.ongoingAt r).bind (·.callback.stateOf)

/-- The state at an address is there, and its transaction too, unless the request has none. -/
def HasState (ctx : ClientContext A U) (r ptr : Nat) : Prop :=
  ∃ state t, stateAt ctx ptr = some state ∧ state.transaction = some t ∧ t < ctx.nextPtr ∧
    (ctx.transactionOf r = some t ∨ ctx.transactionOf r = none ∧ ctx.transactionAt t = none)

/-- No request has the state at an address, but for those that are set aside. -/
def Spare (aside : Set Nat) (ptr : Nat) (ctx : ClientContext A U) : Prop :=
  ∀ r ∉ aside, ownerOf ctx r ≠ some ptr

/-- The block-wise transfers of a client are alive, with some requests set aside. -/
structure Alive (aside : Set Nat) (ctx : ClientContext A U) : Prop where
  tidy : Tidy ctx
  retries : 0 < ctx.defaultRetransCnt
  stored : ∀ ptr state, stateAt ctx ptr = some state → ptr < ctx.nextPtr
  waits : ∀ r ∉ aside, ∀ ptr, ownerOf ctx r = some ptr → HasState ctx r ptr
  single : ∀ r ∉ aside, ∀ r' ∉ aside, ∀ ptr, ownerOf ctx r = some ptr →
    ownerOf ctx r' = some ptr → r = r'

/-- What an operation leaves of requests and states. -/
structure Leaves (aside aside' : Set Nat) (ctx after : ClientContext A U) : Prop where
  nextPtr : ctx.nextPtr ≤ after.nextPtr
  retries : after.defaultRetransCnt = ctx.defaultRetransCnt
  dead : ∀ t < ctx.nextPtr, ctx.transactionAt t = none → after.transactionAt t = none
  requests : ∀ r ∉ aside', ∀ request, after.ongoingAt r = some request →
    r ∉ aside ∧ ctx.ongoingAt r = some request
  states : ∀ r ∉ aside', ∀ ptr, ownerOf after r = some ptr → stateAt after ptr = stateAt ctx ptr

/-- The owner is named by the callback of the request. -/
theorem ownerOf_some : ownerOf ctx r = some ptr ↔
    ∃ request, ctx.ongoingAt r = some request ∧ request.callback.stateOf = some ptr :=
  bind_eq_some_iff

/-- Who owns a request afterwards owned it before. -/
theorem Leaves.ownerOf (leaves : Leaves aside aside' ctx after) (out : r ∉ aside')
    (owns : ownerOf after r = some ptr) :
    r ∉ aside ∧ ownerOf ctx r = some ptr ∧ after.ongoingAt r = ctx.ongoingAt r := by
  obtain ⟨request, found, isOwner⟩ := ownerOf_some.mp owns
  obtain ⟨outBefore, foundBefore⟩ := leaves.requests r out request found
  exact ⟨outBefore, ownerOf_some.mpr ⟨request, foundBefore, isOwner⟩, found.trans foundBefore.symm⟩

/-- Transfers that are left alone stay alive. -/
theorem Alive.leave (alive : Alive aside ctx) (tidy : Tidy after)
    (stored : ∀ ptr state, stateAt after ptr = some state → ptr < after.nextPtr)
    (leaves : Leaves aside aside' ctx after) : Alive aside' after := by
  refine ⟨tidy, leaves.retries ▸ alive.retries, stored, fun r out ptr owns => ?_,
    fun r out r' out' ptr owns owns' => ?_⟩
  · obtain ⟨outBefore, ownsBefore, same⟩ := leaves.ownerOf out owns
    obtain ⟨state, t, found, transaction, bound, linked⟩ := alive.waits r outBefore ptr ownsBefore
    have sameTransaction : after.transactionOf r = ctx.transactionOf r := by
      rw [CoapContext.transactionOf, CoapContext.transactionOf, same]
    refine ⟨state, t, (leaves.states r out ptr owns).trans found, transaction,
      Nat.lt_of_lt_of_le bound leaves.nextPtr, ?_⟩
    rw [sameTransaction]
    exact linked.imp_right fun both => ⟨both.1, leaves.dead t bound both.2⟩
  · obtain ⟨outBefore, ownsBefore, -⟩ := leaves.ownerOf out owns
    obtain ⟨outBefore', ownsBefore', -⟩ := leaves.ownerOf out' owns'
    exact alive.single r outBefore r' outBefore' ptr ownsBefore ownsBefore'

/-- More may be set aside. -/
theorem Alive.mono (alive : Alive aside ctx) (more : aside ⊆ aside') : Alive aside' ctx :=
  ⟨alive.tidy, alive.retries, alive.stored,
    fun r out => alive.waits r fun member => out (more member), fun r out r' out' => alive.single r
    (fun member => out (more member)) r' fun member => out' (more member)⟩

/-- A request is alive again that has a state of its own. -/
theorem Alive.settle (alive : Alive (insert r aside) ctx)
    (settled : ∀ ptr, ownerOf ctx r = some ptr →
      HasState ctx r ptr ∧ Spare (insert r aside) ptr ctx) : Alive aside ctx := by
  refine ⟨alive.tidy, alive.retries, alive.stored, fun other out ptr owns => ?_,
    fun one out two out' ptr owns owns' => ?_⟩
  · by_cases same : other = r
    · subst same
      exact (settled ptr owns).1
    · exact alive.waits other (by simp [same, out]) ptr owns
  · by_cases sameOne : one = r
    · by_cases sameTwo : two = r
      · rw [sameOne, sameTwo]
      · exact absurd owns' ((settled ptr (sameOne ▸ owns)).2 two (by simp [sameTwo, out']))
    · by_cases sameTwo : two = r
      · exact absurd owns ((settled ptr (sameTwo ▸ owns')).2 one (by simp [sameOne, out]))
      · exact alive.single one (by simp [sameOne, out]) two (by simp [sameTwo, out']) ptr owns owns'

/-- The state of a request that is set aside is spare. -/
theorem Alive.spare (alive : Alive ∅ ctx) (owns : ownerOf ctx r = some ptr) : Spare {r} ptr ctx :=
  fun other out ownsToo =>
    out (alive.single other (Set.notMem_empty _) r (Set.notMem_empty _) ptr ownsToo owns)

/-- So is an address that was not allocated. -/
theorem Alive.spare_fresh (alive : Alive aside ctx) : Spare aside ctx.nextPtr ctx := by
  intro r out owns
  obtain ⟨state, t, found, -⟩ := alive.waits r out _ owns
  exact Nat.lt_irrefl _ (alive.stored _ _ found)

/-- A spare state stays spare where no request comes to it. -/
theorem Spare.leave (spare : Spare aside ptr ctx) (requests : ∀ r ∉ aside',
      ∀ request, after.ongoingAt r = some request → r ∉ aside ∧ ctx.ongoingAt r = some request) :
    Spare aside' ptr after := by
  intro r out owns
  obtain ⟨request, found, isOwner⟩ := ownerOf_some.mp owns
  obtain ⟨outBefore, foundBefore⟩ := requests r out request found
  exact spare r outBefore (ownerOf_some.mpr ⟨request, foundBefore, isOwner⟩)

/-! ## What a callback leaves alone -/

/-- Below an address nothing changes. -/
structure Above (base : Nat) (ctx after : ClientContext A U) : Prop where
  nextPtr : ctx.nextPtr ≤ after.nextPtr
  transactions : ∀ t < base, after.transactionAt t = ctx.transactionAt t
  requests : ∀ r < base, after.ongoingAt r = ctx.ongoingAt r

/-- Nothing done changes nothing below. -/
theorem Above.refl (base : Nat) (ctx : ClientContext A U) : Above base ctx ctx :=
  ⟨Nat.le_refl _, fun _ _ => rfl, fun _ _ => rfl⟩

/-- What two steps leave alone, they leave alone together. -/
theorem Above.trans {middle : ClientContext A U} (one : Above base ctx middle)
    (two : Above base middle after) : Above base ctx after where
  nextPtr := Nat.le_trans one.nextPtr two.nextPtr
  transactions t bound := (two.transactions t bound).trans (one.transactions t bound)
  requests r bound := (two.requests r bound).trans (one.requests r bound)

/-! ## Operations on the lists -/

section Operations

variable {message : Packet} {transaction : Transaction A}

/-- A new transaction has no request yet. -/
theorem Alive.coapNewTransaction (alive : Alive aside ctx) (mid : UInt16) (addr : A) :
    Alive aside (coapNewTransaction mid addr ctx).2 := by
  refine alive.leave (alive.tidy.coapNewTransaction mid addr)
    (fun ptr state found => Nat.lt_succ_of_lt (alive.stored ptr state found)) ⟨Nat.le_succ _, rfl,
    fun t bound gone => ?_, fun r out request found => ⟨out, found⟩, fun _ _ _ _ => rfl⟩
  rw [coapNewTransaction_at alive.tidy.allocated, update_of_ne (Nat.ne_of_lt bound), gone]

/-- It lies above what was allocated. -/
theorem above_newTransaction (allocated : Allocated ctx) (above : base ≤ ctx.nextPtr) (mid : UInt16)
    (addr : A) : Above base ctx (coapNewTransaction mid addr ctx).2 where
  nextPtr := Nat.le_succ _
  transactions t bound := by
    rw [coapNewTransaction_at allocated,
      update_of_ne (Nat.ne_of_lt (Nat.lt_of_lt_of_le bound above))]
  requests _ _ := rfl

/-- The new request of a transaction is set aside. -/
theorem Alive.coapSetResponseHandler (alive : Alive aside ctx)
    (found : ctx.transactionAt t = some transaction)
    (unarmed : transaction.ongoingRequest = none) (message : Packet) (callback : ClientCallback U) :
    Alive (insert ctx.nextPtr aside) (coapSetResponseHandler t message callback ctx) := by
  by_cases token : message.token.bytes.length = 0
  · rw [coapSetResponseHandler_noToken token]
    exact alive.mono (Set.subset_insert _ _)
  · have tidy := alive.tidy.coapSetResponseHandler found unarmed message callback
    have forth := coapSetResponseHandler_transactionAt callback token found
    have back := coapSetResponseHandler_ongoingAt t callback token alive.tidy.allocated
    have shape : Coap.coapSetResponseHandler t message callback ctx = _ :=
      coapSetResponseHandler_token token t
    refine alive.leave tidy (fun ptr state stored => ?_) ⟨?_, ?_, fun t' bound gone => ?_,
      fun r out request there => ?_, ?_⟩
    · rw [shape] at stored ⊢
      exact Nat.lt_succ_of_lt (alive.stored ptr state stored)
    · rw [shape]
      exact Nat.le_succ _
    · rw [shape]
      rfl
    · have different : t' ≠ t := fun same => by
        rw [same, found] at gone
        cases gone
      rw [forth, update_of_ne different, gone]
    · have different : r ≠ ctx.nextPtr := fun same => out (same ▸ Set.mem_insert _ _)
      rw [back, update_of_ne different] at there
      exact ⟨fun member => out (Set.mem_insert_of_mem _ member), there⟩
    · intro r out ptr owns
      rw [shape]
      rfl

/-- Arming changes the transaction and nothing below it. -/
theorem above_setResponseHandler (allocated : Allocated ctx)
    (found : ctx.transactionAt t = some transaction) (above : base ≤ t)
    (message : Packet) (callback : ClientCallback U) :
    Above base ctx (coapSetResponseHandler t message callback ctx) := by
  by_cases token : message.token.bytes.length = 0
  · rw [coapSetResponseHandler_noToken token]
    exact .refl base ctx
  · have later := Nat.lt_of_le_of_lt above (allocated.transaction_lt found)
    refine ⟨?_, fun t' bound => ?_, fun r bound => ?_⟩
    · rw [coapSetResponseHandler_token token]
      exact Nat.le_succ _
    · rw [coapSetResponseHandler_transactionAt callback token found,
        update_of_ne (Nat.ne_of_lt (Nat.lt_of_lt_of_le bound above))]
    · rw [coapSetResponseHandler_ongoingAt t callback token allocated,
        update_of_ne (Nat.ne_of_lt (Nat.lt_trans bound later))]

/-- A transaction changes in place, but for its address and its request. -/
theorem Alive.modifyTransaction (alive : Alive aside ctx)
    (ptr : Nat) (change : Transaction A → Transaction A) (samePtr : ∀ t, (change t).ptr = t.ptr)
    (sameRequest : ∀ t, (change t).ongoingRequest = t.ongoingRequest) :
    Alive aside (modifyTransaction ptr change ctx) := by
  refine alive.leave (alive.tidy.modifyTransaction ptr change samePtr sameRequest) alive.stored
    ⟨Nat.le_refl _, rfl, fun t bound gone => ?_, fun r out request found => ⟨out, found⟩,
    fun _ _ _ _ => rfl⟩
  rw [modifyTransaction_at ptr change samePtr]
  by_cases same : t = ptr
  · rw [same, update_self, ← same, gone]
    rfl
  · rw [update_of_ne same, gone]

/-- So does any change of it. -/
theorem above_modifyTransaction (above : base ≤ ptr) (change : Transaction A → Transaction A)
    (samePtr : ∀ t, (change t).ptr = t.ptr) :
    Above base ctx (modifyTransaction ptr change ctx) where
  nextPtr := Nat.le_refl _
  transactions t bound := by
    rw [modifyTransaction_at ptr change samePtr,
      update_of_ne (Nat.ne_of_lt (Nat.lt_of_lt_of_le bound above))]
  requests _ _ := rfl

/-- What only changes the lists keeps the states where they are. -/
theorem Alive.stored_of_rest (alive : Alive aside ctx) (rest : SameRest ctx after) :
    ∀ ptr state, stateAt after ptr = some state → ptr < after.nextPtr := by
  intro ptr state found
  rw [stateAt, rest.env] at found
  rw [rest.nextPtr]
  exact alive.stored ptr state found

/-- The states are part of the rest. -/
theorem stateAt_of_rest (rest : SameRest ctx after) (ptr : Nat) :
    stateAt after ptr = stateAt ctx ptr := by
  rw [stateAt, rest.env]
  rfl

/-- The request of a transaction that ends is not set aside any longer. -/
theorem Alive.endTransaction (alive : Alive aside ctx)
    (found : ctx.transactionAt t = some transaction) :
    Alive (aside \ {r | transaction.ongoingRequest = some r}) (endTransaction transaction ctx) := by
  have tidy := alive.tidy.endTransaction found
  have gone := endTransaction_transactionAt alive.tidy found
  have rest := endTransaction_rest transaction ctx
  refine alive.leave tidy (alive.stored_of_rest rest) ⟨Nat.le_of_eq rest.nextPtr.symm, rest.retries,
    fun t' _ dead => ?_, fun r out request there => ?_, fun _ _ ptr _ => stateAt_of_rest rest ptr⟩
  · rw [gone]
    by_cases same : t' = t
    · rw [same, update_self]
    · rw [update_of_ne same, dead]
  · obtain ⟨before, other⟩ := endTransaction_ongoing alive.tidy found there
    exact ⟨fun member => out ⟨member, other⟩, before⟩

/-- The end of a transaction changes nothing below it. -/
theorem above_endTransaction (tidy : Tidy ctx) (found : ctx.transactionAt t = some transaction)
    (above : base ≤ t) : Above base ctx (endTransaction transaction ctx) := by
  have rest := endTransaction_rest transaction ctx
  refine ⟨Nat.le_of_eq rest.nextPtr.symm, fun t' bound => ?_, fun r bound => ?_⟩
  · rw [endTransaction_transactionAt tidy found,
      update_of_ne (Nat.ne_of_lt (Nat.lt_of_lt_of_le bound above))]
  · cases linked : transaction.ongoingRequest with
    | none =>
      rw [endTransaction_single linked, coapClearTransaction_single linked]
      rfl
    | some address =>
      have forth : ctx.requestOf t = some address := by
        rw [CoapContext.requestOf, found]
        exact linked
      have later := tidy.paired.younger t address forth
      rw [endTransaction_ongoingAt tidy found linked,
        update_of_ne (Nat.ne_of_lt (Nat.lt_trans (Nat.lt_of_lt_of_le bound above) later))]

/-- A request that is freed is not set aside any longer. -/
theorem Alive.freeOngoingRequest (alive : Alive aside ctx)
    {request : OngoingRequest (ClientCallback U)} (found : ctx.ongoingAt r = some request) :
    Alive (aside \ {r}) (freeOngoingRequest request ctx) := by
  have rest := freeOngoingRequest_rest request ctx
  have here := ongoingAt_ptr found
  refine alive.leave (alive.tidy.freeOngoingRequest found) (alive.stored_of_rest rest)
    ⟨Nat.le_of_eq rest.nextPtr.symm, rest.retries, fun t _ dead => ?_,
    fun other out node there => ?_, fun _ _ ptr _ => stateAt_of_rest rest ptr⟩
  · have same : ((Coap.freeOngoingRequest request ctx).transactionAt t).isSome = _ :=
      freeOngoingRequest_alive request t
    rw [dead] at same
    exact not_isSome_iff_eq_none.mp (by rw [same]; simp)
  · rw [freeOngoingRequest_ongoingAt, here] at there
    have different : other ≠ r := fun same => by
      rw [same, update_self] at there
      cases there
    rw [update_of_ne different] at there
    exact ⟨fun member => out ⟨member, different⟩, there⟩

/-- A request whose transaction is cleared knows that it is gone. -/
theorem Alive.coapClearTransaction (alive : Alive aside ctx)
    (found : ctx.transactionAt t = some transaction) :
    Alive aside (coapClearTransaction transaction ctx) := by
  have tidy := alive.tidy.coapClearTransaction found
  have rest := coapClearTransaction_rest transaction ctx
  have here := transactionAt_ptr found
  have gone :
      (Coap.coapClearTransaction transaction ctx).transactionAt = update ctx.transactionAt t none :=
    here ▸ coapClearTransaction_transactionAt transaction
  have dead : ∀ t', ctx.transactionAt t' = none →
      (Coap.coapClearTransaction transaction ctx).transactionAt t' = none := by
    intro t' before
    rw [gone]
    by_cases same : t' = t
    · rw [same, update_self]
    · rw [update_of_ne same, before]
  cases linked : transaction.ongoingRequest with
  | none =>
    refine alive.leave tidy (alive.stored_of_rest rest)
      ⟨Nat.le_of_eq rest.nextPtr.symm, rest.retries, fun t' _ => dead t',
      fun r out request there => ⟨out, ?_⟩, fun _ _ ptr _ => stateAt_of_rest rest ptr⟩
    rw [coapClearTransaction_single linked] at there
    exact there
  | some address =>
    obtain ⟨request, there, toTransaction⟩ := alive.tidy.request_linked found linked
    have changed := coapClearTransaction_ongoingAt linked there
    have owners : ∀ r, ownerOf (Coap.coapClearTransaction transaction ctx) r = ownerOf ctx r := by
      intro r
      unfold ownerOf
      rw [changed]
      by_cases same : r = address
      · rw [same, update_self, there]
        rfl
      · rw [update_of_ne same]
    refine ⟨tidy, rest.retries ▸ alive.retries, alive.stored_of_rest rest, fun r out ptr owns => ?_,
      fun r out r' out' ptr owns owns' => ?_⟩
    · rw [owners] at owns
      obtain ⟨state, t', stored, isTransaction, bound, pointer⟩ := alive.waits r out ptr owns
      refine ⟨state, t', (stateAt_of_rest rest ptr).trans stored, isTransaction,
        rest.nextPtr ▸ bound, ?_⟩
      rw [transactionOf_update changed]
      by_cases same : r = address
      · have back : ctx.transactionOf r = some t := by
          rw [same, CoapContext.transactionOf, there]
          exact toTransaction
        rw [same, update_self]
        refine .inr ⟨rfl, ?_⟩
        rcases pointer with live | ⟨none, -⟩
        · obtain rfl : t = t' := some.inj (back.symm.trans live)
          rw [gone, update_self]
        · rw [back] at none
          cases none
      · rw [update_of_ne same]
        exact pointer.imp_right fun both => ⟨both.1, dead t' both.2⟩
    · rw [owners] at owns owns'
      exact alive.single r out r' out' ptr owns owns'

/-- The order of the list does not matter. -/
theorem Alive.toEnd (alive : Alive aside ctx) (ptr : Nat) : Alive aside (toEnd ptr ctx) := by
  refine alive.leave (alive.tidy.toEnd ptr) alive.stored ⟨Nat.le_refl _, rfl, fun t _ dead => ?_,
    fun r out request found => ⟨out, found⟩, fun _ _ _ _ => rfl⟩
  rw [toEnd_at, dead]

/-- Datagrams come and go. -/
theorem Alive.withTxData (alive : Alive aside ctx) (txData : List (A × List UInt8)) :
    Alive aside { ctx with txData := txData } :=
  ⟨⟨⟨alive.tidy.allocated.transactions, alive.tidy.allocated.requests⟩, alive.tidy.transactions,
    alive.tidy.requests, alive.tidy.paired⟩, alive.retries, alive.stored, alive.waits, alive.single⟩

end Operations

/-! ## Operations on the states -/

section States

variable {state : RequestState U} {env : ClientEnv U}

/-- A stored state replaces the one at its address. -/
theorem stateAt_storeState (state : RequestState U) (ctx : ClientContext A U) :
    stateAt (storeState state ctx) = update (stateAt ctx) state.ptr
      ((stateAt ctx state.ptr).map fun _ => state) :=
  entryAt_map RequestState.ptr ctx.env.states state.ptr (fun _ => state) fun _ _ => rfl

/-- A freed state is gone. -/
theorem stateAt_freeBlockwiseState (state : RequestState U) (ctx : ClientContext A U) :
    stateAt (freeBlockwiseState state ctx) = update (stateAt ctx) state.ptr none :=
  entryAt_filter RequestState.ptr ctx.env.states state.ptr

/-- A spare state changes. -/
theorem Alive.changeState (alive : Alive aside ctx)
    (spare : Spare aside ptr ctx) {entry : Option (RequestState U)}
    (updated : stateAt (ctx.withEnv env) = update (stateAt ctx) ptr entry)
    (bound : ∀ state, entry = some state → ptr < ctx.nextPtr) : Alive aside (ctx.withEnv env) := by
  refine alive.leave ⟨⟨alive.tidy.allocated.transactions, alive.tidy.allocated.requests⟩,
    alive.tidy.transactions, alive.tidy.requests, alive.tidy.paired⟩
    (fun address state found => ?_) ⟨Nat.le_refl _, rfl, fun _ _ dead => dead,
    fun r out request there => ⟨out, there⟩, fun r out address owns => ?_⟩
  · rw [updated] at found
    by_cases same : address = ptr
    · subst same
      rw [update_self] at found
      exact bound state found
    · rw [update_of_ne same] at found
      exact alive.stored address state found
  · have different : address ≠ ptr := fun same => spare r out (same ▸ owns)
    rw [updated, update_of_ne different]

/-- A spare state may be stored. -/
theorem Alive.storeState (alive : Alive aside ctx) (spare : Spare aside state.ptr ctx) :
    Alive aside (storeState state ctx) := by
  refine alive.changeState spare (stateAt_storeState state ctx) fun stored isStored => ?_
  obtain ⟨old, found, -⟩ := map_eq_some_iff.mp isStored
  exact alive.stored _ old found

/-- It may be freed. -/
theorem Alive.freeBlockwiseState (alive : Alive aside ctx) (spare : Spare aside state.ptr ctx) :
    Alive aside (freeBlockwiseState state ctx) :=
  alive.changeState spare (stateAt_freeBlockwiseState state ctx) fun _ isSome => by cases isSome

/-- The message id and the calls of users do not matter. -/
theorem Alive.sameStates (alive : Alive aside ctx) (same : env.states = ctx.env.states) :
    Alive aside (ctx.withEnv env) := by
  have states : ∀ ptr, stateAt (ctx.withEnv env) ptr = stateAt ctx ptr :=
    fun ptr => congrArg (List.find? _) same
  refine alive.leave ⟨⟨alive.tidy.allocated.transactions, alive.tidy.allocated.requests⟩,
    alive.tidy.transactions, alive.tidy.requests, alive.tidy.paired⟩
    (fun ptr state found => alive.stored ptr state ((states ptr).symm.trans found)) ⟨Nat.le_refl _,
    rfl, fun _ _ dead => dead, fun r out request there => ⟨out, there⟩, fun _ _ ptr _ => states ptr⟩

/-- A new state is spare. -/
theorem Alive.newState (alive : Alive aside ctx) (here : state.ptr = ctx.nextPtr) :
    Alive aside (newState state ctx) := by
  have fresh : stateAt ctx ctx.nextPtr = none := by
    cases found : stateAt ctx ctx.nextPtr with
    | none => rfl
    | some old => exact absurd (alive.stored _ old found) (Nat.lt_irrefl _)
  have updated : stateAt (Coap.newState state ctx) = update (stateAt ctx) state.ptr (some state) :=
    entryAt_append state (here ▸ fresh)
  refine alive.leave
    ⟨⟨fun t member => Nat.lt_succ_of_lt (alive.tidy.allocated.transactions t member),
    fun r member => Nat.lt_succ_of_lt (alive.tidy.allocated.requests r member)⟩,
    alive.tidy.transactions, alive.tidy.requests, alive.tidy.paired⟩ (fun ptr stored found => ?_)
    ⟨Nat.le_succ _, rfl, fun _ _ dead => dead, fun r out request there => ⟨out, there⟩,
    fun r out ptr owns => ?_⟩
  · rw [updated, here] at found
    by_cases same : ptr = ctx.nextPtr
    · exact same ▸ Nat.lt_succ_self _
    · rw [update_of_ne same] at found
      exact Nat.lt_succ_of_lt (alive.stored ptr stored found)
  · have different : ptr ≠ state.ptr := fun same => alive.spare_fresh r out (here ▸ same ▸ owns)
    rw [updated, update_of_ne different]

end States

/-! ## Sending a message -/

/-- A transaction that was not sent yet, with its request set aside. -/
structure Prepared (aside : Set Nat) (t r : Nat) (callback : ClientCallback U)
    (ctx : ClientContext A U) : Prop where
  alive : Alive (insert r aside) ctx
  transaction : ∃ node, ctx.transactionAt t = some node ∧ node.retransCounter = 0
  request : ∀ request, ctx.ongoingAt r = some request →
    request.transaction = some t ∧ request.callback = callback
  spare : ∀ ptr, callback.stateOf = some ptr → Spare (insert r aside) ptr ctx

section Sending

variable {callback : ClientCallback U} {transaction : Transaction A}

/-- A transaction is armed with a request of its own, which is set aside. -/
theorem Alive.prepare (alive : Alive aside ctx) (found : ctx.transactionAt t = some transaction)
    (unsent : transaction.retransCounter = 0) (unarmed : transaction.ongoingRequest = none)
    (spare : ∀ ptr, callback.stateOf = some ptr → Spare aside ptr ctx) (message : Packet) :
    Prepared aside t ctx.nextPtr callback (Coap.coapSetResponseHandler t message callback ctx) := by
  have armed := alive.coapSetResponseHandler found unarmed message callback
  by_cases token : message.token.bytes.length = 0
  · rw [coapSetResponseHandler_noToken token] at armed ⊢
    refine ⟨armed, ⟨transaction, found, unsent⟩, fun request there => ?_, fun ptr owner => ?_⟩
    · rw [alive.tidy.allocated.request_fresh] at there
      cases there
    · exact (spare ptr owner).leave fun r out request there =>
        ⟨fun member => out (Set.mem_insert_of_mem _ member), there⟩
  · have forth := coapSetResponseHandler_transactionAt callback token found
    have back := coapSetResponseHandler_ongoingAt t callback token alive.tidy.allocated
    refine ⟨armed,
      ⟨{ transaction with ongoingRequest := some ctx.nextPtr }, by rw [forth, update_self], unsent⟩,
      fun request there => ?_, fun ptr owner => ?_⟩
    · rw [back, update_self] at there
      cases there
      exact ⟨rfl, rfl⟩
    · refine (spare ptr owner).leave fun r out request there => ?_
      have different : r ≠ ctx.nextPtr := fun same => out (same ▸ Set.mem_insert _ _)
      rw [back, update_of_ne different] at there
      exact ⟨fun member => out (Set.mem_insert_of_mem _ member), there⟩

/-- A transaction with its packet. -/
def Transaction.packed (type : CoapMessageType) (packet : List UInt8) (node : Transaction A) :
    Transaction A :=
  { node with type := type, packet := packet }

/-- A transaction that was sent once more. -/
def Transaction.counted (node : Transaction A) : Transaction A :=
  { node with retransCounter := node.retransCounter + 1 }

/-- The packet of a transaction changes it in place. -/
theorem setTransactionPacket_cases {message : Packet}
    (packs : setTransactionPacket t message ctx = some after) :
    ∃ packet, after = modifyTransaction t (Transaction.packed message.type packet) ctx := by
  obtain ⟨packet, -, rfl⟩ := map_eq_some_iff.mp packs
  exact ⟨packet, rfl⟩

/-- Packing the message changes nothing of that. -/
theorem Prepared.setTransactionPacket (prepared : Prepared aside t r callback ctx)
    {message : Packet} (packs : setTransactionPacket t message ctx = some after) :
    Prepared aside t r callback after := by
  obtain ⟨packet, rfl⟩ := setTransactionPacket_cases packs
  obtain ⟨node, found, unsent⟩ := prepared.transaction
  refine ⟨prepared.alive.modifyTransaction t _ (fun _ => rfl) fun _ => rfl,
    ⟨node.packed message.type packet, ?_, unsent⟩, prepared.request, prepared.spare⟩
  rw [modifyTransaction_at t (Transaction.packed message.type packet) fun _ => rfl, update_self,
    found, map_some]

/-- A message that is sent is alive, or over. -/
theorem Prepared.send (prepared : Prepared aside t r callback ctx)
    (stored : ∀ ptr, callback.stateOf = some ptr →
      ∃ state, stateAt ctx ptr = some state ∧ state.transaction = some t)
    (sends : sendTransactionAt t ctx = some after) : Alive aside after ∧ Above t ctx after ∧
    (after.transactionAt t = none → ∀ ptr, callback.stateOf = some ptr →
      Spare aside ptr after) := by
  have alive : Alive aside ctx := by
    refine prepared.alive.settle fun ptr owns => ?_
    obtain ⟨request, there, owner⟩ := ownerOf_some.mp owns
    obtain ⟨linked, rfl⟩ := prepared.request request there
    obtain ⟨state, found, isTransaction⟩ := stored ptr owner
    obtain ⟨node, live, -⟩ := prepared.transaction
    refine ⟨⟨state, t, found, isTransaction, prepared.alive.tidy.allocated.transaction_lt live,
      .inl ?_⟩, prepared.spare ptr owner⟩
    rw [CoapContext.transactionOf, there]
    exact linked
  obtain ⟨node, found, unsent⟩ := prepared.transaction
  have here := transactionAt_ptr found
  rw [sendTransactionAt, found, bind_some, coapSendTransaction] at sends
  have waits : node.retransCounter.toUInt16 < ctx.defaultRetransCnt := by
    rw [unsent]
    exact alive.retries
  by_cases con : node.type = .con
  · rw [if_pos con, if_pos waits, here] at sends
    cases sends
    refine ⟨(alive.modifyTransaction t Transaction.counted (fun _ => rfl)
      fun _ => rfl).withTxData _, ?_, fun gone => ?_⟩
    · have above : Above t ctx (modifyTransaction t Transaction.counted ctx) :=
        above_modifyTransaction (Nat.le_refl t) Transaction.counted fun _ => rfl
      exact ⟨above.nextPtr, above.transactions, above.requests⟩
    · have still : (modifyTransaction t Transaction.counted ctx).transactionAt t = none := gone
      rw [modifyTransaction_at t Transaction.counted fun _ => rfl, update_self, found] at still
      cases still
  · rw [if_neg con] at sends
    cases sends
    have aliveSent : Alive aside (transmit node.addr node.packet ctx) := alive.withTxData _
    have foundSent : (transmit node.addr node.packet ctx).transactionAt t = some node := found
    refine ⟨(aliveSent.endTransaction foundSent).mono Set.sdiff_subset, ?_, fun _ ptr owner => ?_⟩
    · have above := above_endTransaction aliveSent.tidy foundSent (Nat.le_refl t)
      exact ⟨above.nextPtr, above.transactions, above.requests⟩
    · refine (prepared.spare ptr owner).leave fun other out request there => ?_
      obtain ⟨before, notOwn⟩ := endTransaction_ongoing aliveSent.tidy foundSent there
      refine ⟨fun member => ?_, before⟩
      rcases member with rfl | member
      · obtain ⟨linked, -⟩ := prepared.request request before
        obtain ⟨same, live, toRequest⟩ := alive.tidy.transaction_linked before linked
        cases found.symm.trans live
        exact notOwn toRequest
      · exact out member

end Sending

/-! ## Calls and callbacks -/

section Calls

variable {state : RequestState U} {message request : Packet} {callback : Option U}

variable {stored : RequestState U}

/-- A stored state is read back. -/
theorem stateAt_storeState_self (found : stateAt ctx state.ptr = some stored) :
    stateAt (storeState state ctx) state.ptr = some state := by
  rw [stateAt_storeState, update_self, found, map_some]

/-- Packing a message leaves the states alone. -/
theorem setTransactionPacket_env (packs : setTransactionPacket t message ctx = some after) :
    after.env = ctx.env := by
  obtain ⟨packet, rfl⟩ := setTransactionPacket_cases packs
  rfl

/-- So does arming. -/
theorem coapSetResponseHandler_env (t : Nat) (message : Packet) (callback : ClientCallback U)
    (ctx : ClientContext A U) : (coapSetResponseHandler t message callback ctx).env = ctx.env := by
  unfold coapSetResponseHandler
  split <;> rfl

/-- Arming only allocates. -/
theorem coapSetResponseHandler_nextPtr (t : Nat)
    (message : Packet) (callback : ClientCallback U) (ctx : ClientContext A U) :
    ctx.nextPtr ≤ (coapSetResponseHandler t message callback ctx).nextPtr := by
  unfold coapSetResponseHandler
  split
  · exact Nat.le_refl _
  · exact Nat.le_succ _

/-- The states are in the environment. -/
theorem stateAt_congr (same : after.env = ctx.env) (ptr : Nat) :
    stateAt after ptr = stateAt ctx ptr := by
  rw [stateAt, same]
  rfl

/-- A transaction that was just made. -/
def Fresh (t : Nat) (ctx : ClientContext A U) : Prop :=
  ∃ node, ctx.transactionAt t = some node ∧ node.retransCounter = 0 ∧ node.ongoingRequest = none

/-- A new transaction is unsent and unarmed. -/
theorem coapNewTransaction_fresh (allocated : Allocated ctx) (mid : UInt16) (addr : A) :
    Fresh ctx.nextPtr (coapNewTransaction mid addr ctx).2 :=
  ⟨_, by rw [coapNewTransaction_at allocated, update_self], rfl, rfl⟩

/-- Packing changes the transaction and nothing below it. -/
theorem above_setTransactionPacket (packs : setTransactionPacket t message ctx = some after)
    (above : base ≤ t) : Above base ctx after := by
  obtain ⟨packet, rfl⟩ := setTransactionPacket_cases packs
  exact above_modifyTransaction above (Transaction.packed message.type packet) fun _ => rfl

/-- A state is stored, and the message of its new transaction sent. -/
theorem Alive.storeAndSend (alive : Alive aside ctx) (fresh : Fresh t ctx) (state : RequestState U)
    (found : stateAt ctx state.ptr = some stored) (spare : Spare aside state.ptr ctx)
    (isTransaction : state.transaction = some t) {callback : ClientCallback U}
    (owner : callback.stateOf = some state.ptr) {packed sent : ClientContext A U}
    (packs : setTransactionPacket t message (Coap.coapSetResponseHandler t request callback
      (Coap.storeState state ctx)) = some packed) (sends : sendTransactionAt t packed = some sent) :
    Alive aside sent ∧ Above t ctx sent ∧
    (sent.transactionAt t = none → Spare aside state.ptr sent) := by
  obtain ⟨node, live, unsent, unarmed⟩ := fresh
  have aliveStored := alive.storeState spare
  have spareStored : ∀ ptr, callback.stateOf = some ptr →
      Spare aside ptr (Coap.storeState state ctx) := by
    intro ptr isOwner
    rw [owner] at isOwner
    cases isOwner
    exact spare
  have prepared :=
    (aliveStored.prepare live unsent unarmed spareStored request).setTransactionPacket packs
  have isStored : ∀ ptr, callback.stateOf = some ptr → ∃ state,
      stateAt packed ptr = some state ∧ state.transaction = some t := by
    intro ptr isOwner
    rw [owner] at isOwner
    cases isOwner
    refine ⟨state, ?_, isTransaction⟩
    rw [stateAt_congr (setTransactionPacket_env packs),
      stateAt_congr (coapSetResponseHandler_env _ _ _ _)]
    exact stateAt_storeState_self found
  obtain ⟨aliveSent, above, spent⟩ := prepared.send isStored sends
  have armed : Above t ctx
      (Coap.coapSetResponseHandler t request callback (Coap.storeState state ctx)) := by
    have stored : Above t ctx (Coap.storeState state ctx) :=
      ⟨Nat.le_refl _, fun _ _ => rfl, fun _ _ => rfl⟩
    exact stored.trans
      (above_setResponseHandler aliveStored.tidy.allocated live (Nat.le_refl t) request callback)
  exact ⟨aliveSent, (armed.trans (above_setTransactionPacket packs (Nat.le_refl t))).trans above,
    fun gone => spent gone _ owner⟩

/-- The end of a transfer. -/
theorem Alive.end (alive : Alive aside ctx)
    (spare : Spare aside state.ptr ctx) (calls : List (U × Option Packet)) :
    Alive aside (Coap.freeBlockwiseState state (withCalled calls ctx)) := by
  have called : Alive aside (withCalled calls ctx) := alive.sameStates rfl
  exact called.freeBlockwiseState spare

/-- The end of an upload frees a spare state. -/
theorem Alive.cleanupPut (alive : Alive aside ctx) (spare : Spare aside state.ptr ctx) :
    Alive aside (cleanupPut state ctx) := by
  obtain ⟨calls, same⟩ := callIfSet_withCalled state.responseCallback none ctx
  rw [Coap.cleanupPut, same]
  exact alive.end spare calls

/-- A block of an upload is sent. -/
theorem Alive.sendPutBlock (alive : Alive aside ctx) (fresh : Fresh t ctx) (state : RequestState U)
    (found : stateAt ctx state.ptr = some stored)
    (spare : Spare aside state.ptr ctx) (isTransaction : state.transaction = some t)
    (goes : sendPutBlock state t message ctx = some after) :
    Alive aside after ∧ Above t ctx after := by
  obtain ⟨packed, packs, goes⟩ := bind_eq_some_iff.mp goes
  obtain ⟨sent, sends, rfl⟩ := map_eq_some_iff.mp goes
  obtain ⟨aliveSent, above, spent⟩ :=
    alive.storeAndSend fresh state found spare isTransaction rfl packs sends
  split
  · rename_i gone
    have spareSent := spent (isNone_iff_eq_none.mp gone)
    refine ⟨aliveSent.cleanupPut spareSent, ?_⟩
    obtain ⟨calls, same⟩ := callIfSet_withCalled state.responseCallback none sent
    rw [Coap.cleanupPut, same]
    exact ⟨above.nextPtr, above.transactions, above.requests⟩
  · exact ⟨aliveSent, above⟩

/-- A block of a download is asked for. -/
theorem Alive.sendRequestBlock (alive : Alive aside ctx)
    (fresh : Fresh t ctx) (state : RequestState U) (found : stateAt ctx state.ptr = some stored)
    (spare : Spare aside state.ptr ctx) (isTransaction : state.transaction = some t)
    (goes : sendRequestBlock state t ctx = some after) : Alive aside after ∧ Above t ctx after := by
  obtain ⟨packed, packs, sends⟩ := bind_eq_some_iff.mp goes
  rw [storeState_setResponseHandler] at packs
  obtain ⟨aliveSent, above, -⟩ := alive.storeAndSend fresh
    { state with request := nextRequest state } found spare isTransaction rfl packs sends
  exact ⟨aliveSent, above⟩

/-- A transaction with a new message id. -/
theorem Alive.numberedTransaction (alive : Alive aside ctx) (addr : A) :
    Alive aside (Coap.coapNewTransaction (coapGetMid ctx).1 addr (coapGetMid ctx).2).2 ∧
    Fresh ctx.nextPtr (Coap.coapNewTransaction (coapGetMid ctx).1 addr (coapGetMid ctx).2).2 ∧ Above
      ctx.nextPtr ctx (Coap.coapNewTransaction (coapGetMid ctx).1 addr (coapGetMid ctx).2).2 := by
  have numbered : Alive aside (coapGetMid ctx).2 := alive.sameStates rfl
  have allocated := numbered.tidy.allocated
  have above := above_newTransaction allocated (Nat.le_refl _) (coapGetMid ctx).1 addr
  exact ⟨numbered.coapNewTransaction _ addr, coapNewTransaction_fresh allocated _ addr,
    above.nextPtr, above.transactions, above.requests⟩

/-- An upload that goes on leaves every other transfer alive. -/
theorem Alive.continuePut (alive : Alive aside ctx)
    (state : RequestState U) (found : stateAt ctx state.ptr = some stored)
    (spare : Spare aside state.ptr ctx) (goes : continuePut state ctx = some after) :
    Alive aside after ∧ Above ctx.nextPtr ctx after := by
  obtain ⟨old, -, goes⟩ := bind_eq_some_iff.mp goes
  obtain ⟨message, -, goes⟩ := bind_eq_some_iff.mp goes
  obtain ⟨made, fresh, aboveMade⟩ := alive.numberedTransaction old.addr
  obtain ⟨aliveAfter, above⟩ :=
    made.sendPutBlock fresh (state.renew (coapGetMid ctx).1 ctx.nextPtr) found spare rfl goes
  exact ⟨aliveAfter, aboveMade.trans above⟩

/-- So does a download. -/
theorem Alive.continueRequest (alive : Alive aside ctx)
    (state : RequestState U) (found : stateAt ctx state.ptr = some stored)
    (spare : Spare aside state.ptr ctx) (goes : continueRequest state ctx = some after) :
    Alive aside after ∧ Above ctx.nextPtr ctx after := by
  obtain ⟨old, -, goes⟩ := bind_eq_some_iff.mp goes
  obtain ⟨made, fresh, aboveMade⟩ := alive.numberedTransaction old.addr
  obtain ⟨aliveAfter, above⟩ :=
    made.sendRequestBlock fresh (state.renew (coapGetMid ctx).1 ctx.nextPtr) found spare rfl goes
  exact ⟨aliveAfter, aboveMade.trans above⟩

/-- A callback leaves every transfer alive but its own, whose request is set aside. -/
theorem Alive.runRequestCallback (alive : Alive ∅ ctx) {request : OngoingRequest (ClientCallback U)}
    (found : ctx.ongoingAt r = some request) {stops : Stops U} {response : Option Packet}
    (runs : runRequestCallback stops request.callback response ctx = some after) :
    Alive {r} after ∧ Above ctx.nextPtr ctx after := by
  have owns : ∀ ptr, request.callback.stateOf = some ptr → ownerOf ctx r = some ptr :=
    fun ptr owner => ownerOf_some.mpr ⟨request, found, owner⟩
  have aliveAside : Alive {r} ctx := alive.mono (Set.empty_subset _)
  cases isCallback : request.callback with
  | user callback =>
    rw [isCallback] at runs
    cases runs
    obtain ⟨calls, same⟩ := callIfSet_withCalled callback response ctx
    rw [same]
    exact ⟨aliveAside.sameStates rfl, Nat.le_refl _, fun _ _ => rfl, fun _ _ => rfl⟩
  | put ptr =>
    rw [isCallback] at runs
    have spare := alive.spare (owns ptr (by rw [isCallback]; rfl))
    obtain ⟨state, isState, -⟩ := bind_eq_some_iff.mp runs
    have here : state.ptr = ptr := by simpa using List.find?_some isState
    subst here
    have runs : coapNonblockingPutCallback state.ptr response ctx = some after := runs
    rcases coapNonblockingPutCallback_cases isState stops response with ⟨-, calls, frees⟩ |
      ⟨-, goes⟩
    · cases runs.symm.trans frees
      exact ⟨aliveAside.end spare calls, Nat.le_refl _, fun _ _ => rfl, fun _ _ => rfl⟩
    · exact aliveAside.continuePut { state with blockNum := state.blockNum + 1 } isState spare
        (goes.symm.trans runs)
  | request ptr =>
    rw [isCallback] at runs
    have spare := alive.spare (owns ptr (by rw [isCallback]; rfl))
    obtain ⟨state, isState, -⟩ := bind_eq_some_iff.mp runs
    have here : state.ptr = ptr := by simpa using List.find?_some isState
    subst here
    have runs : coapNonblockingRequestCallback stops state.ptr response ctx = some after := runs
    rcases coapNonblockingRequestCallback_cases isState stops response with ⟨-, frees⟩ |
      ⟨-, calls, blockNum, goes⟩
    · obtain ⟨calls, rfl⟩ := frees after runs
      exact ⟨aliveAside.end spare calls, Nat.le_refl _, fun _ _ => rfl, fun _ _ => rfl⟩
    · have called : Alive {r} (withCalled calls ctx) := aliveAside.sameStates rfl
      have continues := goes.symm.trans runs
      obtain ⟨aliveAfter, above⟩ :=
        called.continueRequest { state with blockNum := blockNum } isState spare continues
      exact ⟨aliveAfter, above.nextPtr, above.transactions, above.requests⟩

/-! ### New requests -/

/-- A new state is read back. -/
theorem Alive.stateAt_newState (alive : Alive aside ctx) (here : state.ptr = ctx.nextPtr) :
    stateAt (Coap.newState state ctx) state.ptr = some state := by
  have fresh : entryAt RequestState.ptr ctx.env.states state.ptr = none := by
    cases found : entryAt RequestState.ptr ctx.env.states state.ptr with
    | none => rfl
    | some old => exact absurd (here ▸ alive.stored _ old found) (Nat.lt_irrefl _)
  have updated := entryAt_append state fresh
  exact (congrFun updated state.ptr).trans (update_self ..)

/-- The packet is written before the callback is set. -/
theorem Alive.packAndSend (alive : Alive aside ctx) (fresh : Fresh t ctx)
    (callback : ClientCallback U) (stored : ∀ ptr, callback.stateOf = some ptr →
      ∃ state, stateAt ctx ptr = some state ∧ state.transaction = some t)
    (spare : ∀ ptr, callback.stateOf = some ptr → Spare aside ptr ctx) {packed : ClientContext A U}
    (packs : setTransactionPacket t message ctx = some packed)
    (sends : sendTransactionAt t (Coap.coapSetResponseHandler t request callback packed) =
      some after) : Alive aside after := by
  obtain ⟨packet, rfl⟩ := setTransactionPacket_cases packs
  obtain ⟨node, live, unsent, unarmed⟩ := fresh
  have alivePacked :=
    alive.modifyTransaction t (Transaction.packed message.type packet) (fun _ => rfl) fun _ => rfl
  have livePacked :
      (Coap.modifyTransaction t (Transaction.packed message.type packet) ctx).transactionAt t =
      some (node.packed message.type packet) := by
    rw [modifyTransaction_at t (Transaction.packed message.type packet) fun _ => rfl,
      update_self, live, map_some]
  have prepared := alivePacked.prepare livePacked unsent unarmed spare request
  refine (prepared.send (fun ptr owner => ?_) sends).1
  obtain ⟨state, found, isTransaction⟩ := stored ptr owner
  exact ⟨state, (stateAt_congr (coapSetResponseHandler_env _ _ _ _) ptr).trans found, isTransaction⟩

/-- A new state and its first transaction. -/
theorem Alive.newTransfer (alive : Alive aside ctx) (state : RequestState U)
    (here : state.ptr = ctx.nextPtr) (mid : UInt16) (addr : A) {made : ClientContext A U}
    (makes : made = (Coap.coapNewTransaction mid addr (Coap.newState state ctx)).2) :
    Alive aside made ∧ Fresh (ctx.nextPtr + 1) made ∧ stateAt made state.ptr = some state ∧
    Spare aside state.ptr made := by
  have stored := alive.newState here
  subst makes
  refine ⟨stored.coapNewTransaction mid addr,
    coapNewTransaction_fresh stored.tidy.allocated mid addr, alive.stateAt_newState here, ?_⟩
  rw [here]
  exact alive.spare_fresh

/-- A started upload is alive. -/
theorem Alive.coapNonblockingPut (alive : Alive aside ctx) {addr : A}
    (puts : coapNonblockingPut addr request callback ctx = some after) : Alive aside after := by
  unfold Coap.coapNonblockingPut at puts
  simp only at puts
  split at puts
  · obtain ⟨packed, packs, sends⟩ := bind_eq_some_iff.mp puts
    obtain ⟨made, fresh, -⟩ := alive.numberedTransaction addr
    exact made.packAndSend fresh (.user callback) (fun ptr owner => by cases owner)
      (fun ptr owner => by cases owner) packs sends
  · obtain ⟨packed, packs, sends⟩ := bind_eq_some_iff.mp puts
    have numbered : Alive aside (coapGetMid ctx).2 := alive.sameStates rfl
    let sent : Packet := { request with mid := (coapGetMid ctx).1, type := .con }
    let state : RequestState U := ⟨ctx.nextPtr, none, sent, callback, 0, 1024⟩
    obtain ⟨made, fresh, found, spare⟩ := numbered.newTransfer state rfl (coapGetMid ctx).1 addr rfl
    have stored : Alive aside (Coap.storeState (state.withTransaction (ctx.nextPtr + 1)) _) :=
      made.storeState spare
    refine stored.packAndSend fresh (.put state.ptr) (fun ptr owner => ?_)
      (fun ptr owner => ?_) packs sends
    · cases owner
      exact ⟨_, stateAt_storeState_self found, rfl⟩
    · cases owner
      exact spare

/-- A started download is alive. -/
theorem Alive.coapNonblockingGet (alive : Alive aside ctx) {addr : A} {blockNum : UInt32}
    (gets : coapNonblockingGet addr request callback blockNum ctx = some after) :
    Alive aside after := by
  unfold Coap.coapNonblockingGet at gets
  simp only at gets
  obtain ⟨packed, packs, gets⟩ := bind_eq_some_iff.mp gets
  obtain ⟨sent, sends, rfl⟩ := map_eq_some_iff.mp gets
  have numbered : Alive aside (coapGetMid ctx).2 := alive.sameStates rfl
  let state : RequestState U := ⟨ctx.nextPtr, none, request, callback, blockNum, 0⟩
  obtain ⟨made, fresh, found, spare⟩ := numbered.newTransfer state rfl (coapGetMid ctx).1 addr rfl
  obtain ⟨aliveSent, -, spent⟩ := made.storeAndSend fresh (state.withTransaction (ctx.nextPtr + 1))
    found spare rfl rfl packs sends
  split
  · rename_i gone
    exact aliveSent.freeBlockwiseState (spent (isNone_iff_eq_none.mp gone))
  · exact aliveSent

end Calls

/-! ## Events -/

section Events

variable {stops : Stops U} {message : Packet}

/-- An answer, other than a reset, to a block-wise request that observes. -/
def AnswersObserver (ctx : ClientContext A U) (event : ClientEvent A U) : Prop :=
  ∃ r message, event.called ctx = some r ∧ event.response = some message ∧ message.type ≠ .rst ∧
    r.observe = true ∧ r.callback.stateOf ≠ none

/-- A request that is no transfer's is not set aside any longer. -/
theorem Alive.settleUser (alive : Alive {r} ctx) {request : OngoingRequest (ClientCallback U)}
    (found : ctx.ongoingAt r = some request) (user : request.callback.stateOf = none) :
    Alive ∅ ctx := by
  have alone : Alive (insert r ∅) ctx := by
    rw [insert_empty_eq]
    exact alive
  refine alone.settle fun ptr owns => ?_
  obtain ⟨other, there, owner⟩ := ownerOf_some.mp owns
  cases found.symm.trans there
  rw [user] at owner
  cases owner

/-- An answer to no observer leaves every transfer alive. -/
theorem Alive.matchResponse (alive : Alive ∅ ctx)
    (kept : ∀ r, answeredRequest message ctx = some r → message.type ≠ .rst →
      r.observe = true → r.callback.stateOf = none)
    (matched : matchResponse (Coap.runRequestCallback stops) message ctx = some after) :
    Alive ∅ after := by
  unfold answeredRequest at kept
  unfold Coap.matchResponse at matched
  cases byMid : coapGetTransactionByMid ctx message.mid with
  | some transaction =>
    simp only [byMid] at kept matched
    have found := alive.tidy.transactions transaction (List.mem_of_find?_eq_some byMid)
    cases linked : ctx.requestAt transaction.ongoingRequest with
    | none =>
      simp only [linked] at matched
      cases matched
      exact alive.coapClearTransaction found
    | some r =>
      obtain ⟨address, toRequest, there⟩ := bind_eq_some_iff.mp linked
      have there : ctx.ongoingAt address = some r := there
      simp only [linked] at matched kept
      by_cases answers : message.code ≠ 0 ∨ message.type = .rst
      · simp only [if_pos answers] at matched kept
        obtain ⟨called, calls, rfl⟩ := map_eq_some_iff.mp matched
        obtain ⟨aliveCalled, above⟩ := alive.runRequestCallback there calls
        have foundCalled : called.transactionAt transaction.ptr = some transaction :=
          (above.transactions _ (alive.tidy.allocated.transaction_lt found)).trans found
        have thereCalled : called.ongoingAt address = some r :=
          (above.requests _ (alive.tidy.allocated.request_lt there)).trans there
        split
        · have ended := aliveCalled.endTransaction foundCalled
          refine ended.mono fun other member => ?_
          exact member.2 (toRequest.trans (congrArg some member.1.symm))
        · rename_i keeps
          have noReset : message.type ≠ .rst := fun reset => keeps (.inr reset)
          have observes : r.observe = true := by
            cases observe : r.observe with
            | true => rfl
            | false => exact absurd (.inl ⟨answers.resolve_right noReset, observe⟩) keeps
          have user := kept r rfl noReset observes
          exact (aliveCalled.settleUser thereCalled user).coapClearTransaction foundCalled
      · simp only [if_neg answers, map_some] at matched
        rw [if_neg fun ends => answers (ends.imp_left And.left)] at matched
        cases matched
        exact alive.coapClearTransaction found
  | none =>
    simp only [byMid] at kept matched
    cases byToken : coapFindOngoingRequest ctx message.token.bytes with
    | none =>
      simp only [byToken] at matched
      cases matched
      exact alive
    | some r =>
      simp only [byToken] at matched kept
      have there : ctx.ongoingAt r.ptr = some r :=
        alive.tidy.requests r (List.mem_of_find?_eq_some byToken)
      obtain ⟨called, calls, rfl⟩ := map_eq_some_iff.mp matched
      obtain ⟨aliveCalled, above⟩ := alive.runRequestCallback there calls
      have thereCalled : called.ongoingAt r.ptr = some r :=
        (above.requests _ (alive.tidy.allocated.request_lt there)).trans there
      split
      · exact (aliveCalled.freeOngoingRequest thereCalled).mono fun other member =>
          member.2 member.1
      · rename_i keeps
        have observes : r.observe = true := by
          cases observe : r.observe with
          | true => rfl
          | false => exact absurd (.inl observe) keeps
        exact aliveCalled.settleUser thereCalled
          (kept r rfl (fun reset => keeps (.inr reset)) observes)

/-- So does sending a transaction again, or its end. -/
theorem Alive.coapSendTransaction (alive : Alive ∅ ctx) {transaction : Transaction A}
    (found : ctx.transactionAt t = some transaction)
    (sends : coapSendTransaction (Coap.runRequestCallback stops) transaction ctx = some after) :
    Alive ∅ after := by
  have here := transactionAt_ptr found
  unfold Coap.coapSendTransaction at sends
  split at sends
  · split at sends
    · cases sends
      exact (alive.modifyTransaction transaction.ptr Transaction.counted (fun _ => rfl)
        fun _ => rfl).withTxData _
    · split at sends
      · cases sends
        exact (alive.endTransaction found).mono Set.sdiff_subset
      · rename_i r linked
        obtain ⟨address, toRequest, there⟩ := bind_eq_some_iff.mp linked
        have there : ctx.ongoingAt address = some r := there
        obtain ⟨called, calls, rfl⟩ := map_eq_some_iff.mp sends
        obtain ⟨aliveCalled, above⟩ := alive.runRequestCallback there calls
        have foundCalled : called.transactionAt t = some transaction :=
          (above.transactions _ (alive.tidy.allocated.transaction_lt found)).trans found
        refine (aliveCalled.endTransaction foundCalled).mono fun other member => ?_
        exact member.2 (toRequest.trans (congrArg some member.1.symm))
  · cases sends
    have sent : Alive ∅ (transmit transaction.addr transaction.packet ctx) := alive.withTxData _
    exact (sent.endTransaction found).mono Set.sdiff_subset

/-- One event leaves every transfer alive. -/
theorem Alive.perform (alive : Alive ∅ ctx)
    {event : ClientEvent A U} (unobserved : ¬ AnswersObserver ctx event)
    (performs : event.perform stops ctx = some after) : Alive ∅ after := by
  cases event with
  | put addr request callback => exact alive.coapNonblockingPut performs
  | get addr request callback blockNum => exact alive.coapNonblockingGet performs
  | packet source message =>
    unfold ClientEvent.perform ClientEvent.performWith at performs
    simp only at performs
    split at performs
    · cases performs
      exact alive
    · rename_i noRequest
      obtain ⟨middle, matched, acknowledges⟩ := bind_eq_some_iff.mp performs
      have aliveMiddle : Alive ∅ middle := by
        refine alive.matchResponse (fun r answered noReset observes => ?_) matched
        by_contra blockWise
        exact unobserved ⟨r, message, (if_neg noRequest).trans answered, rfl, noReset,
          observes, blockWise⟩
      split at acknowledges
      · obtain ⟨packet, -, rfl⟩ := map_eq_some_iff.mp acknowledges
        split
        · exact aliveMiddle.withTxData _
        · exact aliveMiddle
      · cases acknowledges
        exact aliveMiddle
  | expire ptr =>
    obtain ⟨transaction, found, resends⟩ := bind_eq_some_iff.mp performs
    obtain ⟨sent, sends, rfl⟩ := map_eq_some_iff.mp resends
    exact (alive.coapSendTransaction found sends).toEnd transaction.ptr

/-- The callback that an event runs reaches live objects. -/
def CallsLive (stops : Stops U) (ctx : ClientContext A U) (event : ClientEvent A U) : Prop :=
  ∀ r, event.called ctx = some r → ReachesLive stops ctx r.callback event.response

/-- A response that carries a transfer on whose request has no transaction any more. -/
def GoesOnSeparately (stops : Stops U) (ctx : ClientContext A U) (event : ClientEvent A U) : Prop :=
  ∃ r ptr state, event.called ctx = some r ∧ r.transaction = none ∧ r.callback.stateOf = some ptr ∧
    stateAt ctx ptr = some state ∧ GoesOn stops state ctx r.callback event.response

/-- The request that is answered is there. -/
theorem Tidy.answered_at (tidy : Tidy ctx) {r : OngoingRequest (ClientCallback U)}
    (answered : answeredRequest message ctx = some r) : ctx.ongoingAt r.ptr = some r := by
  refine tidy.requests r ?_
  unfold answeredRequest at answered
  split at answered
  · split at answered
    · exact requestAt_mem answered
    · cases answered
  · exact List.mem_of_find?_eq_some answered

/-- So is the one that is called. -/
theorem Tidy.called_at (tidy : Tidy ctx)
    {event : ClientEvent A U} {r : OngoingRequest (ClientCallback U)}
    (called : event.called ctx = some r) : ctx.ongoingAt r.ptr = some r := by
  cases event with
  | put addr request callback => cases called
  | get addr request callback blockNum => cases called
  | packet source message =>
    simp only [ClientEvent.called] at called
    split at called
    · cases called
    · exact tidy.answered_at called
  | expire ptr =>
    refine tidy.requests r ?_
    obtain ⟨transaction, -, called⟩ := bind_eq_some_iff.mp called
    split at called
    · exact requestAt_mem called
    · cases called

/-- Where the transfers are alive, an event reaches what was freed only if it carries one on
whose transaction is gone. -/
theorem Alive.callsLive_iff (alive : Alive ∅ ctx) (event : ClientEvent A U) :
    CallsLive stops ctx event ↔ ¬ GoesOnSeparately stops ctx event := by
  constructor
  · rintro live ⟨r, ptr, state, called, unlinked, owner, found, goesOn⟩
    have there := alive.tidy.called_at called
    obtain ⟨same, foundSame, onlyLive⟩ := live r called ptr owner
    cases found.symm.trans foundSame
    obtain ⟨own, t, foundOwn, isTransaction, -, pointer⟩ :=
      alive.waits r.ptr (Set.notMem_empty _) ptr (ownerOf_some.mpr ⟨r, there, owner⟩)
    cases found.symm.trans foundOwn
    have back : ctx.transactionOf r.ptr = none := by
      rw [CoapContext.transactionOf, there]
      exact unlinked
    rcases pointer with linked | ⟨-, gone⟩
    · rw [back] at linked
      cases linked
    · have dead := onlyLive goesOn
      rw [isTransaction, bind_some, gone] at dead
      cases dead
  · intro notSeparate r called ptr owner
    have there := alive.tidy.called_at called
    obtain ⟨state, t, found, isTransaction, -, pointer⟩ :=
      alive.waits r.ptr (Set.notMem_empty _) ptr (ownerOf_some.mpr ⟨r, there, owner⟩)
    refine ⟨state, found, fun goesOn => ?_⟩
    have pointerOf : ctx.transactionOf r.ptr = r.transaction := by
      rw [CoapContext.transactionOf, there]
      rfl
    rw [pointerOf] at pointer
    rcases pointer with linked | ⟨unlinked, -⟩
    · obtain ⟨transaction, live, -⟩ := alive.tidy.transaction_linked there linked
      rw [isTransaction, bind_some, live]
      rfl
    · exact absurd ⟨r, ptr, state, called, unlinked, owner, found, goesOn⟩ notSeparate

/-- A new context has no transfers. -/
theorem alive_new (env : ClientEnv U) (noStates : env.states = []) :
    Alive ∅ (coapContextNew env : ClientContext A U) where
  tidy := by
    refine ⟨⟨fun t member => ?_, fun r member => ?_⟩, fun t member => ?_, fun r member => ?_,
      ⟨fun t r => ?_, fun t r linked => ?_⟩⟩
    · cases member
    · cases member
    · cases member
    · cases member
    · constructor <;> intro linked <;> cases linked
    · cases linked
  retries := (by decide : 0 < coapMaxRetransmit)
  stored := by
    intro ptr state found
    change env.states.find? _ = some state at found
    rw [noStates] at found
    cases found
  waits := by
    intro r _ ptr owns
    cases owns
  single := by
    intro r _ r' _ ptr owns
    cases owns

/-- In every run in which no observing transfer is answered, a callback reaches live objects,
exactly if it does not carry a transfer on whose transaction an empty message has closed. -/
theorem callsLive_iff_of_runs {mid : UInt16} {events : List (ClientEvent A U)}
    (runs : RunsUnder (ClientEvent.perform stops) (fun ctx event => ¬ AnswersObserver ctx event)
      (coapContextNew ⟨mid, [], []⟩) events ctx) (event : ClientEvent A U) :
    CallsLive stops ctx event ↔ ¬ GoesOnSeparately stops ctx event :=
  (runs.keeps (fun alive unobserved performs => alive.perform unobserved performs)
    (alive_new _ rfl)).callsLive_iff event

end Events

/-! ## A separate response, and a notification -/

/-- A request for a representation, with its answers. -/
def askPacket : Packet := coapSetToken [7] (coapInitMessage .con coapGet 0)

/-- The server accepts the request and answers later. -/
def emptyAck : Packet := coapInitMessage .ack 0 1

/-- A block of the representation. -/
def blockAnswer (type : CoapMessageType) (mid : UInt16) (more : Bool) : Packet :=
  coapSetHeaderBlock2 0 more 1024 (coapSetToken [7] (coapInitMessage type content205 mid))

/-- A client that has done nothing yet. -/
def idleClient : ClientContext Nat Unit := coapContextNew ⟨0, [], []⟩

/-- What the callback of a download finds: the address of its state, block number and callback
of the state if it is there, and whether its transaction is there. -/
structure Findings where
  state : Nat
  stored : Option (UInt32 × Option Unit)
  live : Bool
deriving DecidableEq

/-- What the callback that an event runs finds. -/
def findings (event : ClientEvent Nat Unit) (ctx : ClientContext Nat Unit) : Option Findings :=
  (event.called ctx).bind fun r =>
    match r.callback with
    | .request ptr =>
      some ⟨ptr, (stateAt ctx ptr).map fun state => (state.blockNum, state.responseCallback),
        ((stateAt ctx ptr).bind fun state => state.transaction.bind ctx.transactionAt).isSome⟩
    | _ => none

/-- What the findings say of a run. -/
theorem findings_some {event : ClientEvent Nat Unit} {ctx : ClientContext Nat Unit}
    {found : Findings} (finds : findings event ctx = some found) : ∃ r,
    event.called ctx = some r ∧ r.callback = .request found.state ∧ (stateAt ctx found.state).map
      (fun state => (state.blockNum, state.responseCallback)) = found.stored ∧
    ((stateAt ctx found.state).bind fun state => state.transaction.bind ctx.transactionAt).isSome =
      found.live := by
  obtain ⟨r, called, finds⟩ := bind_eq_some_iff.mp finds
  cases isCallback : r.callback with
  | user callback =>
    rw [isCallback] at finds
    cases finds
  | put ptr =>
    rw [isCallback] at finds
    cases finds
  | request ptr =>
    rw [isCallback] at finds
    cases finds
    exact ⟨r, called, isCallback, rfl, rfl⟩

/-- The request is accepted first, and answered later. -/
def acceptedEvents : List (ClientEvent Nat Unit) :=
  [.get 9 askPacket (some ()) 0, .packet 9 emptyAck]

/-- A request that observes is answered. -/
def observedEvents : List (ClientEvent Nat Unit) :=
  [.get 9 (coapSetHeaderObserve 0 askPacket) (some ()) 0, .packet 9 (blockAnswer .ack 1 false)]

/-- A block that is asked for finds its state. -/
theorem runs_accepted : ∃ ctx, RunsUnder (ClientEvent.perform fun _ => false)
      (fun ctx event => ¬ AnswersObserver ctx event) idleClient acceptedEvents ctx ∧
    findings (.packet 9 (blockAnswer .con 77 true)) ctx = some ⟨1, some (0, some ()), false⟩ := by
  have runs : ((ClientEvent.get 9 askPacket (some ()) 0).perform (fun _ => false) idleClient).bind
      (fun asked =>
      ((ClientEvent.packet 9 emptyAck).perform (fun _ => false) asked).map fun ctx =>
        ((ClientEvent.called (.packet 9 emptyAck) asked).isNone,
          findings (.packet 9 (blockAnswer .con 77 true)) ctx)) =
      some (true, some ⟨1, some (0, some ()), false⟩) := by
    decide +kernel
  obtain ⟨asked, asks, runs⟩ := bind_eq_some_iff.mp runs
  obtain ⟨ctx, accepts, found⟩ := map_eq_some_iff.mp runs
  obtain ⟨uncalled, found⟩ := Prod.mk.inj found
  refine ⟨ctx, .call ?_ asks (.call ?_ accepts (.done ctx)), found⟩
  · rintro ⟨r, message, called, -⟩
    cases called
  · rintro ⟨r, message, called, -⟩
    rw [called] at uncalled
    cases uncalled

/-- A second notification finds a freed one. -/
theorem runs_observed : ∃ ctx,
    RunsUnder (ClientEvent.perform fun _ => false) (fun _ _ => True) idleClient observedEvents ctx ∧
      findings (.packet 9 (blockAnswer .con 77 false)) ctx = some ⟨1, none, false⟩ := by
  have runs : ((ClientEvent.get 9 (coapSetHeaderObserve 0 askPacket) (some ()) 0).perform
      (fun _ => false) idleClient).bind
      (fun asked => ((ClientEvent.packet 9 (blockAnswer .ack 1 false)).perform
      (fun _ => false) asked).map fun ctx =>
        findings (.packet 9 (blockAnswer .con 77 false)) ctx) = some (some ⟨1, none, false⟩) := by
    decide +kernel
  obtain ⟨asked, asks, runs⟩ := bind_eq_some_iff.mp runs
  obtain ⟨ctx, answered, found⟩ := map_eq_some_iff.mp runs
  exact ⟨ctx, .call trivial asks (.call trivial answered (.done ctx)), found⟩

/-- A separate response with more to come reads the transaction that the acknowledgement freed,
and a notification comes to a state that went with the first answer. -/
theorem callsLive_fails : (∃ ctx, RunsUnder (ClientEvent.perform fun _ => false)
      (fun _ _ => True) idleClient acceptedEvents ctx ∧
      ¬ CallsLive (fun _ => false) ctx (.packet 9 (blockAnswer .con 77 true))) ∧ ∃ ctx,
    RunsUnder (ClientEvent.perform fun _ => false) (fun _ _ => True) idleClient observedEvents ctx ∧
    ¬ CallsLive (fun _ => false) ctx (.packet 9 (blockAnswer .con 77 false)) := by
  constructor
  · obtain ⟨ctx, runs, finds⟩ := runs_accepted
    obtain ⟨r, called, isCallback, stored, dead⟩ := findings_some finds
    refine ⟨ctx, runs.mono fun _ => trivial, fun live => ?_⟩
    obtain ⟨state, found, onlyLive⟩ := live r called 1 (by rw [isCallback]; rfl)
    rw [found] at stored dead
    obtain ⟨num, callback⟩ := Prod.mk.inj (some.inj stored)
    have goesOn : GoesOn (fun _ => false) state ctx r.callback
        (some (blockAnswer .con 77 true)) := by
      rw [isCallback]
      refine ⟨by decide, by decide, fun _ => ⟨(), callback, rfl⟩⟩
    have alive := onlyLive goesOn
    rw [bind_some, alive] at dead
    cases dead
  · obtain ⟨ctx, runs, finds⟩ := runs_observed
    obtain ⟨r, called, isCallback, stored, -⟩ := findings_some finds
    refine ⟨ctx, runs, fun live => ?_⟩
    obtain ⟨state, found, -⟩ := live r called 1 (by rw [isCallback]; rfl)
    rw [found] at stored
    cases stored

/-- A separate response that is complete reaches its state, and needs no transaction. -/
theorem callsLive_iff_of_runs_accepted : ∃ ctx, RunsUnder (ClientEvent.perform fun _ => false)
      (fun ctx event => ¬ AnswersObserver ctx event) idleClient acceptedEvents ctx ∧
    CallsLive (fun _ => false) ctx (.packet 9 (blockAnswer .con 77 false)) := by
  obtain ⟨ctx, runs, finds⟩ := runs_accepted
  refine ⟨ctx, runs, (callsLive_iff_of_runs runs (.packet 9 (blockAnswer .con 77 false))).mpr ?_⟩
  rintro ⟨r, ptr, state, -, -, -, -, goesOn⟩
  cases isCallback : r.callback with
  | user callback =>
    rw [isCallback] at goesOn
    exact goesOn
  | put ptr =>
    rw [isCallback] at goesOn
    rcases goesOn.2.2.2 with ⟨isContinue, -⟩ | ⟨isChanged, -⟩
    · exact absurd isContinue (by decide)
    · exact absurd isChanged (by decide)
  | request ptr =>
    rw [isCallback] at goesOn
    exact absurd goesOn.2.1 (by decide)

end Idrm.Coap
