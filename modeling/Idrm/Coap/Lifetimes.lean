import Idrm.Lib.Paired
import Idrm.Coap.Exchange

/-!
# Transactions and requests as maps

The lists of a context, seen as maps from addresses. In a tidy context no two entries have the
same address, and the pointers between transactions and ongoing requests agree. Every
operation on the lists keeps that, and is an update of the two maps.
-/

namespace Idrm.Coap

open Idrm.Lib Function Option List

section Lifetimes

variable {A K E : Type} {ctx after : CoapContext A K E} {t : Transaction A}
  {r : OngoingRequest K} {ptr : Nat}

/-- The ongoing request at an address. -/
def CoapContext.ongoingAt (ctx : CoapContext A K E) : Nat → Option (OngoingRequest K) :=
  entryAt OngoingRequest.ptr ctx.ongoingRequests

/-- `ongoing_request` of the transaction at an address. -/
def CoapContext.requestOf (ctx : CoapContext A K E) (ptr : Nat) : Option Nat :=
  (ctx.transactionAt ptr).bind (·.ongoingRequest)

/-- `transaction` of the ongoing request at an address. -/
def CoapContext.transactionOf (ctx : CoapContext A K E) (ptr : Nat) : Option Nat :=
  (ctx.ongoingAt ptr).bind (·.transaction)

/-- Addresses are unique, and the pointers agree. -/
structure Tidy (ctx : CoapContext A K E) : Prop where
  allocated : Allocated ctx
  transactions : Addressed Transaction.ptr ctx.transactions
  requests : Addressed OngoingRequest.ptr ctx.ongoingRequests
  paired : Paired ctx.requestOf ctx.transactionOf

/-- Writing a transaction sets its request. -/
theorem requestOf_update {node : Option (Transaction A)}
    (updated : after.transactionAt = update ctx.transactionAt ptr node) :
    after.requestOf = update ctx.requestOf ptr (node.bind (·.ongoingRequest)) := by
  have whole := congrArg
    (fun map => (fun entry => Option.bind entry Transaction.ongoingRequest) ∘ map) updated
  rw [Function.comp_update] at whole
  exact whole

/-- Writing a request sets its transaction. -/
theorem transactionOf_update {node : Option (OngoingRequest K)}
    (updated : after.ongoingAt = update ctx.ongoingAt ptr node) :
    after.transactionOf = update ctx.transactionOf ptr (node.bind (·.transaction)) := by
  have whole := congrArg
    (fun map => (fun entry => Option.bind entry OngoingRequest.transaction) ∘ map) updated
  rw [Function.comp_update] at whole
  exact whole

/-- A transaction lies at its own address. -/
theorem transactionAt_ptr (found : ctx.transactionAt ptr = some t) : t.ptr = ptr := by
  simpa using List.find?_some found

/-- So does a request. -/
theorem ongoingAt_ptr (found : ctx.ongoingAt ptr = some r) : r.ptr = ptr := by
  simpa using List.find?_some found

/-- Transactions lie below the next address. -/
theorem Allocated.transaction_lt (allocated : Allocated ctx)
    (found : ctx.transactionAt ptr = some t) : ptr < ctx.nextPtr :=
  transactionAt_ptr found ▸ allocated.transactions t (mem_of_find?_eq_some found)

/-- So do requests. -/
theorem Allocated.request_lt (allocated : Allocated ctx) (found : ctx.ongoingAt ptr = some r) :
    ptr < ctx.nextPtr :=
  ongoingAt_ptr found ▸ allocated.requests r (mem_of_find?_eq_some found)

/-- The next address holds no transaction. -/
theorem Allocated.transaction_fresh (allocated : Allocated ctx) :
    ctx.transactionAt ctx.nextPtr = none := by
  cases found : ctx.transactionAt ctx.nextPtr with
  | none => rfl
  | some t => exact absurd (allocated.transaction_lt found) (Nat.lt_irrefl _)

/-- It holds no request. -/
theorem Allocated.request_fresh (allocated : Allocated ctx) : ctx.ongoingAt ctx.nextPtr = none := by
  cases found : ctx.ongoingAt ctx.nextPtr with
  | none => rfl
  | some r => exact absurd (allocated.request_lt found) (Nat.lt_irrefl _)

variable {address : Nat}

/-- The request of a transaction is there, and refers to it. -/
theorem Tidy.request_linked (tidy : Tidy ctx) (found : ctx.transactionAt ptr = some t)
    (linked : t.ongoingRequest = some address) :
    ∃ r, ctx.ongoingAt address = some r ∧ r.transaction = some ptr := by
  have forth : ctx.requestOf ptr = some address := by
    rw [CoapContext.requestOf, found]
    exact linked
  exact bind_eq_some_iff.mp ((tidy.paired.each _ _).mp forth)

/-- The transaction of a request is there, and refers to it. -/
theorem Tidy.transaction_linked (tidy : Tidy ctx) (found : ctx.ongoingAt ptr = some r)
    (linked : r.transaction = some address) :
    ∃ t, ctx.transactionAt address = some t ∧ t.ongoingRequest = some ptr := by
  have back : ctx.transactionOf ptr = some address := by
    rw [CoapContext.transactionOf, found]
    exact linked
  exact bind_eq_some_iff.mp ((tidy.paired.each _ _).mpr back)

/-! ## New entries -/

/-- A new transaction lies at the next address. -/
theorem coapNewTransaction_at (allocated : Allocated ctx) (mid : UInt16) (addr : A) :
    (coapNewTransaction mid addr ctx).2.transactionAt =
      update ctx.transactionAt ctx.nextPtr (some ⟨ctx.nextPtr, mid, 0, addr, .con, [], none⟩) :=
  entryAt_append (⟨ctx.nextPtr, mid, 0, addr, .con, [], none⟩ : Transaction A)
    allocated.transaction_fresh

/-- It has no request to be tied to. -/
theorem Tidy.coapNewTransaction (tidy : Tidy ctx) (mid : UInt16) (addr : A) :
    Tidy (coapNewTransaction mid addr ctx).2 := by
  have updated := coapNewTransaction_at tidy.allocated mid addr
  have single : ctx.requestOf ctx.nextPtr = none := by
    rw [CoapContext.requestOf, tidy.allocated.transaction_fresh]
    rfl
  refine ⟨⟨fun t member => ?_,
    fun r member => Nat.lt_succ_of_lt (tidy.allocated.requests r member)⟩,
    tidy.transactions.append tidy.allocated.transaction_fresh, tidy.requests, ?_⟩
  · rcases mem_append.mp member with old | new
    · exact Nat.lt_succ_of_lt (tidy.allocated.transactions t old)
    · rw [mem_singleton.mp new]
      exact Nat.lt_succ_self _
  · rw [requestOf_update updated, bind_some, update_eq_self_iff.mpr single.symm]
    exact tidy.paired

section Handler

variable {message : Packet} {callback : K}

/-- Arming ties the transaction to its new request. -/
theorem coapSetResponseHandler_transactionAt (callback : K)
    (token : message.token.bytes.length ≠ 0) (found : ctx.transactionAt ptr = some t) :
    (coapSetResponseHandler ptr message callback ctx).transactionAt =
      update ctx.transactionAt ptr (some { t with ongoingRequest := some ctx.nextPtr }) := by
  rw [coapSetResponseHandler_token token]
  have updated := entryAt_map Transaction.ptr ctx.transactions ptr
    (fun t => { t with ongoingRequest := some ctx.nextPtr }) fun _ here => here
  have here : entryAt Transaction.ptr ctx.transactions ptr = some t := found
  rw [here] at updated
  exact updated

/-- The new request is tied to the transaction. -/
theorem coapSetResponseHandler_ongoingAt (ptr : Nat)
    (callback : K) (token : message.token.bytes.length ≠ 0) (allocated : Allocated ctx) :
    (coapSetResponseHandler ptr message callback ctx).ongoingAt = update ctx.ongoingAt ctx.nextPtr
      (some ⟨ctx.nextPtr, message.token.bytes, message.isOption .observe, some ptr, callback⟩) := by
  rw [coapSetResponseHandler_token token]
  exact entryAt_append (⟨ctx.nextPtr, message.token.bytes, message.isOption .observe, some ptr,
    callback⟩ : OngoingRequest K) allocated.request_fresh

/-- Without a token nothing is armed. -/
theorem coapSetResponseHandler_noToken (token : message.token.bytes.length = 0) :
    coapSetResponseHandler ptr message callback ctx = ctx := if_pos token

/-- Arming a transaction without a request keeps the pairs. -/
theorem Tidy.coapSetResponseHandler (tidy : Tidy ctx)
    (found : ctx.transactionAt ptr = some t) (unarmed : t.ongoingRequest = none)
    (message : Packet) (callback : K) : Tidy (coapSetResponseHandler ptr message callback ctx) := by
  by_cases token : message.token.bytes.length = 0
  · rw [coapSetResponseHandler_noToken token]
    exact tidy
  · have single : ctx.requestOf ptr = none := by
      rw [CoapContext.requestOf, found]
      exact unarmed
    have free : ctx.transactionOf ctx.nextPtr = none := by
      rw [CoapContext.transactionOf, tidy.allocated.request_fresh]
      rfl
    have linked := tidy.paired.link single free (tidy.allocated.transaction_lt found)
    have forth := coapSetResponseHandler_transactionAt callback token found
    have back := coapSetResponseHandler_ongoingAt ptr callback token tidy.allocated
    have shape : Coap.coapSetResponseHandler ptr message callback ctx = _ :=
      coapSetResponseHandler_token token ptr
    refine ⟨?_, ?_, ?_, ?_⟩
    · rw [shape]
      refine ⟨fun other member => ?_, fun other member => ?_⟩
      · obtain ⟨old, oldMember, rfl⟩ := List.mem_map.mp member
        have bound := tidy.allocated.transactions old oldMember
        split <;> exact Nat.lt_succ_of_lt bound
      · rcases mem_append.mp member with old | new
        · exact Nat.lt_succ_of_lt (tidy.allocated.requests other old)
        · rw [mem_singleton.mp new]
          exact Nat.lt_succ_self _
    · rw [shape]
      exact tidy.transactions.map ptr _ fun _ here => here
    · rw [shape]
      exact tidy.requests.append tidy.allocated.request_fresh
    · rw [requestOf_update forth, transactionOf_update back]
      exact linked

end Handler

/-! ## Changes in place -/

/-- A change of a transaction changes its entry alone. -/
theorem modifyTransaction_at (ptr : Nat) (change : Transaction A → Transaction A)
    (samePtr : ∀ t, (change t).ptr = t.ptr) : (modifyTransaction ptr change ctx).transactionAt =
      update ctx.transactionAt ptr ((ctx.transactionAt ptr).map change) :=
  entryAt_map Transaction.ptr ctx.transactions ptr change fun t here => (samePtr t).trans here

/-- So does a change of a request. -/
theorem modifyRequest_at (ptr : Nat) (change : OngoingRequest K → OngoingRequest K)
    (samePtr : ∀ r, (change r).ptr = r.ptr) : (modifyRequest ptr change ctx).ongoingAt =
      update ctx.ongoingAt ptr ((ctx.ongoingAt ptr).map change) :=
  entryAt_map OngoingRequest.ptr ctx.ongoingRequests ptr change fun r here => (samePtr r).trans here

/-- A change allocates nothing. -/
theorem Allocated.modifyTransaction (allocated : Allocated ctx)
    (ptr : Nat) (change : Transaction A → Transaction A)
    (samePtr : ∀ t, (change t).ptr = t.ptr) : Allocated (modifyTransaction ptr change ctx) := by
  refine ⟨fun t member => ?_, allocated.requests⟩
  obtain ⟨old, oldMember, rfl⟩ := List.mem_map.mp member
  have bound := allocated.transactions old oldMember
  split
  · exact (samePtr old).symm ▸ bound
  · exact bound

/-- A change that keeps the request keeps the pairs. -/
theorem Tidy.modifyTransaction (tidy : Tidy ctx)
    (ptr : Nat) (change : Transaction A → Transaction A) (samePtr : ∀ t, (change t).ptr = t.ptr)
    (sameRequest : ∀ t, (change t).ongoingRequest = t.ongoingRequest) :
    Tidy (modifyTransaction ptr change ctx) := by
  have unchanged : (Coap.modifyTransaction ptr change ctx).requestOf = ctx.requestOf := by
    rw [requestOf_update (modifyTransaction_at ptr change samePtr), update_eq_self_iff,
      CoapContext.requestOf, bind_map]
    simp only [Function.comp_def, sameRequest]
  refine ⟨tidy.allocated.modifyTransaction ptr change samePtr,
    tidy.transactions.map ptr change fun t here => (samePtr t).trans here, tidy.requests, ?_⟩
  rw [unchanged]
  exact tidy.paired

/-! ## Freeing -/

/-- A transaction without its request. -/
def Transaction.unlinked (t : Transaction A) : Transaction A := { t with ongoingRequest := none }

/-- An ongoing request without its transaction. -/
def OngoingRequest.unlinked (r : OngoingRequest K) : OngoingRequest K :=
  { r with transaction := none }

/-- A context without an ongoing request. -/
def withoutRequest (r : OngoingRequest K) (ctx : CoapContext A K E) : CoapContext A K E :=
  { ctx with ongoingRequests := ctx.ongoingRequests.filter (·.ptr ≠ r.ptr) }

/-- A context without a transaction. -/
def withoutTransaction (t : Transaction A) (ctx : CoapContext A K E) : CoapContext A K E :=
  { ctx with transactions := ctx.transactions.filter (·.ptr ≠ t.ptr) }

/-- A request that is taken out is gone. -/
theorem withoutRequest_at (r : OngoingRequest K) :
    (withoutRequest r ctx).ongoingAt = update ctx.ongoingAt r.ptr none :=
  entryAt_filter OngoingRequest.ptr ctx.ongoingRequests r.ptr

/-- So is a transaction. -/
theorem withoutTransaction_at (t : Transaction A) :
    (withoutTransaction t ctx).transactionAt = update ctx.transactionAt t.ptr none :=
  entryAt_filter Transaction.ptr ctx.transactions t.ptr

/-- Taking a request out allocates nothing. -/
theorem Allocated.withoutRequest (allocated : Allocated ctx) (r : OngoingRequest K) :
    Allocated (withoutRequest r ctx) :=
  ⟨allocated.transactions, fun other member => allocated.requests other (mem_filter.mp member).1⟩

/-- Nor does taking a transaction out. -/
theorem Allocated.withoutTransaction (allocated : Allocated ctx) (t : Transaction A) :
    Allocated (withoutTransaction t ctx) :=
  ⟨fun other member => allocated.transactions other (mem_filter.mp member).1, allocated.requests⟩

/-- A request without a transaction is only taken out. -/
theorem freeOngoingRequest_single (single : r.transaction = none) :
    freeOngoingRequest r ctx = withoutRequest r ctx := by
  rw [freeOngoingRequest, single]
  rfl

/-- One with a transaction is untied from it. -/
theorem freeOngoingRequest_linked (linked : r.transaction = some address) : freeOngoingRequest r
      ctx = modifyTransaction address Transaction.unlinked (withoutRequest r ctx) := by
  rw [freeOngoingRequest, linked]
  rfl

/-- Either way it is gone. -/
theorem freeOngoingRequest_ongoingAt (r : OngoingRequest K) :
    (freeOngoingRequest r ctx).ongoingAt = update ctx.ongoingAt r.ptr none := by
  have removed : (withoutRequest r ctx).ongoingAt = _ := withoutRequest_at r
  cases transaction : r.transaction with
  | none => rwa [freeOngoingRequest_single transaction]
  | some address =>
    rw [freeOngoingRequest_linked transaction]
    exact removed

/-- No transaction goes with it. -/
theorem freeOngoingRequest_alive (r : OngoingRequest K) (ptr : Nat) :
    ((freeOngoingRequest r ctx).transactionAt ptr).isSome = (ctx.transactionAt ptr).isSome := by
  cases transaction : r.transaction with
  | none =>
    rw [freeOngoingRequest_single transaction]
    rfl
  | some address =>
    rw [freeOngoingRequest_linked transaction,
      modifyTransaction_at address Transaction.unlinked fun _ => rfl]
    by_cases same : ptr = address
    · subst same
      rw [update_self, isSome_map]
      rfl
    · rw [update_of_ne same]
      rfl

/-- Freeing a request keeps the pairs. -/
theorem Tidy.freeOngoingRequest (tidy : Tidy ctx) (found : ctx.ongoingAt ptr = some r) :
    Tidy (freeOngoingRequest r ctx) := by
  have here := ongoingAt_ptr found
  have back : ctx.transactionOf r.ptr = r.transaction := by
    rw [here, CoapContext.transactionOf, found]
    rfl
  have removed : (Coap.freeOngoingRequest r ctx).transactionOf = _ :=
    transactionOf_update (freeOngoingRequest_ongoingAt r)
  cases transaction : r.transaction with
  | none =>
    rw [freeOngoingRequest_single transaction] at removed ⊢
    refine ⟨tidy.allocated.withoutRequest r, tidy.transactions, tidy.requests.filter r.ptr, ?_⟩
    rw [removed, bind_none, update_eq_self_iff.mpr (back.trans transaction).symm]
    exact tidy.paired
  | some address =>
    have forth : ctx.requestOf address = some r.ptr :=
      (tidy.paired.each _ _).mpr (back.trans transaction)
    have unlinked := tidy.paired.unlink forth
    have changed : (Coap.modifyTransaction address Transaction.unlinked
        (withoutRequest r ctx)).requestOf = _ :=
      requestOf_update (modifyTransaction_at address _ fun _ => rfl)
    have none : (((withoutRequest r ctx).transactionAt address).map Transaction.unlinked).bind
        (·.ongoingRequest) = none := by
      cases (withoutRequest r ctx).transactionAt address <;> rfl
    rw [freeOngoingRequest_linked transaction] at removed ⊢
    refine ⟨(tidy.allocated.withoutRequest r).modifyTransaction address _ fun _ => rfl,
      tidy.transactions.map address _ fun _ here => here, tidy.requests.filter r.ptr, ?_⟩
    rw [changed, removed, none]
    exact unlinked

/-- A transaction without a request is only taken out. -/
theorem coapClearTransaction_single (single : t.ongoingRequest = none) :
    coapClearTransaction t ctx = withoutTransaction t ctx := by
  rw [coapClearTransaction, single]
  rfl

/-- One with a request is untied from it. -/
theorem coapClearTransaction_linked (linked : t.ongoingRequest = some address) :
    coapClearTransaction t ctx = modifyRequest address OngoingRequest.unlinked
      (withoutTransaction t ctx) := by
  rw [coapClearTransaction, linked]
  rfl

/-- Either way it is gone. -/
theorem coapClearTransaction_transactionAt (t : Transaction A) :
    (coapClearTransaction t ctx).transactionAt = update ctx.transactionAt t.ptr none := by
  have removed : (withoutTransaction t ctx).transactionAt = _ := withoutTransaction_at t
  cases request : t.ongoingRequest with
  | none => rwa [coapClearTransaction_single request]
  | some address =>
    rw [coapClearTransaction_linked request]
    exact removed

/-- Its request goes on without it. -/
theorem coapClearTransaction_ongoingAt (linked : t.ongoingRequest = some address)
    (found : ctx.ongoingAt address = some r) :
    (coapClearTransaction t ctx).ongoingAt = update ctx.ongoingAt address (some r.unlinked) := by
  have changed :
      (modifyRequest address OngoingRequest.unlinked (withoutTransaction t ctx)).ongoingAt = _ :=
    modifyRequest_at address _ fun _ => rfl
  have same : (withoutTransaction t ctx).ongoingAt address = some r := found
  rw [same] at changed
  rw [coapClearTransaction_linked linked]
  exact changed

/-- Clearing a transaction keeps the pairs. -/
theorem Tidy.coapClearTransaction (tidy : Tidy ctx) (found : ctx.transactionAt ptr = some t) :
    Tidy (coapClearTransaction t ctx) := by
  have here := transactionAt_ptr found
  have forth : ctx.requestOf t.ptr = t.ongoingRequest := by
    rw [here, CoapContext.requestOf, found]
    rfl
  have removed : (Coap.coapClearTransaction t ctx).requestOf = _ :=
    requestOf_update (coapClearTransaction_transactionAt t)
  cases request : t.ongoingRequest with
  | none =>
    rw [coapClearTransaction_single request] at removed ⊢
    refine ⟨tidy.allocated.withoutTransaction t, tidy.transactions.filter t.ptr, tidy.requests, ?_⟩
    rw [removed, bind_none, update_eq_self_iff.mpr (forth.trans request).symm]
    exact tidy.paired
  | some address =>
    obtain ⟨r, there, -⟩ := tidy.request_linked found request
    have unlinked := tidy.paired.unlink (forth.trans request)
    have changed := transactionOf_update (coapClearTransaction_ongoingAt request there)
    rw [coapClearTransaction_linked request] at removed changed ⊢
    refine ⟨⟨(tidy.allocated.withoutTransaction t).transactions, fun other member => ?_⟩,
      tidy.transactions.filter t.ptr, tidy.requests.map address _ fun _ here => here, ?_⟩
    · obtain ⟨old, oldMember, rfl⟩ := List.mem_map.mp member
      have bound := tidy.allocated.requests old oldMember
      split <;> exact bound
    · rw [removed, changed]
      exact unlinked

/-! ## The end of a transaction -/

/-- Without a request the end of a transaction clears it. -/
theorem endTransaction_single (single : t.ongoingRequest = none) :
    endTransaction t ctx = coapClearTransaction t ctx := by
  rw [endTransaction, single]
  rfl

/-- With one the request is freed first. -/
theorem endTransaction_linked (linked : t.ongoingRequest = some address)
    (there : ctx.ongoingAt address = some r) :
    endTransaction t ctx = coapClearTransaction t.unlinked (freeOngoingRequest r ctx) := by
  have found : ctx.requestAt t.ongoingRequest = some r := by
    rw [linked]
    exact there
  rw [endTransaction, found]
  rfl

/-- The transaction is gone at the end. -/
theorem endTransaction_transactionAt (tidy : Tidy ctx) (found : ctx.transactionAt ptr = some t) :
    (endTransaction t ctx).transactionAt = update ctx.transactionAt ptr none := by
  have here := transactionAt_ptr found
  cases request : t.ongoingRequest with
  | none => rw [endTransaction_single request, coapClearTransaction_transactionAt, here]
  | some address =>
    obtain ⟨r, there, linked⟩ := tidy.request_linked found request
    rw [endTransaction_linked request there, coapClearTransaction_transactionAt,
      freeOngoingRequest_linked linked, modifyTransaction_at ptr Transaction.unlinked fun _ => rfl]
    have samePtr : t.unlinked.ptr = ptr := here
    rw [samePtr, update_idem]
    rfl

/-- So is its request. -/
theorem endTransaction_ongoingAt (tidy : Tidy ctx) (found : ctx.transactionAt ptr = some t)
    (linked : t.ongoingRequest = some address) :
    (endTransaction t ctx).ongoingAt = update ctx.ongoingAt address none := by
  obtain ⟨r, there, -⟩ := tidy.request_linked found linked
  rw [endTransaction_linked linked there, coapClearTransaction_single rfl]
  change (freeOngoingRequest r ctx).ongoingAt = _
  rw [freeOngoingRequest_ongoingAt, ongoingAt_ptr there]

/-- Only the request of the transaction goes. -/
theorem endTransaction_ongoing (tidy : Tidy ctx) (found : ctx.transactionAt ptr = some t)
    (there : (endTransaction t ctx).ongoingAt address = some r) :
    ctx.ongoingAt address = some r ∧ t.ongoingRequest ≠ some address := by
  cases linked : t.ongoingRequest with
  | none =>
    rw [endTransaction_single linked, coapClearTransaction_single linked] at there
    exact ⟨there, by simp⟩
  | some own =>
    rw [endTransaction_ongoingAt tidy found linked] at there
    have different : address ≠ own := fun same => by
      rw [same, update_self] at there
      cases there
    rw [update_of_ne different] at there
    exact ⟨there, fun same => different (some.inj same).symm⟩

/-- The end of a transaction keeps the pairs. -/
theorem Tidy.endTransaction (tidy : Tidy ctx) (found : ctx.transactionAt ptr = some t) :
    Tidy (endTransaction t ctx) := by
  cases request : t.ongoingRequest with
  | none =>
    rw [endTransaction_single request]
    exact tidy.coapClearTransaction found
  | some address =>
    obtain ⟨r, there, linked⟩ := tidy.request_linked found request
    rw [endTransaction_linked request there]
    have still : (Coap.freeOngoingRequest r ctx).transactionAt ptr = some t.unlinked := by
      rw [freeOngoingRequest_linked linked,
        modifyTransaction_at ptr Transaction.unlinked fun _ => rfl, update_self]
      change (ctx.transactionAt ptr).map _ = _
      rw [found]
      rfl
    exact (tidy.freeOngoingRequest there).coapClearTransaction still

/-! ## What else there is -/

/-- Only the lists change. -/
structure SameRest (ctx after : CoapContext A K E) : Prop where
  nextPtr : after.nextPtr = ctx.nextPtr
  retries : after.defaultRetransCnt = ctx.defaultRetransCnt
  env : after.env = ctx.env

/-- Freeing a request changes nothing but the lists. -/
theorem freeOngoingRequest_rest (r : OngoingRequest K) (ctx : CoapContext A K E) :
    SameRest ctx (freeOngoingRequest r ctx) := by
  unfold freeOngoingRequest
  cases r.transaction <;> exact ⟨rfl, rfl, rfl⟩

/-- Nor does clearing a transaction. -/
theorem coapClearTransaction_rest (t : Transaction A) (ctx : CoapContext A K E) :
    SameRest ctx (coapClearTransaction t ctx) := by
  unfold coapClearTransaction
  cases t.ongoingRequest <;> exact ⟨rfl, rfl, rfl⟩

/-- Nor does ending one. -/
theorem endTransaction_rest (t : Transaction A) (ctx : CoapContext A K E) :
    SameRest ctx (endTransaction t ctx) := by
  unfold endTransaction
  split
  · exact coapClearTransaction_rest t ctx
  · rename_i request found
    have freed := freeOngoingRequest_rest request ctx
    have cleared :=
      coapClearTransaction_rest { t with ongoingRequest := none } (freeOngoingRequest request ctx)
    exact ⟨cleared.nextPtr.trans freed.nextPtr, cleared.retries.trans freed.retries,
      cleared.env.trans freed.env⟩

/-! ## The order of the transactions -/

/-- The transaction at an address goes to the end. -/
def toEnd (ptr : Nat) (ctx : CoapContext A K E) : CoapContext A K E :=
  { ctx with
    transactions := ctx.transactions.filter (·.ptr ≠ ptr) ++ ctx.transactions.filter (·.ptr = ptr) }

/-- At the end of the list a transaction is found as before. -/
theorem toEnd_at (ptr : Nat) : (toEnd ptr ctx).transactionAt = ctx.transactionAt :=
  entryAt_toEnd Transaction.ptr ctx.transactions ptr

/-- The order of the list does not matter to the pairs. -/
theorem Tidy.toEnd (tidy : Tidy ctx) (ptr : Nat) : Tidy (toEnd ptr ctx) := by
  have same : (Coap.toEnd ptr ctx).requestOf = ctx.requestOf := by
    funext other
    rw [CoapContext.requestOf, toEnd_at]
    rfl
  refine ⟨⟨fun t member => ?_, tidy.allocated.requests⟩, tidy.transactions.toEnd ptr,
    tidy.requests, ?_⟩
  · rcases mem_append.mp member with front | behind
    · exact tidy.allocated.transactions t (mem_filter.mp front).1
    · exact tidy.allocated.transactions t (mem_filter.mp behind).1
  · rw [same]
    exact tidy.paired

end Lifetimes

end Idrm.Coap
