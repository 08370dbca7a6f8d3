import Idrm.Lib.Run
import Idrm.Coap.Client
import Idrm.Coap.Lifetimes

/-!
# What the callbacks of block-wise transfers reach

A block-wise transfer has three objects on the heap: its state, the transaction of its last
message, and the ongoing request that waits for the answer. The request refers to the state as
its `callback_data`, and the state refers to the transaction, from which the next message
takes context and address.

An empty acknowledgement frees the transaction and keeps the request. A separate response that
carries the transfer on then reads the transaction that is gone. A request with the observe
option is kept by every answer, while its state goes with the last one.
-/

namespace Idrm.Coap

open Idrm.Lib Option

variable {A U : Type}

/-! ## Events and the callbacks they run -/

/-- The state that a callback gets as its `callback_data`. -/
def ClientCallback.stateOf : ClientCallback U → Option Nat
  | .user _ => none
  | .put state => some state
  | .request state => some state

/-- What happens to a client: calls, packets and timers. -/
inductive ClientEvent (A U : Type) where
  | put (addr : A) (request : Packet) (callback : Option U)
  | get (addr : A) (request : Packet) (callback : Option U) (blockNum : UInt32)
  | packet (source : A) (message : Packet)
  | expire (transaction : Nat)

/-- The callbacks of requests. -/
abbrev Run (A U : Type) :=
  ClientCallback U → Option Packet → ClientContext A U → Option (ClientContext A U)

/-- One event. Serving a request of a peer changes neither list. -/
def ClientEvent.performWith (run : Run A U) : ClientEvent A U → ClientContext A U →
    Option (ClientContext A U)
  | .put addr request callback, ctx => coapNonblockingPut addr request callback ctx
  | .get addr request callback blockNum, ctx =>
    coapNonblockingGet addr request callback blockNum ctx
  | .packet source message, ctx => if isRequest message then some ctx
      else coapHandleResponse run source message ctx
  | .expire ptr, ctx => (ctx.transactionAt ptr).bind fun transaction =>
    resendTransaction run transaction ctx

/-- One event, with the callbacks of the client. -/
def ClientEvent.perform (stops : Stops U) : ClientEvent A U → ClientContext A U →
    Option (ClientContext A U) :=
  ClientEvent.performWith (runRequestCallback stops)

/-- The request whose callback a packet runs. -/
def answeredRequest (message : Packet) (ctx : ClientContext A U) :
    Option (OngoingRequest (ClientCallback U)) :=
  match coapGetTransactionByMid ctx message.mid with
  | some transaction =>
    if message.code ≠ 0 ∨ message.type = .rst then
      ctx.requestAt transaction.ongoingRequest else none
  | none => coapFindOngoingRequest ctx message.token.bytes

/-- The request whose callback a transaction runs that is sent again. -/
def expiredRequest (ptr : Nat) (ctx : ClientContext A U) :
    Option (OngoingRequest (ClientCallback U)) :=
  (ctx.transactionAt ptr).bind fun transaction =>
    if transaction.type = .con ∧ ¬ transaction.retransCounter.toUInt16 < ctx.defaultRetransCnt
    then ctx.requestAt transaction.ongoingRequest else none

/-- The request whose callback an event runs. -/
def ClientEvent.called : ClientEvent A U → ClientContext A U →
    Option (OngoingRequest (ClientCallback U))
  | .packet _ message, ctx => if isRequest message then none else answeredRequest message ctx
  | .expire ptr, ctx => expiredRequest ptr ctx
  | _, _ => none

/-- The response that the callback gets. -/
def ClientEvent.response : ClientEvent A U → Option Packet
  | .packet _ message => some message
  | _ => none

variable {ctx : ClientContext A U} {run other : Run A U}

/-! ## Going on -/

/-- `coap_nonblocking_put_callback` goes on with the next block. -/
def PutGoesOn (state : RequestState U) (response : Packet) : Prop :=
  response.type ≠ .rst ∧ response.code ≠ created201 ∧
    ((coapGetHeaderBlock1 response).getD .zero).num = state.blockNum ∧
    (response.code = continue231 ∧ ((coapGetHeaderBlock1 response).getD .zero).more = true ∨
    response.code = changed204 ∧
    ¬ UInt32.ofNat state.request.payload.length < (state.blockNum + 1) * state.blockSize.toUInt32)

/-- `coap_nonblocking_request_callback` asks for the next block. -/
def RequestGoesOn (stops : Stops U) (state : RequestState U) (ctx : ClientContext A U)
    (response : Packet) : Prop :=
  response.type ≠ .rst ∧ ((coapGetHeaderBlock2 response).getD .zero).more = true ∧
    (((coapGetHeaderBlock2 response).getD .zero).num = state.blockNum →
    ∃ callback, state.responseCallback = some callback ∧
    stops (ctx.env.called ++ [(callback, some response)]) = false)

/-- A callback carries its transfer on. -/
def GoesOn (stops : Stops U) (state : RequestState U) (ctx : ClientContext A U) :
    ClientCallback U → Option Packet → Prop
  | .put _, some response => PutGoesOn state response
  | .request _, some response => RequestGoesOn stops state ctx response
  | _, _ => False

/-- A callback reaches live objects: its state, and the transaction that it goes on from. -/
def ReachesLive (stops : Stops U) (ctx : ClientContext A U) (callback : ClientCallback U)
    (message : Option Packet) : Prop :=
  ∀ ptr, callback.stateOf = some ptr → ∃ state, stateAt ctx ptr = some state ∧
    (GoesOn stops state ctx callback message →
    ((state.transaction.bind ctx.transactionAt).isSome = true))

/-- Calls of users are noted. -/
def withCalled (calls : List (U × Option Packet)) (ctx : ClientContext A U) : ClientContext A U :=
  { ctx with env := { ctx.env with called := calls } }

section Callbacks

variable {state : RequestState U} {ptr : Nat}

theorem callIfSet_withCalled (callback : Option U) (response : Option Packet)
    (ctx : ClientContext A U) :
    ∃ calls, callIfSet callback response ctx = withCalled calls ctx := by
  cases callback with
  | none => exact ⟨ctx.env.called, rfl⟩
  | some callback => exact ⟨_, rfl⟩

/-- The callback frees its state, unless it goes on with the next block. -/
theorem coapNonblockingPutCallback_cases (found : stateAt ctx ptr = some state)
    (stops : Stops U) (message : Option Packet) :
    (¬ GoesOn stops state ctx (.put ptr) message ∧ ∃ calls, coapNonblockingPutCallback ptr message
      ctx = some (freeBlockwiseState state (withCalled calls ctx))) ∨
      (GoesOn stops state ctx (.put ptr) message ∧ coapNonblockingPutCallback ptr message ctx =
        continuePut { state with blockNum := state.blockNum + 1 } ctx) := by
  have ends : ∀ response, ∃ calls,
      freeBlockwiseState state (callIfSet state.responseCallback response ctx) =
      freeBlockwiseState state (withCalled calls ctx) := by
    intro response
    obtain ⟨calls, same⟩ := callIfSet_withCalled state.responseCallback response ctx
    exact ⟨calls, by rw [same]⟩
  obtain ⟨calls, cleanup⟩ := ends none
  unfold coapNonblockingPutCallback cleanupPut
  rw [found, bind_some]
  cases message with
  | none => exact .inl ⟨id, calls, congrArg some cleanup⟩
  | some response =>
    obtain ⟨completeCalls, complete⟩ := ends (some response)
    simp only [GoesOn, PutGoesOn, cleanup, complete]
    by_cases reset : response.type = .rst
    · exact .inl ⟨fun goes => goes.1 reset, calls, if_pos reset⟩
    · rw [if_neg reset]
      by_cases created : response.code = created201
      · exact .inl ⟨fun goes => goes.2.1 created, completeCalls, if_pos created⟩
      · rw [if_neg created]
        by_cases num : ((coapGetHeaderBlock1 response).getD .zero).num = state.blockNum
        · rw [if_neg (not_not.mpr num)]
          by_cases goesOn : response.code = continue231
          · rw [if_pos goesOn]
            cases more : ((coapGetHeaderBlock1 response).getD .zero).more with
            | false =>
              refine .inl ⟨?_, calls, (if_pos rfl).trans (congrArg some cleanup)⟩
              rintro ⟨-, -, -, ⟨-, isMore⟩ | ⟨changed, -⟩⟩
              · cases isMore
              · rw [goesOn] at changed
                exact absurd changed (by decide)
            | true => exact .inr ⟨⟨reset, created, num, .inl ⟨goesOn, rfl⟩⟩, if_neg (by decide)⟩
          · rw [if_neg goesOn]
            by_cases changed : response.code = changed204
            · rw [if_pos changed]
              by_cases last : UInt32.ofNat state.request.payload.length < (state.blockNum + 1) *
                state.blockSize.toUInt32
              · refine .inl ⟨?_, completeCalls, if_pos last⟩
                rintro ⟨-, -, -, ⟨isMore, -⟩ | ⟨-, more⟩⟩
                · exact goesOn isMore
                · exact more last
              · exact .inr ⟨⟨reset, created, num, .inr ⟨changed, last⟩⟩, if_neg last⟩
            · refine .inl ⟨?_, calls, (if_neg changed).trans (congrArg some cleanup)⟩
              rintro ⟨-, -, -, ⟨isMore, -⟩ | ⟨isChanged, -⟩⟩
              · exact goesOn isMore
              · exact changed isChanged
        · exact .inl ⟨fun goes => num goes.2.2.1, calls, if_pos num⟩

/-- The callback frees its state, unless it goes on and asks for the next block. Without a
callback of the user it has no result where it calls it. -/
theorem coapNonblockingRequestCallback_cases (found : stateAt ctx ptr = some state)
    (stops : Stops U) (message : Option Packet) : (¬ GoesOn stops state ctx (.request ptr) message ∧
      ∀ next, coapNonblockingRequestCallback stops ptr message ctx = some next →
      ∃ calls, next = freeBlockwiseState state (withCalled calls ctx)) ∨
      (GoesOn stops state ctx (.request ptr) message ∧ ∃ calls blockNum,
        coapNonblockingRequestCallback stops ptr message ctx =
          continueRequest { state with blockNum := blockNum } (withCalled calls ctx)) := by
  have cleanup : ∀ {called next}, cleanupRequest state (withCalled called ctx) = some next →
      ∃ calls, next = freeBlockwiseState state (withCalled calls ctx) := by
    intro called next cleans
    obtain ⟨callback, -, rfl⟩ := map_eq_some_iff.mp cleans
    exact ⟨_, rfl⟩
  have own : ctx = withCalled ctx.env.called ctx := rfl
  unfold coapNonblockingRequestCallback
  rw [found, bind_some]
  cases message with
  | none =>
    refine .inl ⟨id, fun next cleans => ?_⟩
    rw [own] at cleans
    exact cleanup cleans
  | some response =>
    simp only [GoesOn, RequestGoesOn]
    by_cases reset : response.type = .rst
    · refine .inl ⟨fun goes => goes.1 reset, fun next cleans => ?_⟩
      rw [if_pos reset, own] at cleans
      exact cleanup cleans
    · rw [if_neg reset]
      by_cases num : ((coapGetHeaderBlock2 response).getD .zero).num = state.blockNum
      · rw [if_pos num]
        cases isSet : state.responseCallback with
        | none =>
          refine .inl ⟨?_, fun next calls => by cases calls⟩
          rintro ⟨-, -, calls⟩
          obtain ⟨callback, given, -⟩ := calls num
          cases given
        | some callback =>
          rw [bind_some]
          cases stop : stops (ctx.env.called ++ [(callback, some response)]) with
          | true =>
            refine .inl ⟨?_, fun next cleans => ?_⟩
            · rintro ⟨-, -, calls⟩
              obtain ⟨same, given, goes⟩ := calls num
              cases given
              rw [stop] at goes
              cases goes
            · have stopped : stops (callUser callback (some response) ctx).env.called = true := stop
              simp only [stopped, if_true] at cleans
              exact cleanup cleans
          | false =>
            have goes : ¬ stops (callUser callback (some response) ctx).env.called = true := by
              intro stopped
              exact Bool.false_ne_true (stop.symm.trans stopped)
            simp only [if_neg goes]
            cases more : ((coapGetHeaderBlock2 response).getD .zero).more with
            | false =>
              refine .inl ⟨fun goes => Bool.false_ne_true goes.2.1, fun next frees => ?_⟩
              rw [if_pos rfl] at frees
              exact ⟨_, (some.inj frees).symm⟩
            | true =>
              refine .inr ⟨⟨reset, rfl, fun _ => ⟨callback, rfl, stop⟩⟩, _, _, if_neg (by decide)⟩
      · rw [if_neg num]
        cases more : ((coapGetHeaderBlock2 response).getD .zero).more with
        | false =>
          refine .inl ⟨fun goes => Bool.false_ne_true goes.2.1, fun next frees => ?_⟩
          rw [if_pos rfl] at frees
          exact ⟨_, (some.inj frees).symm⟩
        | true =>
          exact .inr ⟨⟨reset, rfl, fun same => absurd same num⟩, ctx.env.called, state.blockNum,
            if_neg (by decide)⟩

end Callbacks

end Idrm.Coap
