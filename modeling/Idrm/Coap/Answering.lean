import Idrm.Coap.Waiters

/-!
# Whoever waits is answered once

A packet or a timer runs the callback of at most one request. Where it leads to a user, the
user is called and waits no longer, or a transfer goes on and the user waits at the address of
its next request; every other request is left alone. A new request is one more that waits.
-/

namespace Idrm.Coap

open Idrm.Lib Option List

variable {A U : Type} {ctx after : ClientContext A U} {r t ptr : Nat}

/-! ## The callback of a request -/

section Callbacks

variable {aside : Set Nat} {state : RequestState U}

/-- The last block of an upload is acknowledged. -/
def PutCompletes (state : RequestState U) (response : Packet) : Prop :=
  ((coapGetHeaderBlock1 response).getD .zero).num = state.blockNum ∧ response.code = changed204 ∧
    UInt32.ofNat state.request.payload.length < (state.blockNum + 1) * state.blockSize.toUInt32

/-- `coap_nonblocking_put_callback` ends with the response, or with nothing where it was reset or
the block is refused, or goes on. -/
theorem putCallback_cases {response : Option Packet} (found : stateAt ctx ptr = some state)
    (runs : coapNonblockingPutCallback ptr response ctx = some after) :
    (∃ value, after = freeBlockwiseState state (callIfSet state.responseCallback value ctx) ∧
      (value = response ∨ value = none ∧ ∀ message, response = some message → message.type = .rst ∨
        ¬(message.code = created201 ∨ PutGoesOn state message ∨ PutCompletes state message))) ∨
      continuePut { state with blockNum := state.blockNum + 1 } ctx = some after := by
  rw [coapNonblockingPutCallback, found, bind_some] at runs
  cases response with
  | none => exact .inl ⟨none, (some.inj runs).symm, .inl rfl⟩
  | some message =>
    have refused (branch : some (cleanupPut state ctx) = some after) (why : message.type = .rst ∨
        ¬(message.code = created201 ∨ PutGoesOn state message ∨ PutCompletes state message)) :
        ∃ value, after = freeBlockwiseState state (callIfSet state.responseCallback value ctx) ∧
        (value = some message ∨ value = none ∧ ∀ other, some message = some other → other.type =
        .rst ∨ ¬(other.code = created201 ∨ PutGoesOn state other ∨ PutCompletes state other)) :=
      ⟨none, (some.inj branch).symm, .inr ⟨rfl, fun other same => some.inj same ▸ why⟩⟩
    dsimp only at runs
    split at runs
    · rename_i reset
      exact .inl (refused runs (.inl reset))
    split at runs
    · exact .inl ⟨some message, (some.inj runs).symm, .inl rfl⟩
    rename_i uncreated
    split at runs
    · rename_i elsewhere
      refine .inl (refused runs (.inr ?_))
      rintro (created | goesOn | completes)
      · exact uncreated created
      · exact elsewhere goesOn.2.2.1
      · exact elsewhere completes.1
    split at runs
    · rename_i continues
      have unchanged : message.code ≠ changed204 := by
        rw [continues]
        decide
      split at runs
      · rename_i last
        refine .inl (refused runs (.inr ?_))
        rintro (created | goesOn | completes)
        · exact uncreated created
        · rcases goesOn.2.2.2 with ⟨-, more⟩ | ⟨changed, -⟩
          · exact Bool.false_ne_true (last.symm.trans more)
          · exact unchanged changed
        · exact unchanged completes.2.1
      · exact .inr runs
    rename_i discontinued
    split at runs
    · split at runs
      · exact .inl ⟨some message, (some.inj runs).symm, .inl rfl⟩
      · exact .inr runs
    · rename_i unchanged
      refine .inl (refused runs (.inr ?_))
      rintro (created | goesOn | completes)
      · exact uncreated created
      · rcases goesOn.2.2.2 with ⟨continues, -⟩ | ⟨changed, -⟩
        · exact discontinued continues
        · exact unchanged changed
      · exact unchanged completes.2.1

/-- A response is a reset, or it is the block that was asked for exactly if no more follow. -/
def BlockFits (state : RequestState U) (response : Packet) : Prop :=
  response.type = .rst ∨ ((coapGetHeaderBlock2 response).getD .zero).more =
    decide (((coapGetHeaderBlock2 response).getD .zero).num ≠ state.blockNum)

/-- `coap_nonblocking_request_callback` ends with the response, or with nothing where it was reset,
or asks again. -/
theorem requestCallback_cases {response : Packet} (found : stateAt ctx ptr = some state)
    (fits : state.responseCallback ≠ none → BlockFits state response)
    (runs : coapNonblockingRequestCallback (fun _ => false) ptr (some response) ctx = some after) :
    (∃ value, after = freeBlockwiseState state (callIfSet state.responseCallback value ctx) ∧
      (value = some response ∨ value = none ∧ response.type = .rst)) ∨
    continueRequest state ctx = some after := by
  rw [coapNonblockingRequestCallback, found, bind_some] at runs
  dsimp only at runs
  split at runs
  · rename_i reset
    obtain ⟨user, isUser, rfl⟩ := map_eq_some_iff.mp runs
    rw [isUser]
    exact .inl ⟨none, rfl, .inr ⟨rfl, reset⟩⟩
  rename_i noReset
  split at runs
  · rename_i asked
    obtain ⟨user, isUser, calls⟩ := bind_eq_some_iff.mp runs
    have last : ((coapGetHeaderBlock2 response).getD .zero).more = false := by
      have fits := (fits (isUser ▸ some_ne_none user)).resolve_left noReset
      rw [fits]
      exact decide_eq_false fun different => different asked
    rw [if_neg Bool.false_ne_true, if_pos last] at calls
    rw [isUser]
    exact .inl ⟨some response, (some.inj calls).symm, .inl rfl⟩
  rename_i unasked
  split at runs
  · rename_i last
    have nobody : state.responseCallback = none := by
      by_contra user
      have more := (fits user).resolve_left noReset
      rw [last, decide_eq_true unasked] at more
      exact Bool.false_ne_true more
    rw [nobody]
    exact .inl ⟨some response, (some.inj runs).symm, .inl rfl⟩
  · exact .inr runs

/-- A response ends the request of a callback, or carries it on. -/
def Fits (ctx : ClientContext A U) (response : Packet) : ClientCallback U → Prop
  | .user _ => True
  | .put ptr => ∀ state, stateAt ctx ptr = some state → response.type = .rst ∨
      response.code = created201 ∨ PutGoesOn state response ∨ PutCompletes state response
  | .request ptr => ∀ state, stateAt ctx ptr = some state → BlockFits state response

/-- A user is called with the response, or with nothing without one and where it was reset. -/
def Suitable (response value : Option Packet) : Prop :=
  value = response ∨ value = none ∧ ∀ message, response = some message → message.type = .rst

/-- What the callback of a request leaves: its user was called, or waits under another address. -/
inductive Ran (r : Nat) (user : Option U) (response : Option Packet)
    (ctx called : ClientContext A U) : Prop
  | ended (value : Option Packet) : (∀ other ≠ r, waitsFor called other = waitsFor ctx other) →
      called.env.called = ctx.env.called ++ (user.map (·, value)).toList → Suitable response value →
      Ran r user response ctx called
  | handed : (∀ other ≠ r,
      waitsFor called other = Function.update (waitsFor ctx) (ctx.nextPtr + 1) user other) →
      called.env.called = ctx.env.called → Ran r user response ctx called

theorem callIfSet_called (user : Option U) (value : Option Packet) (ctx : ClientContext A U) :
    (callIfSet user value ctx).env.called = ctx.env.called ++ (user.map (·, value)).toList := by
  cases user with
  | none => exact (append_nil _).symm
  | some user => rfl

/-- The end of a transfer. -/
theorem Attended.end (attended : Attended aside ctx)
    (spare : Spare aside state.ptr ctx) (value : Option Packet) :
    Attended aside (freeBlockwiseState state (callIfSet state.responseCallback value ctx)) ∧
    ∀ other ∉ aside,
    waitsFor (freeBlockwiseState state (callIfSet state.responseCallback value ctx)) other =
      waitsFor ctx other := by
  obtain ⟨calls, same⟩ := callIfSet_withCalled state.responseCallback value ctx
  rw [same]
  have states : stateAt (freeBlockwiseState state (withCalled calls ctx)) = Function.update
      (stateAt ctx) state.ptr none :=
    stateAt_freeBlockwiseState state (withCalled calls ctx)
  refine ⟨attended.leave (attended.alive.end spare calls) attended.confirmable
    fun r out request there => .inr ⟨out, there, ?_⟩, ?_⟩
  · exact spare.elsewhere states out there
  · intro other out
    exact waitsFor_of_spare spare rfl states out

/-- The callback of a request leaves every other request alone. -/
theorem Attended.runRequestCallback (attended : Attended ∅ ctx)
    {request : OngoingRequest (ClientCallback U)}
    (there : ctx.ongoingAt r = some request) {response : Option Packet}
    (fits : ∀ message, response = some message →
      userOf ctx request.callback ≠ none → Fits ctx message request.callback)
    (runs : runRequestCallback (fun _ => false) request.callback response ctx = some after) :
    Attended {r} after ∧ Ran r (userOf ctx request.callback) response ctx after := by
  have alive := (attended.alive.runRequestCallback there runs).1
  have aside : Attended {r} ctx := attended.mono (Set.empty_subset _)
  have spare : ∀ ptr, request.callback.stateOf = some ptr → Spare {r} ptr ctx := fun ptr owner =>
    attended.alive.spare (ownerOf_some.mpr ⟨request, there, owner⟩)
  have others : ∀ other, other ≠ r → other ∉ ({r} : Set Nat) := fun other different => different
  have persistent : ∀ ptr state, request.callback.stateOf = some ptr →
      stateAt ctx ptr = some state → Persistent state.request := by
    intro ptr state owner found
    obtain ⟨stored, isStored, persistent⟩ :=
      (attended.tended r (Set.notMem_empty r) request there).sendable ptr owner
    exact some.inj (isStored.symm.trans found) ▸ persistent
  cases isCallback : request.callback with
  | user callback =>
    rw [isCallback] at runs
    obtain rfl := some.inj runs
    obtain ⟨calls, same⟩ := callIfSet_withCalled callback response ctx
    have confirmable : AllConfirmable (callIfSet callback response ctx) := by
      rw [same]
      exact attended.confirmable
    refine ⟨aside.leave alive confirmable fun other out node before => .inr ⟨out, ?_, ?_⟩,
      .ended response ?_ (callIfSet_called ..) (.inl rfl)⟩
    · rw [same] at before
      exact before
    · rw [same]
      exact fun _ _ => rfl
    · rw [same]
      exact fun _ _ => rfl
  | put ptr =>
    rw [isCallback] at runs fits spare persistent
    obtain ⟨state, found, -⟩ := bind_eq_some_iff.mp runs
    have here : state.ptr = ptr := by simpa using List.find?_some found
    subst here
    have spare := spare _ rfl
    have user : userOf ctx (.put state.ptr) = state.responseCallback := by
      rw [userOf, found, bind_some]
    rw [user] at fits ⊢
    rcases putCallback_cases found runs with ⟨value, rfl, origin⟩ | goes
    · obtain ⟨ended, same⟩ := aside.end spare value
      refine ⟨ended, ?_⟩
      have called :
          (freeBlockwiseState state (callIfSet state.responseCallback value ctx)).env.called = _ :=
        callIfSet_called state.responseCallback value ctx
      by_cases nobody : state.responseCallback = none
      · refine .ended response
          (fun other different => same other (others other different)) ?_ (.inl rfl)
        rw [called, nobody]
        rfl
      · refine .ended value (fun other different => same other (others other different)) called ?_
        refine origin.imp_right fun both => ⟨both.1, fun message isMessage => ?_⟩
        rcases both.2 message isMessage with reset | refused
        · exact reset
        · exact (fits message isMessage nobody state found).resolve_right refused
    · let next : RequestState U := { state with blockNum := state.blockNum + 1 }
      have sendable : Persistent next.request := persistent state.ptr state rfl found
      have spareNext : Spare {r} next.ptr ctx := spare
      have renewed : Renewed (.put next.ptr) next ctx after :=
        continuePut_renewed aside.alive found spareNext sendable goes
      refine ⟨renewed.attended aside alive rfl spare, .handed ?_ renewed.called⟩
      intro other different
      exact renewed.waitsFor rfl spare different
  | request ptr =>
    rw [isCallback] at runs fits spare persistent
    obtain ⟨state, found, -⟩ := bind_eq_some_iff.mp runs
    have here : state.ptr = ptr := by simpa using List.find?_some found
    subst here
    have spare := spare _ rfl
    have user : userOf ctx (.request state.ptr) = state.responseCallback := by
      rw [userOf, found, bind_some]
    rw [user] at fits ⊢
    cases response with
    | none =>
      rw [Coap.runRequestCallback, coapNonblockingRequestCallback, found, bind_some] at runs
      obtain ⟨callback, isUser, rfl⟩ := map_eq_some_iff.mp runs
      have ended := aside.end spare none
      rw [isUser] at ended ⊢
      exact ⟨ended.1, .ended none (fun other different => ended.2 other (others other different))
        rfl (.inl rfl)⟩
    | some message =>
      rcases requestCallback_cases found (fun user => fits message rfl user state found)
        runs with ⟨value, rfl, origin⟩ | goes
      · obtain ⟨ended, same⟩ := aside.end spare value
        refine ⟨ended, .ended value (fun other different => same other (others other different))
          (callIfSet_called ..) ?_⟩
        exact origin.imp_right fun both => ⟨both.1, fun other isOther => some.inj isOther ▸ both.2⟩
      · have renewed :=
          continueRequest_renewed aside.alive found spare (persistent _ _ rfl found) goes
        refine ⟨renewed.attended aside alive rfl spare, .handed ?_ renewed.called⟩
        intro other different
        exact renewed.waitsFor rfl spare different

end Callbacks

/-! ## Packets and timers -/

/-- What an event does for those who wait: nothing, an answer for the one that was asked for, or
a new address for one of them. -/
inductive Moves (response : Option Packet) (asked : Option U) (ctx after : ClientContext A U) : Prop
  | rests : waitsFor after = waitsFor ctx → after.env.called = ctx.env.called →
      Moves response asked ctx after
  | answers (r : Nat) (user : U) (value : Option Packet) : asked = some user →
      waitsFor ctx r = some user → waitsFor after = Function.update (waitsFor ctx) r none →
      after.env.called = ctx.env.called ++ [(user, value)] →
      Suitable response value → Moves response asked ctx after
  | hands (r fresh : Nat) (user : U) : waitsFor ctx r = some user → waitsFor ctx fresh = none →
      waitsFor after = Function.update (Function.update (waitsFor ctx) fresh (some user)) r none →
      after.env.called = ctx.env.called → Moves response asked ctx after

/-- What else changes does not matter. -/
theorem Moves.congr {response : Option Packet} {asked : Option U} {later : ClientContext A U}
    (moves : Moves response asked ctx after) (waits : waitsFor later = waitsFor after)
    (called : later.env.called = after.env.called) : Moves response asked ctx later := by
  cases moves with
  | rests same calls => exact .rests (waits.trans same) (called.trans calls)
  | answers r user value isAsked here same calls origin =>
    exact .answers r user value isAsked here (waits.trans same) (called.trans calls) origin
  | hands r fresh user here free same calls =>
    exact .hands r fresh user here free (waits.trans same) (called.trans calls)

/-- The user that a packet is for. -/
def answeredUser (message : Packet) (ctx : ClientContext A U) : Option U :=
  (answeredRequest message ctx).bind fun r => userOf ctx r.callback

/-- The user whose message is not sent again. -/
def expiredUser (ptr : Nat) (ctx : ClientContext A U) : Option U :=
  (expiredRequest ptr ctx).bind fun r => userOf ctx r.callback

/-- Whoever waits is answered by a packet that is for it, and its transfer does not break off. -/
structure AnswersPlainly (ctx : ClientContext A U) (message : Packet) : Prop where
  answers : ∀ transaction r, coapGetTransactionByMid ctx message.mid = some transaction →
    ctx.requestAt transaction.ongoingRequest = some r → userOf ctx r.callback ≠ none →
    message.code ≠ 0 ∨ message.type = .rst
  fits : ∀ r, answeredRequest message ctx = some r → userOf ctx r.callback ≠ none →
    Fits ctx message r.callback

section Events

variable {response : Option Packet} {asked : Option U} {message : Packet}
  {called : ClientContext A U} {transaction : Transaction A}
  {request : OngoingRequest (ClientCallback U)}

theorem waitsFor_there (there : ctx.ongoingAt r = some request) :
    waitsFor ctx r = userOf ctx request.callback := by
  rw [waitsFor, there, bind_some]

theorem waitsFor_free (allocated : Allocated ctx) (least : ctx.nextPtr ≤ r) :
    waitsFor ctx r = none := by
  cases there : ctx.ongoingAt r with
  | none => rw [waitsFor, there, bind_none]
  | some request => exact absurd (allocated.request_lt there) (Nat.not_lt.mpr least)

/-- The request of a callback is freed after it. -/
theorem Ran.moves (ran : Ran r (waitsFor ctx r) response ctx called) (allocated : Allocated ctx)
    (ongoing : after.ongoingAt = Function.update called.ongoingAt r none)
    (env : after.env = called.env) : Moves response (waitsFor ctx r) ctx after := by
  have gone : waitsFor after = Function.update (waitsFor called) r none :=
    waitsFor_update ongoing (stateAt_of_env env)
  have free : waitsFor ctx (ctx.nextPtr + 1) = none := waitsFor_free allocated (Nat.le_succ _)
  have sameCalls : after.env.called = called.env.called := congrArg ClientEnv.called env
  have off {waits : Nat → Option U} (others : ∀ other ≠ r, waitsFor called other = waits other) :
      waitsFor after = Function.update waits r none := by
    rw [gone]
    funext other
    by_cases same : other = r
    · rw [same, Function.update_self, Function.update_self]
    · rw [Function.update_of_ne same, Function.update_of_ne same, others other same]
  generalize isUser : waitsFor ctx r = user at ran ⊢
  cases user with
  | none =>
    have nobody : Function.update (waitsFor ctx) r none = waitsFor ctx :=
      Function.update_eq_self_iff.mpr isUser.symm
    cases ran with
    | ended value others calls origin =>
      exact .rests ((off others).trans nobody) (sameCalls.trans (calls.trans (append_nil _)))
    | handed others calls =>
      have spare : Function.update (waitsFor ctx) (ctx.nextPtr + 1) none = waitsFor ctx :=
        Function.update_eq_self_iff.mpr free.symm
      refine .rests ((off others).trans ?_) (sameCalls.trans calls)
      rw [spare, nobody]
  | some user =>
    cases ran with
    | ended value others calls origin =>
      exact .answers r user value rfl isUser (off others) (sameCalls.trans calls) origin
    | handed others calls =>
      exact .hands r (ctx.nextPtr + 1) user isUser free (off others) (sameCalls.trans calls)

/-- The request that was set aside is gone. -/
theorem Attended.dropped (attended : Attended {r} called)
    (alive : Alive ∅ after) (confirmable : AllConfirmable after)
    (ongoing : after.ongoingAt = Function.update called.ongoingAt r none)
    (env : after.env = called.env) : Attended ∅ after := by
  refine attended.leave alive confirmable fun other out node there => ?_
  rw [ongoing] at there
  have different : other ≠ r := fun same => by
    rw [same, Function.update_self] at there
    cases there
  rw [Function.update_of_ne different] at there
  exact .inr ⟨different, there, fun ptr _ => stateAt_congr env ptr⟩

theorem AllConfirmable.modify (confirmable : AllConfirmable ctx)
    (change : Transaction A → Transaction A)
    (samePtr : ∀ t, (change t).ptr = t.ptr) (sameType : ∀ t, (change t).type = t.type) (ptr : Nat) :
    AllConfirmable (modifyTransaction ptr change ctx) := by
  have updated := @modifyTransaction_at _ _ _ ctx ptr change samePtr
  refine confirmable.update updated fun one isChanged => ?_
  obtain ⟨old, found, rfl⟩ := map_eq_some_iff.mp isChanged
  exact (sameType old).trans (confirmable ptr old found)

theorem AllConfirmable.freeOngoingRequest (confirmable : AllConfirmable ctx)
    (request : OngoingRequest (ClientCallback U)) :
    AllConfirmable (freeOngoingRequest request ctx) := by
  have without : AllConfirmable (withoutRequest request ctx) := confirmable
  cases linked : request.transaction with
  | none =>
    rw [freeOngoingRequest_single linked]
    exact without
  | some address =>
    rw [freeOngoingRequest_linked linked]
    exact without.modify Transaction.unlinked (fun _ => rfl) (fun _ => rfl) address

theorem AllConfirmable.endTransaction (confirmable : AllConfirmable ctx) (tidy : Tidy ctx)
    (found : ctx.transactionAt t = some transaction) :
    AllConfirmable (endTransaction transaction ctx) :=
  confirmable.update (endTransaction_transactionAt tidy found) fun one isNone => by cases isNone

theorem AllConfirmable.coapClearTransaction (confirmable : AllConfirmable ctx)
    (transaction : Transaction A) : AllConfirmable (coapClearTransaction transaction ctx) :=
  confirmable.update (coapClearTransaction_transactionAt transaction) fun one isNone => by
    cases isNone

/-- A transaction without a request is for nobody. -/
theorem Attended.clearSingle (attended : Attended ∅ ctx)
    (found : ctx.transactionAt t = some transaction) (single : transaction.ongoingRequest = none) :
    Attended ∅ (coapClearTransaction transaction ctx) ∧
    Moves response asked ctx (coapClearTransaction transaction ctx) := by
  have ongoing : (coapClearTransaction transaction ctx).ongoingAt = ctx.ongoingAt := by
    rw [coapClearTransaction_single single]
    rfl
  have env := (coapClearTransaction_rest transaction ctx).env
  refine ⟨?_, .rests (waitsFor_congr ongoing (stateAt_of_env env)) (congrArg ClientEnv.called env)⟩
  refine attended.leave (attended.alive.coapClearTransaction found)
    (attended.confirmable.coapClearTransaction _) fun r out node there => ?_
  rw [ongoing] at there
  exact .inr ⟨out, there, fun ptr _ => stateAt_congr env ptr⟩

/-- An acknowledgement without an answer, for a request of nobody. -/
theorem Attended.clearLinked (attended : Attended ∅ ctx)
    (found : ctx.transactionAt t = some transaction) {address : Nat}
    (linked : transaction.ongoingRequest = some address)
    (there : ctx.ongoingAt address = some request) (nobody : userOf ctx request.callback = none) :
    Attended ∅ (coapClearTransaction transaction ctx) ∧
    Moves response asked ctx (coapClearTransaction transaction ctx) := by
  have ongoing := coapClearTransaction_ongoingAt linked there
  have env := (coapClearTransaction_rest transaction ctx).env
  have states := stateAt_of_env env
  have same : waitsFor (coapClearTransaction transaction ctx) = waitsFor ctx := by
    rw [waitsFor_update ongoing states]
    exact Function.update_eq_self_iff.mpr (nobody.trans ((waitsFor_there there).trans nobody).symm)
  refine ⟨?_, .rests same (congrArg ClientEnv.called env)⟩
  refine attended.leave (attended.alive.coapClearTransaction found)
    (attended.confirmable.coapClearTransaction _) fun r out node isNode => ?_
  rw [ongoing] at isNode
  by_cases here : r = address
  · rw [here, Function.update_self] at isNode
    obtain rfl := some.inj isNode
    have tended := (attended.tended address (Set.notMem_empty _) request there).congr fun ptr _ =>
      congrFun states ptr
    refine .inl ⟨tended.unobserved, tended.sendable, fun user => absurd ?_ user⟩
    rw [userOf_congr states]
    exact nobody
  · rw [Function.update_of_ne here] at isNode
    exact .inr ⟨out, isNode, fun ptr _ => congrFun states ptr⟩

/-- A callback runs, and its transaction ends with its request. -/
theorem Attended.ends (attended : Attended ∅ ctx) (found : ctx.transactionAt t = some transaction)
    {address : Nat} (linked : transaction.ongoingRequest = some address)
    (there : ctx.ongoingAt address = some request) (fits : ∀ message, response = some message →
      userOf ctx request.callback ≠ none → Fits ctx message request.callback)
    (runs : Coap.runRequestCallback (fun _ => false) request.callback response ctx = some called)
    (alive : Alive ∅ (endTransaction transaction called)) :
    Attended ∅ (endTransaction transaction called) ∧
    Moves response (userOf ctx request.callback) ctx (endTransaction transaction called) := by
  obtain ⟨aside, ran⟩ := attended.runRequestCallback there fits runs
  have above := (attended.alive.runRequestCallback there runs).2
  have foundCalled : called.transactionAt t = some transaction :=
    (above.transactions _ (attended.alive.tidy.allocated.transaction_lt found)).trans found
  have ongoing := endTransaction_ongoingAt aside.alive.tidy foundCalled linked
  have env := (endTransaction_rest transaction called).env
  rw [← waitsFor_there there] at ran ⊢
  exact ⟨aside.dropped alive (aside.confirmable.endTransaction aside.alive.tidy foundCalled) ongoing
    env, ran.moves attended.alive.tidy.allocated ongoing env⟩

theorem Attended.matchResponse (attended : Attended ∅ ctx) (plainly : AnswersPlainly ctx message)
    (matched : matchResponse (Coap.runRequestCallback fun _ => false) message ctx = some after) :
    Attended ∅ after ∧ Moves (some message) (answeredUser message ctx) ctx after := by
  have unobserved (r : OngoingRequest (ClientCallback U)) (there : ctx.ongoingAt r.ptr = some r) :
      r.observe = false :=
    (attended.tended r.ptr (Set.notMem_empty _) r there).unobserved
  have alive : Alive ∅ after := by
    refine attended.alive.matchResponse (fun r answered _ observes => ?_) matched
    exact absurd ((unobserved r (attended.alive.tidy.answered_at answered)).symm.trans observes)
      Bool.false_ne_true
  have answeredFits := plainly.fits
  unfold answeredUser
  unfold answeredRequest at answeredFits ⊢
  unfold Coap.matchResponse at matched
  cases byMid : coapGetTransactionByMid ctx message.mid with
  | some transaction =>
    simp only [byMid] at answeredFits matched ⊢
    have found := attended.alive.tidy.transactions transaction (mem_of_find?_eq_some byMid)
    cases linked : ctx.requestAt transaction.ongoingRequest with
    | none =>
      simp only [linked] at matched
      obtain rfl := some.inj matched
      refine attended.clearSingle found ?_
      by_contra dangling
      obtain ⟨address, toRequest⟩ := ne_none_iff_exists'.mp dangling
      obtain ⟨request, there, -⟩ := attended.alive.tidy.request_linked found toRequest
      rw [toRequest] at linked
      exact some_ne_none request (there.symm.trans linked)
    | some r =>
      obtain ⟨address, toRequest, isThere⟩ := bind_eq_some_iff.mp linked
      have there : ctx.ongoingAt address = some r := isThere
      have observe : r.observe = false :=
        (attended.tended address (Set.notMem_empty _) r there).unobserved
      simp only [linked] at matched
      by_cases answers : message.code ≠ 0 ∨ message.type = .rst
      · rw [if_pos answers] at matched
        obtain ⟨called, calls, isAfter⟩ := map_eq_some_iff.mp matched
        rw [if_pos (answers.imp_left fun code => ⟨code, observe⟩)] at isAfter
        subst isAfter
        rw [if_pos answers, bind_some]
        refine attended.ends found toRequest there (fun other isOther user => ?_) calls alive
        obtain rfl := some.inj isOther
        exact answeredFits r ((if_pos answers).trans linked) user
      · rw [if_neg answers, map_some,
          if_neg fun ends => answers (ends.imp_left And.left)] at matched
        obtain rfl := some.inj matched
        refine attended.clearLinked found toRequest there ?_
        by_contra user
        exact answers (plainly.answers transaction r byMid linked user)
  | none =>
    simp only [byMid] at answeredFits matched ⊢
    cases byToken : coapFindOngoingRequest ctx message.token.bytes with
    | none =>
      simp only [byToken] at matched
      obtain rfl := some.inj matched
      exact ⟨attended, .rests rfl rfl⟩
    | some r =>
      simp only [byToken] at matched
      have there : ctx.ongoingAt r.ptr = some r :=
        attended.alive.tidy.requests r (mem_of_find?_eq_some byToken)
      obtain ⟨called, calls, isAfter⟩ := map_eq_some_iff.mp matched
      rw [if_pos (.inl (unobserved r there))] at isAfter
      subst isAfter
      obtain ⟨aside, ran⟩ := attended.runRequestCallback there (fun other isOther user => by
        obtain rfl := some.inj isOther
        exact answeredFits r byToken user) calls
      have ongoing : (freeOngoingRequest r called).ongoingAt = _ := freeOngoingRequest_ongoingAt r
      have env := (freeOngoingRequest_rest r called).env
      rw [← waitsFor_there there] at ran
      rw [bind_some, ← waitsFor_there there]
      exact ⟨aside.dropped alive (aside.confirmable.freeOngoingRequest r) ongoing env,
        ran.moves attended.alive.tidy.allocated ongoing env⟩

/-- A packet answers at most one of those who wait. -/
theorem Attended.coapHandleResponse (attended : Attended ∅ ctx)
    (plainly : AnswersPlainly ctx message) {source : A} (handles :
      coapHandleResponse (Coap.runRequestCallback fun _ => false) source message ctx = some after) :
    Attended ∅ after ∧ Moves (some message) (answeredUser message ctx) ctx after := by
  obtain ⟨middle, matched, acknowledges⟩ := bind_eq_some_iff.mp handles
  obtain ⟨attendedMiddle, moves⟩ := attended.matchResponse plainly matched
  have acknowledged (txData : List (A × List UInt8)) :
      Attended ∅ { middle with txData := txData } :=
    ⟨attendedMiddle.alive.withTxData txData, attendedMiddle.confirmable, fun r out request there =>
      (attendedMiddle.tended r out request there).congr fun _ _ => rfl⟩
  split at acknowledges
  · obtain ⟨packet, -, rfl⟩ := map_eq_some_iff.mp acknowledges
    split
    · exact ⟨acknowledged _, moves.congr rfl rfl⟩
    · exact ⟨attendedMiddle, moves⟩
  · obtain rfl := some.inj acknowledges
    exact ⟨attendedMiddle, moves⟩

/-- A timer that runs out answers at most one of those who wait, with nothing. -/
theorem Attended.coapSendTransaction (attended : Attended ∅ ctx)
    (found : ctx.transactionAt t = some transaction) (sends :
      coapSendTransaction (Coap.runRequestCallback fun _ => false) transaction ctx = some after) :
    Attended ∅ after ∧ Moves none (expiredUser t ctx) ctx after := by
  have alive := attended.alive.coapSendTransaction found sends
  have con := attended.confirmable t transaction found
  rw [Coap.coapSendTransaction, if_pos con] at sends
  split at sends
  · obtain rfl := some.inj sends
    have counted : AllConfirmable (modifyTransaction transaction.ptr Transaction.counted ctx) :=
      attended.confirmable.modify Transaction.counted (fun _ => rfl) (fun _ => rfl) _
    exact ⟨⟨alive, counted, fun r out request there => (attended.tended r out request there).congr
      fun _ _ => rfl⟩, .rests rfl rfl⟩
  · rename_i spent
    split at sends
    · rename_i linked
      obtain rfl := some.inj sends
      have single : transaction.ongoingRequest = none := by
        by_contra dangling
        obtain ⟨address, toRequest⟩ := ne_none_iff_exists'.mp dangling
        obtain ⟨request, there, -⟩ := attended.alive.tidy.request_linked found toRequest
        rw [toRequest] at linked
        exact some_ne_none request (there.symm.trans linked)
      rw [endTransaction_single single]
      exact attended.clearSingle found single
    · rename_i r linked
      obtain ⟨address, toRequest, isThere⟩ := bind_eq_some_iff.mp linked
      obtain ⟨called, calls, rfl⟩ := map_eq_some_iff.mp sends
      have expired : expiredRequest t ctx = some r := by
        rw [expiredRequest, found, bind_some, if_pos ⟨con, spent⟩]
        exact linked
      rw [expiredUser, expired, bind_some]
      exact attended.ends found toRequest isThere
        (fun message isMessage => by cases isMessage) calls alive

theorem Attended.resendTransaction (attended : Attended ∅ ctx)
    (found : ctx.transactionAt t = some transaction) (resends :
      resendTransaction (Coap.runRequestCallback fun _ => false) transaction ctx = some after) :
    Attended ∅ after ∧ Moves none (expiredUser t ctx) ctx after := by
  obtain ⟨sent, sends, rfl⟩ := map_eq_some_iff.mp resends
  obtain ⟨attendedSent, moves⟩ := attended.coapSendTransaction found sends
  have confirmable : AllConfirmable (toEnd transaction.ptr sent) := fun other node there =>
    attendedSent.confirmable other node
      ((congrFun (toEnd_at transaction.ptr) other).symm.trans there)
  refine ⟨⟨attendedSent.alive.toEnd transaction.ptr, confirmable, fun r out request there =>
    (attendedSent.tended r out request there).congr fun _ _ => rfl⟩, ?_⟩
  exact moves.congr rfl rfl

end Events

/-! ## New requests -/

/-- A user who waits from now on, where nobody has waited. -/
structure Joins (user : Option U) (ctx after : ClientContext A U) : Prop where
  waits : ∃ fresh, waitsFor ctx fresh = none ∧
    waitsFor after = Function.update (waitsFor ctx) fresh user
  called : after.env.called = ctx.env.called

theorem Persistent.size1 {request : Packet} (persistent : Persistent request) (size : UInt32) :
    Persistent (coapSetHeaderSize1 size request) := by
  refine ⟨persistent.con, persistent.token, ?_⟩
  have unobserved : CoapOption.observe.number ∉ request.options :=
    of_decide_eq_false persistent.unobserved
  exact decide_eq_false fun member => unobserved
    ((Finset.mem_insert.mp member).resolve_left (by decide))

theorem Persistent.firstPutBlock {request : Packet} (persistent : Persistent request) :
    Persistent (firstPutBlock request) := by
  have blocked := (persistent.block1 0 true 1024).size1 (UInt32.ofNat request.payload.length)
  exact ⟨blocked.con, blocked.token, blocked.unobserved⟩

section Requests

variable {message request : Packet} {callback : ClientCallback U}
  {made ready sent : ClientContext A U} {user : Option U}
  {state : RequestState U} {addr : A}

/-- A message that is sent has a request if it is confirmable and has a token. -/
theorem Armed.launches (armed : Armed t message request callback made ready)
    (attended : Attended ∅ made) (alive : Alive ∅ sent)
    (sends : sendTransactionAt t ready = some sent) (asks : request.token.bytes.length ≠ 0 →
      message.type = .con → request.isOption .observe = false ∧ ∀ ptr, callback.stateOf = some ptr →
      ∃ state, stateAt made ptr = some state ∧ Persistent state.request)
    (waits : userOf made callback ≠ none → message.type = .con ∧ request.token.bytes.length ≠ 0) :
    Attended ∅ sent ∧ waitsFor sent = Function.update (waitsFor made) made.nextPtr
      (userOf made callback) ∧ sent.env = made.env := by
  have allocated := attended.alive.tidy.allocated
  have free : waitsFor made made.nextPtr = none := waitsFor_free allocated (Nat.le_refl _)
  have nobody (noUser : userOf made callback = none) :
      waitsFor made = Function.update (waitsFor made) made.nextPtr (userOf made callback) := by
    rw [noUser, ← free, Function.update_eq_self]
  by_cases con : message.type = .con
  · obtain ⟨env, ongoing, node, live, isCon⟩ := armed.send_con con sends
    have confirmable : AllConfirmable sent :=
      attended.confirmable.update live fun one isNode => some.inj isNode ▸ isCon
    have states := stateAt_of_env env
    rw [armed.ongoing] at ongoing
    by_cases token : request.token.bytes.length = 0
    · rw [if_pos token] at ongoing
      refine ⟨attended.leave alive confirmable fun r out node there => .inr ⟨out, ongoing ▸ there,
        fun ptr _ => congrFun states ptr⟩, (waitsFor_congr ongoing states).trans (nobody ?_), env⟩
      by_contra user
      exact (waits user).2 token
    · rw [if_neg token] at ongoing
      obtain ⟨unobserved, persistent⟩ := asks token con
      refine ⟨attended.leave alive confirmable fun r out node there => ?_,
        waitsFor_update ongoing states, env⟩
      rw [ongoing] at there
      by_cases new : r = made.nextPtr
      · rw [new, Function.update_self] at there
        obtain rfl := some.inj there
        refine .inl ⟨unobserved, fun ptr owner => ?_, fun _ => some_ne_none t⟩
        obtain ⟨state, found, sendable⟩ := persistent ptr owner
        exact ⟨state, (congrFun states ptr).trans found, sendable⟩
      · rw [Function.update_of_ne new] at there
        exact .inr ⟨out, there, fun ptr _ => congrFun states ptr⟩
  · obtain ⟨env, ongoing, gone⟩ := armed.send_once allocated con sends
    have states := stateAt_of_env env
    have confirmable : AllConfirmable sent :=
      attended.confirmable.update gone fun one isNone => by cases isNone
    refine ⟨attended.leave alive confirmable fun r out node there => .inr ⟨out, ongoing ▸ there,
      fun ptr _ => congrFun states ptr⟩, (waitsFor_congr ongoing states).trans (nobody ?_), env⟩
    by_contra user
    exact con (waits user).1

/-- A transaction with a new message id, for a message that nobody waits for yet. -/
theorem Attended.numbered (attended : Attended ∅ ctx) (addr : A) :
    Attended ∅ (coapNewTransaction (coapGetMid ctx).1 addr (coapGetMid ctx).2).2 := by
  obtain ⟨alive, -, -⟩ := attended.alive.numberedTransaction addr
  have allocated : Allocated (coapGetMid ctx).2 := attended.alive.tidy.allocated.withEnv _
  have confirmable : AllConfirmable (coapGetMid ctx).2 := attended.confirmable
  refine attended.leave alive ?_ fun r out node there => .inr ⟨out, there, fun _ _ => rfl⟩
  exact confirmable.update (coapNewTransaction_at allocated _ addr) fun one isNew => by
    rw [← some.inj isNew]

/-- The state of a new transfer, with its first transaction. -/
def startTransfer (addr : A) (state : RequestState U) (ctx : ClientContext A U) :
    ClientContext A U :=
  storeState (state.withTransaction (ctx.nextPtr + 1))
    (coapNewTransaction (coapGetMid ctx).1 addr (newState state (coapGetMid ctx).2)).2

theorem stateAt_startTransfer (alive : Alive ∅ ctx) (here : state.ptr = ctx.nextPtr) (addr : A) :
    stateAt (startTransfer addr state ctx) =
      Function.update (stateAt ctx) state.ptr (some (state.withTransaction (ctx.nextPtr + 1))) := by
  have fresh : entryAt RequestState.ptr ctx.env.states state.ptr = none := by
    cases found : entryAt RequestState.ptr ctx.env.states state.ptr with
    | none => rfl
    | some old => exact absurd (here ▸ alive.stored _ old found) (Nat.lt_irrefl _)
  have appended :
    stateAt (coapNewTransaction (coapGetMid ctx).1 addr (newState state (coapGetMid ctx).2)).2 =
    Function.update (stateAt ctx) state.ptr (some state) := entryAt_append state fresh
  have samePtr : (state.withTransaction (ctx.nextPtr + 1)).ptr = state.ptr := rfl
  rw [startTransfer, stateAt_storeState, samePtr, appended, Function.update_self, map_some,
    Function.update_idem]

/-- A new transfer is nobody's yet. -/
theorem Attended.starts (attended : Attended ∅ ctx) (here : state.ptr = ctx.nextPtr) (addr : A) :
    Attended ∅ (startTransfer addr state ctx) ∧
    waitsFor (startTransfer addr state ctx) = waitsFor ctx := by
  have numbered : Alive ∅ (coapGetMid ctx).2 := attended.alive.sameStates rfl
  obtain ⟨made, -, -, spare⟩ := numbered.newTransfer state here (coapGetMid ctx).1 addr rfl
  have alive : Alive ∅ (startTransfer addr state ctx) := made.storeState spare
  have states := stateAt_startTransfer attended.alive here addr
  have spareBefore : Spare ∅ state.ptr ctx := here ▸ attended.alive.spare_fresh
  have ongoing : (startTransfer addr state ctx).ongoingAt = ctx.ongoingAt := rfl
  have stored : Allocated (newState state (coapGetMid ctx).2) :=
    (numbered.newState here).tidy.allocated
  have confirmable : AllConfirmable (newState state (coapGetMid ctx).2) := attended.confirmable
  refine ⟨attended.leave alive ?_ fun r out node there => .inr
    ⟨out, there, spareBefore.elsewhere states out there⟩, ?_⟩
  · exact confirmable.update (coapNewTransaction_at stored _ addr) fun one isNew => by
      rw [← some.inj isNew]
  · funext r
    exact waitsFor_of_spare spareBefore ongoing states (Set.notMem_empty r)

theorem Attended.coapNonblockingPut (attended : Attended ∅ ctx)
    (unobserved : request.isOption .observe = false)
    (asks : user ≠ none → request.type = .con ∧ request.token.bytes.length ≠ 0)
    (puts : coapNonblockingPut addr request user ctx = some after) :
    Attended ∅ after ∧ Joins user ctx after := by
  have alive := attended.alive.coapNonblockingPut puts
  unfold Coap.coapNonblockingPut at puts
  simp only at puts
  split at puts
  · obtain ⟨packed, packs, sends⟩ := bind_eq_some_iff.mp puts
    obtain ⟨made, fresh, -⟩ := attended.alive.numberedTransaction addr
    let message : Packet := { request with mid := (coapGetMid ctx).1 }
    have armed : Armed ctx.nextPtr message message
        (.user user) _ (coapSetResponseHandler ctx.nextPtr message (.user user) packed) :=
      armed_last made.tidy made.retries fresh packs
    obtain ⟨attendedSent, waits, env⟩ := armed.launches (attended.numbered addr) alive sends
      (fun token con => ⟨unobserved, fun ptr owner => by cases owner⟩) asks
    have called : after.env.called = ctx.env.called := (congrArg ClientEnv.called env).trans rfl
    exact ⟨attendedSent,
      ⟨_, waitsFor_free attended.alive.tidy.allocated (Nat.le_succ _), waits⟩, called⟩
  · obtain ⟨packed, packs, sends⟩ := bind_eq_some_iff.mp puts
    let whole : Packet := { request with mid := (coapGetMid ctx).1, type := .con }
    let state : RequestState U := ⟨ctx.nextPtr, none, whole, user, 0, 1024⟩
    obtain ⟨started, same⟩ := @Attended.starts _ _ ctx state attended rfl addr
    have numbered : Alive ∅ (coapGetMid ctx).2 := attended.alive.sameStates rfl
    obtain ⟨-, fresh, -, -⟩ := numbered.newTransfer state rfl (coapGetMid ctx).1 addr rfl
    have packs : setTransactionPacket (ctx.nextPtr + 1) (firstPutBlock whole)
      (startTransfer addr state ctx) = some packed := packs
    have freshStarted : Fresh (ctx.nextPtr + 1) (startTransfer addr state ctx) := fresh
    have armed : Armed (ctx.nextPtr + 1) (firstPutBlock whole) (firstPutBlock whole)
        (.put state.ptr) (startTransfer addr state ctx)
        (coapSetResponseHandler (ctx.nextPtr + 1) (firstPutBlock whole) (.put state.ptr) packed) :=
      armed_last started.alive.tidy started.alive.retries freshStarted packs
    have stored : stateAt (startTransfer addr state ctx) state.ptr =
        some (state.withTransaction (ctx.nextPtr + 1)) := by
      rw [stateAt_startTransfer attended.alive rfl, Function.update_self]
    have isUser :
      userOf (startTransfer addr state ctx) (.put state.ptr) = user := by rw [userOf, stored]; rfl
    have persistent (token : whole.token.bytes.length ≠ 0) : Persistent whole :=
      ⟨rfl, token, unobserved⟩
    obtain ⟨attendedSent, waits, env⟩ := armed.launches started alive sends
      (fun token _ => ⟨(persistent token).firstPutBlock.unobserved, fun ptr owner => by
        obtain rfl := some.inj owner
        exact ⟨_, stored, persistent token⟩⟩)
      (fun waiting => ⟨rfl, (asks (isUser ▸ waiting)).2⟩)
    rw [isUser, same] at waits
    have called : after.env.called = ctx.env.called := (congrArg ClientEnv.called env).trans rfl
    exact ⟨attendedSent, ⟨_, waitsFor_free attended.alive.tidy.allocated
      (Nat.le_add_right ctx.nextPtr 2), waits⟩, called⟩

theorem Attended.coapNonblockingGet (attended : Attended ∅ ctx) {blockNum : UInt32}
    (unobserved : request.isOption .observe = false)
    (asks : user ≠ none → request.type = .con ∧ request.token.bytes.length ≠ 0)
    (gets : coapNonblockingGet addr request user blockNum ctx = some after) :
    Attended ∅ after ∧ Joins user ctx after := by
  unfold Coap.coapNonblockingGet at gets
  simp only at gets
  obtain ⟨packed, packs, gets⟩ := bind_eq_some_iff.mp gets
  obtain ⟨sent, sends, rfl⟩ := map_eq_some_iff.mp gets
  let state : RequestState U := ⟨ctx.nextPtr, none, request, user, blockNum, 0⟩
  let message : Packet := { request with mid := (coapGetMid ctx).1 }
  obtain ⟨started, same⟩ := @Attended.starts _ _ ctx state attended rfl addr
  have numbered : Alive ∅ (coapGetMid ctx).2 := attended.alive.sameStates rfl
  obtain ⟨made, fresh, found, spare⟩ := numbered.newTransfer state rfl (coapGetMid ctx).1 addr rfl
  obtain ⟨aliveSent, -, spent⟩ := made.storeAndSend fresh (state.withTransaction (ctx.nextPtr + 1))
    found spare rfl rfl packs sends
  have packs : setTransactionPacket (ctx.nextPtr + 1) message
    (coapSetResponseHandler (ctx.nextPtr + 1) message (.request state.ptr)
    (startTransfer addr state ctx)) = some packed := packs
  have freshStarted : Fresh (ctx.nextPtr + 1) (startTransfer addr state ctx) := fresh
  have armed := armed_first started.alive.tidy started.alive.retries freshStarted packs
  have stored : stateAt (startTransfer addr state ctx) state.ptr =
      some (state.withTransaction (ctx.nextPtr + 1)) := by
    rw [stateAt_startTransfer attended.alive rfl, Function.update_self]
  have isUser :
    userOf (startTransfer addr state ctx) (.request state.ptr) = user := by rw [userOf, stored]; rfl
  obtain ⟨attendedSent, waits, env⟩ := armed.launches started aliveSent sends
    (fun token con => ⟨unobserved, fun ptr owner => by
      obtain rfl := some.inj owner
      exact ⟨_, stored, con, token, unobserved⟩⟩)
    (fun waiting => asks (isUser ▸ waiting))
  rw [isUser, same] at waits
  have called : sent.env.called = ctx.env.called := (congrArg ClientEnv.called env).trans rfl
  have joins : Joins user ctx sent :=
    ⟨⟨_, waitsFor_free attended.alive.tidy.allocated (Nat.le_add_right ctx.nextPtr 2),
      waits⟩, called⟩
  split
  · rename_i gone
    have spareSent : Spare ∅ state.ptr sent := spent (isNone_iff_eq_none.mp gone)
    have states := stateAt_freeBlockwiseState state sent
    refine ⟨attendedSent.leave (aliveSent.freeBlockwiseState spareSent) attendedSent.confirmable
      fun r out node there =>
      .inr ⟨out, there, spareSent.elsewhere states out there⟩, ?_, called⟩
    obtain ⟨fresh, free, waits⟩ := joins.waits
    refine ⟨fresh, free, Eq.trans ?_ waits⟩
    funext r
    exact waitsFor_of_spare spareSent rfl states (Set.notMem_empty r)
  · exact ⟨attendedSent, joins⟩

/-- A request joins those who wait, if a user is given. -/
theorem Attended.coapNonblockingRequest (attended : Attended ∅ ctx)
    (unobserved : request.isOption .observe = false)
    (requests : coapNonblockingRequest addr request user ctx = some after) :
    Attended ∅ after ∧ Joins user ctx after := by
  unfold Coap.coapNonblockingRequest at requests
  cases user with
  | none =>
    have asks : (none : Option U) ≠ none → request.type = .con ∧ request.token.bytes.length ≠ 0 :=
      fun some => absurd rfl some
    simp only [isSome_none, Bool.false_eq_true, if_false] at requests
    split at requests
    · exact attended.coapNonblockingGet unobserved asks requests
    · exact attended.coapNonblockingPut unobserved asks requests
  | some waiting =>
    simp only [isSome_some, if_true] at requests
    by_cases token : request.token.bytes.length = 0
    · rw [if_pos token] at requests
      have asks : some waiting ≠ none →
          (coapSetToken (midBytes request.mid) { request with type := .con }).type = .con ∧
          (coapSetToken (midBytes request.mid)
          { request with type := .con }).token.bytes.length ≠ 0 :=
          fun _ => ⟨rfl, Nat.succ_ne_zero 1⟩
      have asked : (coapSetToken (midBytes request.mid) { request with type := .con }).isOption
        .observe = false := unobserved
      split at requests
      · exact attended.coapNonblockingGet asked asks requests
      · exact attended.coapNonblockingPut asked asks requests
    · rw [if_neg token] at requests
      have asked : ({ request with type := .con } : Packet).isOption .observe = false := unobserved
      split at requests
      · exact attended.coapNonblockingGet asked (fun _ => ⟨rfl, token⟩) requests
      · exact attended.coapNonblockingPut asked (fun _ => ⟨rfl, token⟩) requests

/-- A client that has done nothing yet serves everybody who waits. -/
theorem attended_new (mid : UInt16) :
    Attended ∅ (coapContextNew ⟨mid, [], []⟩ : ClientContext A U) where
  alive := alive_new _ rfl
  confirmable t node found := by cases found
  tended r _ request there := by cases there

end Requests

end Idrm.Coap
