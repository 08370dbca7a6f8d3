import Idrm.Coap.TransferSteps
import Idrm.Coap.Waiters

/-!
# A download ends once

The user of `coap_nonblocking_get` is to take a download for ended when its callback is called
with nothing, or with a response whose more flag is clear. A confirmable download keeps its
state until then, and a call after that finds no state to come from.

A request that is not confirmable is sent once, and its state goes at once with no call; the
comment at `coap_nonblocking_request` asks for no callback there.
-/

namespace Idrm.Coap

open Idrm.Lib Function Option List

variable {A U : Type} {ctx after : ClientContext A U} {state : RequestState U} {ptr : Nat}
  {stops : Stops U}
  {event : ClientEvent A U}

/-! ## Calls of a download -/

/-- A call that tells a user that the download has ended. -/
def Terminal : Option Packet → Prop
  | none => True
  | some response => ((coapGetHeaderBlock2 response).getD .zero).more = false

/-- A callback is to end its download: with nothing, a reset, or a block that is the last. -/
def Final : Option Packet → Prop
  | none => True
  | some response => response.type = .rst ∨ ((coapGetHeaderBlock2 response).getD .zero).more = false

/-- Of the calls the last one is terminal, and no other. -/
def EndedOnce (calls : List (Option Packet)) : Prop :=
  ∃ front last, calls = front ++ [last] ∧ Terminal last ∧ ∀ call ∈ front, ¬ Terminal call

/-- A download with a state has not told its end; one without has, once and at last. -/
structure Reports (calls : List (Option Packet)) (entry : Option (RequestState U)) : Prop where
  pending : entry ≠ none → ∀ call ∈ calls, ¬ Terminal call
  ended : entry = none → EndedOnce calls

/-- The download whose callback an event runs. -/
def ClientEvent.download (event : ClientEvent A U) (ctx : ClientContext A U) : Option Nat :=
  (event.called ctx).bind fun r =>
    match r.callback with
    | .request ptr => some ptr
    | _ => none

/-- What an event calls the user of a download with. -/
def ClientEvent.calls (event : ClientEvent A U) (stops : Stops U) (ptr : Nat)
    (ctx : ClientContext A U) : List (Option Packet) :=
  if event.download ctx = some ptr then
    ((event.perform stops ctx).map fun after => (after.env.called.drop ctx.env.called.length).map
      Prod.snd).getD []
  else []

/-- The confirmable download that an event begins; it has a token, so that it can be answered. -/
def ClientEvent.begins (event : ClientEvent A U) (ctx : ClientContext A U) : Option Nat :=
  match event with
  | .get _ request _ _ => if request.type = .con ∧ request.token.bytes.length ≠ 0 then
      some ctx.nextPtr else none
  | _ => none

/-- The confirmable downloads of a run. -/
def downloads (stops : Stops U) (events : List (ClientEvent A U))
    (start : ClientContext A U) : List Nat :=
  (visited (ClientEvent.perform stops) events start).filterMap fun visit => visit.2.begins visit.1

/-- What a run calls the user of a download with. -/
def callsTo (stops : Stops U) (ptr : Nat) (events : List (ClientEvent A U))
    (start : ClientContext A U) : List (Option Packet) :=
  (visited (ClientEvent.perform stops) events start).flatMap fun visit =>
    visit.2.calls stops ptr visit.1

/-- The state of the download that an event brings a response for. -/
def ClientEvent.getAnswered (event : ClientEvent A U) (ctx : ClientContext A U) :
    Option (RequestState U × Packet) :=
  (event.download ctx).bind fun ptr => (stateAt ctx ptr).bind fun state => event.response.map
    fun response => (state, response)

/-- A block without more to come was not asked for, or the user stops at it. -/
def BreaksOff (stops : Stops U) (ctx : ClientContext A U) (state : RequestState U)
    (response : Packet) : Prop :=
  response.type ≠ .rst ∧ ((coapGetHeaderBlock2 response).getD .zero).more = false ∧
    (((coapGetHeaderBlock2 response).getD .zero).num = state.blockNum → (state.responseCallback.any
    fun callback => stops (ctx.env.called ++ [(callback, some response)])) = true)

instance (stops : Stops U) (ctx : ClientContext A U) (state : RequestState U) (response : Packet) :
    Decidable (BreaksOff stops ctx state response) :=
  inferInstanceAs (Decidable (_ ∧ _ ∧ (_ → _)))

/-- No download is broken off. -/
def EndsPlainly (stops : Stops U) (ctx : ClientContext A U) (event : ClientEvent A U) : Prop :=
  ∀ answered ∈ event.getAnswered ctx, ¬ BreaksOff stops ctx answered.1 answered.2

instance (stops : Stops U) (ctx : ClientContext A U) (event : ClientEvent A U) :
    Decidable (EndsPlainly stops ctx event) :=
  inferInstanceAs (Decidable (∀ _ ∈ _, ¬ BreaksOff _ _ _ _))

/-- A last block is the one that was asked for, and the user does not stop at it. -/
theorem EndsPlainly.last {response : Packet} (plain : EndsPlainly stops ctx event)
    (isDownload : event.download ctx = some ptr) (found : stateAt ctx ptr = some state)
    (isResponse : event.response = some response) (noReset : response.type ≠ .rst)
    (last : ((coapGetHeaderBlock2 response).getD .zero).more = false) :
    ((coapGetHeaderBlock2 response).getD .zero).num = state.blockNum ∧
    ∀ callback, state.responseCallback = some callback →
    stops (ctx.env.called ++ [(callback, some response)]) = false := by
  have isAnswered : event.getAnswered ctx = some (state, response) := by
    rw [ClientEvent.getAnswered, isDownload, bind_some, found, bind_some, isResponse, map_some]
  have kept := plain _ isAnswered
  constructor
  · by_contra unasked
    exact kept ⟨noReset, last, fun same => absurd same unasked⟩
  · intro callback isCallback
    cases stop : stops (ctx.env.called ++ [(callback, some response)]) with
    | false => rfl
    | true =>
      refine absurd ⟨noReset, last, fun _ => ?_⟩ kept
      rw [isCallback, any_some]
      exact stop

/-! ## Other states -/

section Others

variable {stored : RequestState U} {addr : A} {request : Packet} {user : Option U}
  {middle : ClientContext A U}

theorem Frees.stateAt (frees : Frees ctx after) : Coap.stateAt after = Coap.stateAt ctx :=
  stateAt_of_env frees.leaves.env

/-- A state is stored and its message sent for the first time; nobody is called. -/
theorem storeAndSend_env {t : Nat} {type : CoapMessageType} {message : Packet}
    {callback : ClientCallback U} {packed sent : ClientContext A U} (packs : setTransactionPacket t
      message (coapSetResponseHandler t request callback (storeState stored middle)) = some packed)
    (sends : sendTransactionAt t packed = some sent) (ready : Ready middle)
    (unsent : Unsent t type middle) : sent.env = (storeState stored middle).env ∧
    (message.type = .con → (sent.transactionAt t).isSome = true) := by
  have kept : Ready (storeState stored middle) := ⟨ready.below, ready.retries⟩
  have unsentKept : Unsent t type (storeState stored middle) := unsent
  have readyPacked :=
    (less_setTransactionPacket packs).ready (kept.setResponseHandler t request callback)
  obtain ⟨frees, stays⟩ :=
    ((unsentKept.handler request callback).packed packs).sent readyPacked sends
  exact ⟨frees.leaves.env.trans
    ((setTransactionPacket_env packs).trans (coapSetResponseHandler_env ..)), stays⟩

/-- A transaction with a new message id. -/
theorem Ready.numbered (ready : Ready ctx) (addr : A) :
    Ready (coapNewTransaction (coapGetMid ctx).1 addr (coapGetMid ctx).2).2 ∧
    Unsent ctx.nextPtr .con (coapNewTransaction (coapGetMid ctx).1 addr (coapGetMid ctx).2).2 := by
  have numbered := (less_coapGetMid ctx).ready ready
  exact ⟨numbered.newTransaction _ addr, numbered.unsent _ addr⟩

/-- A new state and its transaction. -/
theorem newTransfer_ready (first : RequestState U) (mid : UInt16) (addr : A) (ready : Ready ctx)
    (here : first.ptr = ctx.nextPtr) : Ready (storeState (first.withTransaction (ctx.nextPtr + 1))
      (coapNewTransaction mid addr (newState first ctx)).2) ∧
    Unsent (ctx.nextPtr + 1) .con (storeState (first.withTransaction (ctx.nextPtr + 1))
      (coapNewTransaction mid addr (newState first ctx)).2) ∧
    (∀ ptr, ptr ≠ ctx.nextPtr → stateAt (storeState (first.withTransaction (ctx.nextPtr + 1))
      (coapNewTransaction mid addr (newState first ctx)).2) ptr = stateAt ctx ptr) ∧
    stateAt (storeState (first.withTransaction (ctx.nextPtr + 1))
      (coapNewTransaction mid addr (newState first ctx)).2) ctx.nextPtr ≠ none := by
  have grown : Ready (newState first ctx) :=
    ⟨fun t member => Nat.lt_succ_of_lt (ready.below t member), ready.retries⟩
  have made := grown.newTransaction mid addr
  refine ⟨⟨made.below, made.retries⟩, grown.unsent mid addr, fun ptr other => ?_, ?_⟩
  · have elsewhere : ptr ≠ (first.withTransaction (ctx.nextPtr + 1)).ptr := by
      intro same
      exact other (same.trans here)
    rw [stateAt_storeState, update_of_ne elsewhere]
    change (ctx.env.states ++ [first]).find? _ = ctx.env.states.find? _
    have notHere : first.ptr ≠ ptr := fun same => other (same.symm.trans here)
    rw [List.find?_append, List.find?_singleton, if_neg (by simpa using notHere), or_none]
  · have own : ctx.nextPtr = (first.withTransaction (ctx.nextPtr + 1)).ptr := here.symm
    rw [stateAt_storeState, update_apply, if_pos own, Ne, map_eq_none_iff]
    change (ctx.env.states ++ [first]).find? (fun state => state.ptr = first.ptr) ≠ none
    intro absent
    have notNew :=
      List.find?_eq_none.mp absent first (mem_append_right _ (mem_singleton_self first))
    exact notNew (decide_eq_true rfl)

/-- A download that goes on calls nobody. -/
theorem continueRequest_env (ready : Ready ctx) (goes : continueRequest state ctx = some after) :
    after.env.called = ctx.env.called ∧ ∃ stored, stateAt after =
      update (stateAt ctx) state.ptr ((stateAt ctx state.ptr).map fun _ => stored) := by
  obtain ⟨old, -, goes⟩ := bind_eq_some_iff.mp goes
  obtain ⟨packed, packs, sends⟩ := bind_eq_some_iff.mp goes
  rw [storeState_setResponseHandler] at packs
  obtain ⟨readyMade, unsent⟩ := ready.numbered old.addr
  have env := (storeAndSend_env packs sends readyMade unsent).1
  have states := stateAt_of_env env
  rw [stateAt_storeState] at states
  refine ⟨?_, _, states⟩
  rw [env]
  rfl

/-- An upload that goes on leaves other states alone. -/
theorem continuePut_others (ready : Ready ctx) (goes : continuePut state ctx = some after)
    (other : ptr ≠ state.ptr) : stateAt after ptr = stateAt ctx ptr := by
  obtain ⟨old, -, goes⟩ := bind_eq_some_iff.mp goes
  obtain ⟨message, -, goes⟩ := bind_eq_some_iff.mp goes
  obtain ⟨packed, packs, goes⟩ := bind_eq_some_iff.mp goes
  obtain ⟨sent, sends, rfl⟩ := map_eq_some_iff.mp goes
  obtain ⟨readyMade, unsent⟩ := ready.numbered old.addr
  have env := (storeAndSend_env packs sends readyMade unsent).1
  let renewed := state.renew (coapGetMid ctx).1 ctx.nextPtr
  have elsewhere : ptr ≠ renewed.ptr := other
  have same : stateAt sent ptr = stateAt ctx ptr := by
    rw [stateAt_of_env env, stateAt_storeState]
    exact update_of_ne elsewhere ..
  split
  · obtain ⟨calls, noted⟩ := callIfSet_withCalled renewed.responseCallback none sent
    change stateAt (cleanupPut renewed sent) ptr = _
    rw [cleanupPut, noted, stateAt_freeBlockwiseState, update_of_ne elsewhere]
    exact same
  · exact same

/-- A new upload leaves the states alone that are there. -/
theorem coapNonblockingPut_others (ready : Ready ctx)
    (puts : coapNonblockingPut addr request user ctx = some after)
    (other : ptr ≠ ctx.nextPtr) : stateAt after ptr = stateAt ctx ptr := by
  unfold coapNonblockingPut at puts
  simp only at puts
  split at puts
  · obtain ⟨packed, packs, sends⟩ := bind_eq_some_iff.mp puts
    obtain ⟨readyMade, unsent⟩ := ready.numbered addr
    have readyPacked := (less_setTransactionPacket packs).ready readyMade
    have frees :=
      (((unsent.packed packs).handler _ _).sent (readyPacked.setResponseHandler _ _ _) sends).1
    have env := frees.leaves.env.trans
      ((coapSetResponseHandler_env ..).trans (setTransactionPacket_env packs))
    rw [stateAt_of_env env]
    rfl
  · obtain ⟨packed, packs, sends⟩ := bind_eq_some_iff.mp puts
    let first : RequestState U :=
      ⟨ctx.nextPtr, none, { request with mid := (coapGetMid ctx).1, type := .con }, user, 0, 1024⟩
    obtain ⟨readyMade, unsent, states, -⟩ :=
      newTransfer_ready first (coapGetMid ctx).1 addr ((less_coapGetMid ctx).ready ready) rfl
    have readyPacked := (less_setTransactionPacket packs).ready readyMade
    have frees :=
      (((unsent.packed packs).handler _ _).sent (readyPacked.setResponseHandler _ _ _) sends).1
    have env := frees.leaves.env.trans
      ((coapSetResponseHandler_env ..).trans (setTransactionPacket_env packs))
    rw [stateAt_of_env env]
    exact states ptr other

/-- So does a new download; a confirmable one has its state then. -/
theorem coapNonblockingGet_others {blockNum : UInt32} (ready : Ready ctx)
    (gets : coapNonblockingGet addr request user blockNum ctx = some after) :
    (∀ ptr, ptr ≠ ctx.nextPtr → stateAt after ptr = stateAt ctx ptr) ∧
    (request.type = .con → stateAt after ctx.nextPtr ≠ none) := by
  unfold coapNonblockingGet at gets
  simp only at gets
  obtain ⟨packed, packs, gets⟩ := bind_eq_some_iff.mp gets
  obtain ⟨sent, sends, rfl⟩ := map_eq_some_iff.mp gets
  let first : RequestState U := ⟨ctx.nextPtr, none, request, user, blockNum, 0⟩
  obtain ⟨readyMade, unsent, states, live⟩ :=
    newTransfer_ready first (coapGetMid ctx).1 addr ((less_coapGetMid ctx).ready ready) rfl
  obtain ⟨env, stays⟩ := storeAndSend_env packs sends ⟨readyMade.below, readyMade.retries⟩ unsent
  have others : ∀ ptr, ptr ≠ ctx.nextPtr → stateAt sent ptr = stateAt ctx ptr := by
    intro ptr other
    rw [stateAt_of_env env]
    exact states ptr other
  constructor
  · intro ptr other
    split
    · change stateAt (freeBlockwiseState first sent) ptr = _
      have elsewhere : ptr ≠ first.ptr := other
      rw [stateAt_freeBlockwiseState, update_of_ne elsewhere]
      exact others ptr other
    · exact others ptr other
  · intro con
    have still : (sent.transactionAt (ctx.nextPtr + 1)).isNone = false := by
      rw [isNone_eq_false_iff]
      exact stays con
    have notGone : ¬ (sent.transactionAt (ctx.nextPtr + 1)).isNone = true :=
      Bool.eq_false_iff.mp still
    change stateAt (if (sent.transactionAt (ctx.nextPtr + 1)).isNone = true then _ else sent)
      ctx.nextPtr ≠ none
    rw [if_neg notGone, stateAt_of_env env]
    exact live

end Others

/-! ## The callback of a download -/

/-- What an event does for the download whose callback it runs. -/
inductive Outcome (response : Option Packet) (ptr : Nat) (ctx after : ClientContext A U) : Prop
  | ended (calls : List (U × Option Packet)) : stateAt after = update (stateAt ctx) ptr none →
      after.env.called = ctx.env.called ++ calls → EndedOnce (calls.map Prod.snd) →
      Outcome response ptr ctx after
  | goesOn (stored : RequestState U) (calls : List (U × Option Packet)) : ¬ Final response →
      stateAt after = update (stateAt ctx) ptr (some stored) →
      after.env.called = ctx.env.called ++ calls → (∀ call ∈ calls.map Prod.snd, ¬ Terminal call) →
      Outcome response ptr ctx after

section Callback

variable {middle : ClientContext A U} {value : Option Packet}

/-- A single call at the end. -/
theorem endedOnce_single {last : Option Packet} (terminal : Terminal last) : EndedOnce [last] :=
  ⟨[], last, rfl, terminal, fun _ member => absurd member not_mem_nil⟩

theorem EndedOnce.behind {front calls : List (Option Packet)} (ended : EndedOnce calls)
    (before : ∀ call ∈ front, ¬ Terminal call) : EndedOnce (front ++ calls) := by
  obtain ⟨middle, last, rfl, terminal, others⟩ := ended
  refine ⟨front ++ middle, last, (append_assoc ..).symm, terminal, fun call member => ?_⟩
  rcases mem_append.mp member with early | late
  · exact before call early
  · exact others call late

theorem Outcome.congr (outcome : Outcome value ptr ctx middle) (env : after.env = middle.env) :
    Outcome value ptr ctx after := by
  have states := stateAt_of_env env
  cases outcome with
  | ended calls same called once =>
    exact .ended calls (states.trans same) ((congrArg ClientEnv.called env).trans called) once
  | goesOn stored calls further same called none =>
    exact .goesOn stored calls further (states.trans same)
      ((congrArg ClientEnv.called env).trans called) none

theorem cleanupRequest_ended {calls : List (U × Option Packet)}
    (front : ∀ call ∈ calls.map Prod.snd, ¬ Terminal call)
    (cleans : cleanupRequest state (withCalled (ctx.env.called ++ calls) ctx) = some after) :
    Outcome value state.ptr ctx after := by
  obtain ⟨callback, -, rfl⟩ := map_eq_some_iff.mp cleans
  refine .ended (calls ++ [(callback, none)]) ?_ (append_assoc ..) ?_
  · exact stateAt_freeBlockwiseState state _
  · rw [map_append]
    have told : Terminal none := trivial
    exact (endedOnce_single told).behind front

/-- A callback that goes on asks for a block that is still to come. -/
theorem continueRequest_goesOn {calls : List (U × Option Packet)}
    (ready : Ready ctx) (further : ¬ Final value) {going : RequestState U}
    (here : going.ptr = state.ptr) (found : stateAt ctx state.ptr = some state)
    (front : ∀ call ∈ calls.map Prod.snd, ¬ Terminal call)
    (goes : continueRequest going (withCalled (ctx.env.called ++ calls) ctx) = some after) :
    Outcome value state.ptr ctx after := by
  have readyCalled : Ready (withCalled (ctx.env.called ++ calls) ctx) :=
    ⟨ready.below, ready.retries⟩
  obtain ⟨called, stored, states⟩ := continueRequest_env readyCalled goes
  have foundCalled :
    stateAt (withCalled (ctx.env.called ++ calls) ctx) state.ptr = some state := found
  rw [here, foundCalled] at states
  exact .goesOn stored calls further states called front

/-- The callback of a download tells its end when the state goes, and only then. -/
theorem requestCallback_outcome (ready : Ready ctx) (found : stateAt ctx state.ptr = some state)
    (plain : ∀ response, event.response = some response → response.type ≠ .rst →
      ((coapGetHeaderBlock2 response).getD .zero).more = false →
      ((coapGetHeaderBlock2 response).getD .zero).num = state.blockNum ∧
      ∀ callback, state.responseCallback = some callback →
      stops (ctx.env.called ++ [(callback, some response)]) = false)
    (runs : coapNonblockingRequestCallback stops state.ptr event.response ctx = some after) :
    Outcome event.response state.ptr ctx after := by
  have silent : ctx = withCalled (ctx.env.called ++ []) ctx := by
    rw [append_nil]
    rfl
  have none_called : ∀ call ∈ ([] : List (U × Option Packet)).map Prod.snd, ¬ Terminal call :=
    fun _ member => absurd member not_mem_nil
  unfold coapNonblockingRequestCallback at runs
  rw [found, bind_some] at runs
  cases isResponse : event.response with
  | none =>
    rw [isResponse, silent] at runs
    exact cleanupRequest_ended none_called runs
  | some response =>
    simp only [isResponse] at runs
    by_cases reset : response.type = .rst
    · rw [if_pos reset, silent] at runs
      exact cleanupRequest_ended none_called runs
    rw [if_neg reset] at runs
    have plain := plain response isResponse reset
    have further (more : ¬ ((coapGetHeaderBlock2 response).getD .zero).more = false) :
        ¬ Final (some response) := by
      rintro (isReset | last)
      · exact reset isReset
      · exact more last
    by_cases asked : ((coapGetHeaderBlock2 response).getD .zero).num = state.blockNum
    · rw [if_pos asked] at runs
      obtain ⟨callback, isCallback, runs⟩ := bind_eq_some_iff.mp runs
      cases more : ((coapGetHeaderBlock2 response).getD .zero).more with
      | false =>
        -- the last block: the user does not stop at it
        have goes := (plain more).2 callback isCallback
        have unstopped : ¬ stops (callUser callback (some response) ctx).env.called = true := by
          intro stopped
          exact Bool.false_ne_true (goes.symm.trans stopped)
        rw [if_neg unstopped, if_pos more] at runs
        obtain rfl := some.inj runs
        refine .ended [(callback, some response)] ?_ rfl (endedOnce_single more)
        exact stateAt_freeBlockwiseState state (callUser callback (some response) ctx)
      | true =>
        have open_called : ∀ call ∈ [(callback, some response)].map Prod.snd, ¬ Terminal call := by
          intro call member last
          obtain rfl := mem_singleton.mp member
          exact Bool.false_ne_true (last.symm.trans more)
        have noted : callUser callback (some response) ctx = withCalled
          (ctx.env.called ++ [(callback, some response)]) ctx := rfl
        rw [noted] at runs
        split at runs
        · exact cleanupRequest_ended open_called runs
        · have unfinished : ¬ ((coapGetHeaderBlock2 response).getD .zero).more = false :=
            fun last => Bool.false_ne_true (last.symm.trans more)
          rw [if_neg unfinished] at runs
          have here :
            ({ state with blockNum := state.blockNum + 1 } : RequestState U).ptr = state.ptr := rfl
          exact continueRequest_goesOn ready (further unfinished) here found open_called runs
    · rw [if_neg asked] at runs
      split at runs
      · rename_i last
        exact absurd (plain last).1 asked
      · rename_i unfinished
        rw [silent] at runs
        exact continueRequest_goesOn ready (further unfinished) rfl found none_called runs

end Callback

/-! ## Runs -/

/-- The confirmable downloads of a client report, and no callback of an upload leads to their
states. -/
structure Reported (calls : Nat → List (Option Packet)) (begun : List Nat)
    (ctx : ClientContext A U) : Prop where
  ready : Ready ctx
  older : ∀ ptr ∈ begun, ptr < ctx.nextPtr
  owners : ∀ r ∈ ctx.ongoingRequests, ∀ ptr, r.callback.stateOf = some ptr →
    ptr < ctx.nextPtr ∧ (ptr ∈ begun → r.callback = .request ptr)
  silent : ∀ ptr, ctx.nextPtr ≤ ptr → calls ptr = []
  reports : ∀ ptr ∈ begun, Reports (calls ptr) (stateAt ctx ptr)

section Runs

variable {calls : Nat → List (Option Packet)} {begun : List Nat}

theorem calls_of_download (other : event.download ctx ≠ some ptr) :
    event.calls stops ptr ctx = [] := if_neg other

theorem download_none (outgoing : ¬ event.Incoming) : event.download ctx = none := by
  cases event with
  | put addr request callback => rfl
  | get addr request callback blockNum => rfl
  | packet source message => exact absurd trivial outgoing
  | expire ptr => exact absurd trivial outgoing

theorem begins_incoming (incoming : event.Incoming) : event.begins ctx = none := by
  cases event with
  | put addr request callback => rfl
  | get addr request callback blockNum => cases incoming
  | packet source message => rfl
  | expire ptr => rfl

theorem download_request {r : OngoingRequest (ClientCallback U)}
    (called : event.called ctx = some r) (isCallback : r.callback = .request ptr) :
    event.download ctx = some ptr := by
  rw [ClientEvent.download, called, bind_some, isCallback]

theorem download_some (isDownload : event.download ctx = some ptr) :
    ∃ r, event.called ctx = some r ∧ r.callback = .request ptr := by
  obtain ⟨r, called, isOwner⟩ := bind_eq_some_iff.mp isDownload
  refine ⟨r, called, ?_⟩
  cases isCallback : r.callback with
  | user callback =>
    rw [isCallback] at isOwner
    cases isOwner
  | put own =>
    rw [isCallback] at isOwner
    cases isOwner
  | request own =>
    rw [isCallback] at isOwner
    rw [some.inj isOwner]

/-- An event that runs the callback of a download tells its end, or goes on. -/
theorem perform_outcome (ready : Ready ctx)
    (plain : EndsPlainly stops ctx event) (isDownload : event.download ctx = some ptr)
    (performs : event.perform stops ctx = some after) : Outcome event.response ptr ctx after := by
  have incoming : event.Incoming := by
    by_contra outgoing
    rw [download_none outgoing] at isDownload
    cases isDownload
  obtain ⟨called, -, runs, frees⟩ := ClientEvent.perform_called incoming performs
  obtain ⟨r, asked, isCallback⟩ := download_some isDownload
  have runs := runs r asked
  rw [isCallback] at runs
  obtain ⟨state, found, -⟩ := bind_eq_some_iff.mp runs
  have here : state.ptr = ptr := by simpa using List.find?_some found
  subst here
  have outcome := requestCallback_outcome ready found
    (fun response isResponse => plain.last isDownload found isResponse) runs
  exact outcome.congr frees.leaves.env

theorem calls_of_perform (isDownload : event.download ctx = some ptr)
    (performs : event.perform stops ctx = some after)
    {told : List (U × Option Packet)} (called : after.env.called = ctx.env.called ++ told) :
    event.calls stops ptr ctx = told.map Prod.snd := by
  rw [ClientEvent.calls, if_pos isDownload, performs, map_some, getD_some, called, drop_left]

/-- A call of the application begins at most one transfer, at the next address. -/
theorem Reported.begin (reported : Reported calls begun ctx)
    (fresh : Option Nat) (ready : Ready after) (grows : ctx.nextPtr ≤ after.nextPtr)
    (waits : ∀ r ∈ after.ongoingRequests, ∀ ptr, r.callback.stateOf = some ptr →
      (∃ old ∈ ctx.ongoingRequests, old.callback = r.callback) ∨
      ptr = ctx.nextPtr ∧ ctx.nextPtr < after.nextPtr ∧ (fresh ≠ none → r.callback = .request ptr))
    (others : ∀ ptr, ptr ≠ ctx.nextPtr → stateAt after ptr = stateAt ctx ptr)
    (begins : ∀ ptr, fresh = some ptr → ptr = ctx.nextPtr ∧ ctx.nextPtr < after.nextPtr ∧
      stateAt after ptr ≠ none) : Reported calls (begun ++ fresh.toList) after where
  ready := ready
  older := by
    intro ptr member
    rcases mem_append.mp member with old | new
    · exact Nat.lt_of_lt_of_le (reported.older ptr old) grows
    · obtain ⟨rfl, bound, -⟩ := begins ptr (mem_toList.mp new)
      exact bound
  owners := by
    intro r member ptr owner
    rcases waits r member ptr owner with ⟨old, oldMember, same⟩ | ⟨rfl, bound, kind⟩
    · rw [← same] at owner ⊢
      obtain ⟨bound, kind⟩ := reported.owners old oldMember ptr owner
      refine ⟨Nat.lt_of_lt_of_le bound grows, fun isBegun => kind ?_⟩
      rcases mem_append.mp isBegun with isOld | isNew
      · exact isOld
      · rw [(begins ptr (mem_toList.mp isNew)).1] at bound
        exact absurd bound (Nat.lt_irrefl _)
    · refine ⟨bound, fun isBegun => kind ?_⟩
      rcases mem_append.mp isBegun with isOld | isNew
      · exact absurd (reported.older _ isOld) (Nat.lt_irrefl _)
      · rw [mem_toList.mp isNew]
        exact some_ne_none _
  silent := fun ptr least => reported.silent ptr (Nat.le_trans grows least)
  reports := by
    intro ptr member
    rcases mem_append.mp member with old | new
    · rw [others ptr (Nat.ne_of_lt (reported.older ptr old))]
      exact reported.reports ptr old
    · obtain ⟨rfl, -, live⟩ := begins ptr (mem_toList.mp new)
      rw [reported.silent ctx.nextPtr (Nat.le_refl _)]
      exact ⟨fun _ call none => absurd none not_mem_nil, fun gone => absurd gone live⟩

/-- A callback that is run leaves other downloads alone, and tells the end of its own. -/
theorem Reported.reports_incoming (reported : Reported calls begun ctx)
    (plain : EndsPlainly stops ctx event)
    (incoming : event.Incoming) (performs : event.perform stops ctx = some after) :
    ∀ ptr ∈ begun, Reports (calls ptr ++ event.calls stops ptr ctx) (stateAt after ptr) := by
  obtain ⟨called, uncalled, runs, frees⟩ := ClientEvent.perform_called incoming performs
  intro ptr member
  have before := reported.reports ptr member
  have unchanged (same : stateAt called ptr = stateAt ctx ptr)
      (elsewhere : event.download ctx ≠ some ptr) :
      Reports (calls ptr ++ event.calls stops ptr ctx) (stateAt after ptr) := by
    rw [calls_of_download elsewhere, append_nil, frees.stateAt, same]
    exact before
  cases asked : event.called ctx with
  | none =>
    refine unchanged (by rw [uncalled asked]) ?_
    rw [ClientEvent.download, asked]
    exact fun same => by cases same
  | some r =>
    have runs := runs r asked
    have owner := reported.owners r (event.called_mem asked)
    have silent (notRequest : ∀ own, r.callback ≠ .request own) :
        event.download ctx ≠ some ptr := by
      intro isDownload
      obtain ⟨other, isOther, isCallback⟩ := download_some isDownload
      cases asked.symm.trans isOther
      exact notRequest ptr isCallback
    cases isCallback : r.callback with
    | user callback =>
      rw [isCallback] at runs
      cases runs
      obtain ⟨calls, noted⟩ := callIfSet_withCalled callback event.response ctx
      refine unchanged (by rw [noted]; rfl) (silent fun own isRequest => ?_)
      rw [isCallback] at isRequest
      cases isRequest
    | put own =>
      rw [isCallback] at runs
      have other : ptr ≠ own := by
        rintro rfl
        have kind := (owner ptr (by rw [isCallback]; rfl)).2 member
        rw [isCallback] at kind
        cases kind
      refine unchanged ?_ (silent fun own isRequest => ?_)
      · obtain ⟨state, found, -⟩ := bind_eq_some_iff.mp runs
        have here : state.ptr = own := by simpa using List.find?_some found
        subst here
        have runs : coapNonblockingPutCallback state.ptr event.response ctx = some called := runs
        rcases coapNonblockingPutCallback_cases found stops event.response with ⟨-, told, frees⟩ |
          ⟨-, goes⟩
        · cases runs.symm.trans frees
          rw [stateAt_freeBlockwiseState, update_of_ne other]
          rfl
        · exact continuePut_others reported.ready (goes.symm.trans runs) other
      · rw [isCallback] at isRequest
        cases isRequest
    | request own =>
      have isDownload := download_request asked isCallback
      have outcome := perform_outcome reported.ready plain isDownload performs
      by_cases other : ptr = own
      · subst other
        obtain ⟨state, found, -⟩ : ∃ state, stateAt ctx ptr = some state ∧ _ := by
          rw [isCallback] at runs
          exact bind_eq_some_iff.mp runs
        have live : stateAt ctx ptr ≠ none := found ▸ some_ne_none state
        cases outcome with
        | ended told same noted once =>
          rw [calls_of_perform isDownload performs noted, same, update_self]
          exact ⟨fun some => absurd rfl some, fun _ => once.behind (before.pending live)⟩
        | goesOn stored told further same noted open_called =>
          rw [calls_of_perform isDownload performs noted, same, update_self]
          refine ⟨fun _ call member => ?_, fun gone => by cases gone⟩
          rcases mem_append.mp member with early | late
          · exact before.pending live call early
          · exact open_called call late
      · have elsewhere : event.download ctx ≠ some ptr :=
          fun same => other (some.inj (same.symm.trans isDownload))
        rw [calls_of_download elsewhere, append_nil]
        cases outcome with
        | ended told same noted once =>
          rw [same, update_of_ne other]
          exact before
        | goesOn stored told further same noted open_called =>
          rw [same, update_of_ne other]
          exact before

theorem Reported.step (reported : Reported calls begun ctx) (plain : EndsPlainly stops ctx event)
    (performs : event.perform stops ctx = some after) :
    Reported (fun ptr => calls ptr ++ event.calls stops ptr ctx)
      (begun ++ (event.begins ctx).toList) after := by
  have effect := ClientEvent.perform_effect performs
  have quiet (outgoing : ¬ event.Incoming) :
      (fun ptr => calls ptr ++ event.calls stops ptr ctx) = calls := by
    funext ptr
    rw [calls_of_download (by rw [download_none outgoing]; exact fun same => by cases same),
      append_nil]
  have outside (incoming : event.Incoming) :
      Reported (fun ptr => calls ptr ++ event.calls stops ptr ctx)
      (begun ++ (event.begins ctx).toList) after := by
    rw [begins_incoming incoming, toList_none, append_nil]
    refine ⟨effect.ready reported.ready, fun ptr member => Nat.lt_of_lt_of_le
      (reported.older ptr member) effect.nextPtr, fun r member ptr owner => ?_, fun ptr least => ?_,
      reported.reports_incoming plain incoming performs⟩
    · obtain ⟨old, oldMember, same⟩ := effect.waits incoming r member ptr owner
      rw [← same] at owner ⊢
      exact (reported.owners old oldMember ptr owner).imp_left fun bound =>
        Nat.lt_of_lt_of_le bound effect.nextPtr
    · have free := Nat.le_trans effect.nextPtr least
      have elsewhere : event.download ctx ≠ some ptr := by
        intro isDownload
        obtain ⟨r, called, isCallback⟩ := download_some isDownload
        have owner : r.callback.stateOf = some ptr := by rw [isCallback]; rfl
        exact absurd (reported.owners r (event.called_mem called) ptr owner).1 (Nat.not_lt.mpr free)
      rw [reported.silent ptr free, calls_of_download elsewhere]
      rfl
  cases event with
  | put addr request callback =>
    rw [quiet id]
    refine reported.begin none (effect.ready reported.ready) effect.nextPtr
      (fun r member ptr owner => ?_)
      (fun ptr other => coapNonblockingPut_others reported.ready performs other)
      (fun ptr isSome => by cases isSome)
    rcases coapNonblockingPut_writes performs with less | ⟨stored, here, grows, -, writes⟩
    · exact .inl (less.waits r member ptr owner)
    · rcases writes.waits r member ptr owner with isNew | old
      · rw [isNew] at owner
        exact .inr ⟨(some.inj owner).symm.trans here, grows, fun some => absurd rfl some⟩
      · exact .inl old
  | get addr request callback blockNum =>
    rw [quiet id]
    obtain ⟨stored, here, grows, -, writes⟩ := coapNonblockingGet_writes performs
    obtain ⟨others, live⟩ := coapNonblockingGet_others reported.ready performs
    refine reported.begin _ (effect.ready reported.ready) effect.nextPtr
      (fun r member ptr owner => ?_) others fun ptr begins => ?_
    · rcases writes.waits r member ptr owner with isNew | old
      · rw [isNew] at owner
        have same := some.inj owner
        refine .inr ⟨same.symm.trans here, grows, fun _ => ?_⟩
        rw [isNew, same]
      · exact .inl old
    · obtain ⟨both, begins⟩ := ite_none_right_eq_some.mp begins
      obtain rfl := some.inj begins
      exact ⟨rfl, grows, live both.1⟩
  | packet source message => exact outside trivial
  | expire ptr => exact outside trivial

theorem callsTo_cons {rest : List (ClientEvent A U)} {next : ClientContext A U}
    (performs : event.perform stops ctx = some next) : callsTo stops ptr (event :: rest) ctx =
      event.calls stops ptr ctx ++ callsTo stops ptr rest next := by
  rw [callsTo, visited, performs, map_some, getD_some, flatMap_cons]
  rfl

theorem downloads_cons {rest : List (ClientEvent A U)} {next : ClientContext A U}
    (performs : event.perform stops ctx = some next) : downloads stops (event :: rest) ctx =
      (event.begins ctx).toList ++ downloads stops rest next := by
  rw [downloads, visited, performs, map_some, getD_some, filterMap_cons]
  cases event.begins ctx <;> rfl

theorem Reported.run {events : List (ClientEvent A U)} (reported : Reported calls begun ctx)
    (runs : RunsUnder (ClientEvent.perform stops) (EndsPlainly stops) ctx events after) :
    Reported (fun ptr => calls ptr ++ callsTo stops ptr events ctx)
    (begun ++ downloads stops events ctx) after := by
  induction runs generalizing calls begun with
  | done state =>
    have nothing : (fun ptr => calls ptr ++ callsTo stops ptr [] state) = calls :=
      funext fun ptr => append_nil _
    have none : begun ++ downloads stops [] state = begun := append_nil _
    rw [nothing, none]
    exact reported
  | call plain performs _ ih =>
    have later := ih (reported.step plain performs)
    simp only [downloads_cons performs, callsTo_cons performs, ← append_assoc]
    exact later

/-- Nothing is left of a download: no state has its address, and no request leads there. -/
structure Gone (ptr : Nat) (ctx : ClientContext A U) : Prop where
  older : ptr < ctx.nextPtr
  stateless : stateAt ctx ptr = none
  unwaited : ∀ r ∈ ctx.ongoingRequests, r.callback.stateOf ≠ some ptr

section Once

variable {addr : A} {request : Packet} {user : Option U} {blockNum : UInt32}

/-- A download that is gone does not come back, and nobody is called for it. -/
theorem Gone.step (gone : Gone ptr ctx) (performs : event.perform stops ctx = some after) :
    Gone ptr after ∧ event.calls stops ptr ctx = [] := by
  have effect := ClientEvent.perform_effect performs
  have elsewhere (other : RequestState U) (found : stateAt ctx other.ptr = some other) :
      ptr ≠ other.ptr := by
    intro same
    rw [← same, gone.stateless] at found
    cases found
  have inherited {r old : OngoingRequest (ClientCallback U)} (member : old ∈ ctx.ongoingRequests)
      (same : old.callback = r.callback) : r.callback.stateOf ≠ some ptr := by
    rw [← same]
    exact gone.unwaited old member
  constructor
  · refine ⟨Nat.lt_of_lt_of_le gone.older effect.nextPtr,
      eq_none_iff_forall_not_mem.mpr fun found isFound => ?_, fun r member owner => ?_⟩
    · have absent : stateAt ctx ptr ≠ some found := gone.stateless ▸ (some_ne_none found).symm
      cases effect with
      | less silent less => exact absent (less.states ptr found isFound)
      | begins stored callback outgoing silent here owner grows suits writes =>
        rcases writes.states ptr found isFound with old | new
        · exact absent old.2
        · exact absurd (new.1.trans here) (Nat.ne_of_lt gone.older)
      | uploads state sends there waits writes =>
        rcases writes.states ptr found isFound with old | new
        · exact absent old.2
        · exact elsewhere state there new.1
      | downloads state stored silent there waits same size writes =>
        rcases writes.states ptr found isFound with old | new
        · exact absent old.2
        · exact elsewhere state there (new.1.trans same)
    · cases effect with
      | less silent less =>
        obtain ⟨old, oldMember, same⟩ := less.waits r member ptr owner
        exact inherited oldMember same owner
      | begins stored callback outgoing silent here isOwner grows suits writes =>
        rcases writes.waits r member ptr owner with isNew | ⟨old, oldMember, same⟩
        · rw [isNew, isOwner] at owner
          exact absurd ((some.inj owner).symm.trans here) (Nat.ne_of_lt gone.older)
        · exact inherited oldMember same owner
      | uploads state sends there waits writes =>
        rcases writes.waits r member ptr owner with isNew | ⟨old, oldMember, same⟩
        · rw [isNew] at owner
          exact elsewhere state there (some.inj owner).symm
        · exact inherited oldMember same owner
      | downloads state stored silent there waits same size writes =>
        rcases writes.waits r member ptr owner with isNew | ⟨old, oldMember, same⟩
        · rw [isNew] at owner
          exact elsewhere state there (some.inj owner).symm
        · exact inherited oldMember same owner
  · refine calls_of_download fun isDownload => ?_
    obtain ⟨r, called, isCallback⟩ := download_some isDownload
    exact gone.unwaited r (event.called_mem called) (by rw [isCallback]; rfl)

/-- So it is in a run, whatever its events are. -/
theorem Gone.run {events : List (ClientEvent A U)} {last : ClientContext A U} (gone : Gone ptr ctx)
    (runs : RunsUnder (ClientEvent.perform stops) (fun _ _ => True) ctx events last) :
    callsTo stops ptr events ctx = [] ∧ stateAt last ptr = none := by
  induction runs with
  | done state => exact ⟨rfl, gone.stateless⟩
  | call plain performs _ ih =>
    obtain ⟨still, silent⟩ := gone.step performs
    obtain ⟨quiet, stateless⟩ := ih still
    exact ⟨by rw [callsTo_cons performs, silent, quiet]; rfl, stateless⟩

/-- A transaction that ends sends nothing; it goes, and so does its request. -/
theorem endTransaction_clears (t : Transaction A) (ctx : ClientContext A U) :
    (endTransaction t ctx).txData = ctx.txData ∧
    (∀ other ∈ (endTransaction t ctx).transactions, other.ptr ≠ t.ptr) ∧
    ∀ r ∈ (endTransaction t ctx).ongoingRequests, t.ongoingRequest ≠ some r.ptr ∧
    ∃ old ∈ ctx.ongoingRequests, old.ptr = r.ptr ∧ old.callback = r.callback := by
  have clears (t : Transaction A) (ctx : ClientContext A U) :
      (coapClearTransaction t ctx).txData = ctx.txData ∧
      (∀ other ∈ (coapClearTransaction t ctx).transactions, other.ptr ≠ t.ptr) ∧
      ∀ r ∈ (coapClearTransaction t ctx).ongoingRequests, ∃ old ∈ ctx.ongoingRequests,
      old.ptr = r.ptr ∧ old.callback = r.callback := by
    unfold coapClearTransaction
    cases t.ongoingRequest with
    | none =>
      exact ⟨rfl, fun other member => of_decide_eq_true (mem_filter.mp member).2,
        fun r member => ⟨r, member, rfl, rfl⟩⟩
    | some request =>
      refine ⟨rfl, fun other member => of_decide_eq_true (mem_filter.mp member).2,
        fun r member => ?_⟩
      obtain ⟨old, oldMember, rfl⟩ := List.mem_map.mp member
      exact ⟨old, oldMember, by split <;> exact ⟨rfl, rfl⟩⟩
  unfold endTransaction
  split
  · rename_i unlinked
    obtain ⟨sent, others, requests⟩ := clears t ctx
    refine ⟨sent, others, fun r member => ⟨fun linked => ?_, requests r member⟩⟩
    obtain ⟨old, oldMember, samePtr, -⟩ := requests r member
    rw [linked] at unlinked
    exact List.find?_eq_none.mp unlinked old oldMember (decide_eq_true samePtr)
  · rename_i request found
    have freed : (freeOngoingRequest request ctx).txData = ctx.txData ∧
        (freeOngoingRequest request ctx).ongoingRequests = ctx.ongoingRequests.filter
        (·.ptr ≠ request.ptr) := by
      unfold freeOngoingRequest
      cases request.transaction <;> exact ⟨rfl, rfl⟩
    obtain ⟨sent, others, requests⟩ :=
      clears { t with ongoingRequest := none } (freeOngoingRequest request ctx)
    refine ⟨sent.trans freed.1, others, fun r member => ?_⟩
    obtain ⟨old, oldMember, samePtr, same⟩ := requests r member
    rw [freed.2] at oldMember
    have left := mem_filter.mp oldMember
    refine ⟨fun linked => ?_, old, left.1, samePtr, same⟩
    rw [linked] at found
    have here : request.ptr = r.ptr := by simpa using List.find?_some found
    exact of_decide_eq_true left.2 (samePtr.trans here.symm)

/-- A transaction before it is sent: it goes to an address, and whatever waits is its request or
older. -/
structure Launching (t base : Nat) (addr : A) (type : CoapMessageType) (packet : List UInt8)
    (ctx middle : ClientContext A U) : Prop where
  node : ∃ mid link, middle.transactionAt t = some ⟨t, mid, 0, addr, type, packet, link⟩ ∧
    ∀ r ∈ middle.ongoingRequests, link = some r.ptr ∨ r ∈ ctx.ongoingRequests
  txData : middle.txData = ctx.txData
  timed : ∀ other ∈ middle.transactions, other.ptr < base ∨ other.ptr = t

variable {middle : ClientContext A U}

theorem Launching.handler {t base : Nat} (launching : Launching t base addr .con [] ctx middle)
    (older : middle.ongoingRequests = ctx.ongoingRequests)
    (message : Packet) (callback : ClientCallback U) :
    Launching t base addr .con [] ctx (coapSetResponseHandler t message callback middle) := by
  unfold coapSetResponseHandler
  split
  · exact launching
  · obtain ⟨mid, link, found, -⟩ := launching.node
    let arm (node : Transaction A) : Transaction A :=
      { node with ongoingRequest := some middle.nextPtr }
    have changed : (modifyTransaction t arm middle).transactionAt = _ :=
      modifyTransaction_at t arm fun _ => rfl
    rw [found] at changed
    refine ⟨⟨mid, some middle.nextPtr, (congrFun changed t).trans (update_self ..),
      fun r member => ?_⟩, launching.txData, fun other member => ?_⟩
    · rcases mem_append.mp member with old | new
      · exact .inr (older ▸ old)
      · rw [mem_singleton.mp new]
        exact .inl rfl
    · obtain ⟨old, oldMember, rfl⟩ := List.mem_map.mp member
      have before := launching.timed old oldMember
      split <;> exact before

theorem Launching.packed {t base : Nat} (launching : Launching t base addr .con [] ctx middle)
    (type : CoapMessageType) (packet : List UInt8) : Launching t base addr type packet ctx
      (modifyTransaction t (Transaction.packed type packet) middle) := by
  obtain ⟨mid, link, found, waits⟩ := launching.node
  have changed : (modifyTransaction t (Transaction.packed type packet) middle).transactionAt = _ :=
    modifyTransaction_at t _ fun _ => rfl
  rw [found] at changed
  refine ⟨⟨mid, link, (congrFun changed t).trans (update_self ..), waits⟩, launching.txData,
    fun other member => ?_⟩
  obtain ⟨old, oldMember, rfl⟩ := List.mem_map.mp member
  have before := launching.timed old oldMember
  split <;> exact before

/-- A message that is not confirmable goes out, and its transaction and request are gone. -/
theorem Launching.sent {t base : Nat} {type : CoapMessageType} {packet : List UInt8}
    (launching : Launching t base addr type packet ctx middle) (once : type ≠ .con)
    (sends : sendTransactionAt t middle = some after) :
    after.txData = ctx.txData ++ [(addr, packet)] ∧ after.env = middle.env ∧
    after.transactionAt t = none ∧ (∀ other ∈ after.transactions, other.ptr < base) ∧
    ∀ r ∈ after.ongoingRequests, ∃ old ∈ ctx.ongoingRequests, old.callback = r.callback := by
  obtain ⟨mid, link, found, waits⟩ := launching.node
  rw [sendTransactionAt, found, bind_some, coapSendTransaction, if_neg once] at sends
  obtain rfl := some.inj sends
  obtain ⟨emitted, others, requests⟩ := endTransaction_clears
    (⟨t, mid, 0, addr, type, packet, link⟩ : Transaction A) (transmit addr packet middle)
  refine ⟨emitted.trans (congrArg (· ++ [(addr, packet)]) launching.txData),
    (endTransaction_rest ..).env, List.find?_eq_none.mpr fun other member here =>
    others other member (of_decide_eq_true here), fun other member => ?_, fun r member => ?_⟩
  · obtain ⟨old, oldMember, samePtr⟩ := (frees_endTransaction _ _).transactions other member
    rcases launching.timed old oldMember with before | own
    · exact samePtr ▸ before
    · exact absurd (samePtr.symm.trans own) (others other member)
  · obtain ⟨unlinked, old, oldMember, samePtr, same⟩ := requests r member
    rcases waits old oldMember with own | before
    · exact absurd (own.trans (congrArg some samePtr)) unlinked
    · exact ⟨old, before, same⟩

end Once

end Runs

/-! ## A download, and one that is not confirmable -/

end Idrm.Coap
