import Idrm.Coap.PointerLists

/-!
# What is sent of a transaction

The calls on a context are seen from outside in two ways: datagrams are given to `tx_data`,
and callbacks are told that their requests timed out. Here every call has the list of these
events, each with the transaction it is about. `Emits` ties the lists to the model: a call adds
the datagrams of its events to those given to `tx_data`, and nothing else.
-/

namespace Idrm.Coap

open Idrm.Lib Option List

/-- A transaction is given to `tx_data`, or the callback of its request is called with `NULL`. -/
inductive TransactionEvent where
  | transmitted (t : Nat) (packet : List UInt8)
  | timedOut (t r : Nat)
deriving DecidableEq

/-- The transaction an event is about. -/
def TransactionEvent.transaction : TransactionEvent → Nat
  | .transmitted t _ => t
  | .timedOut t _ => t

/-- The datagram of an event that has one. -/
def TransactionEvent.datagram : TransactionEvent → Option (List UInt8)
  | .transmitted _ packet => some packet
  | .timedOut _ _ => none

namespace PointerContext

/-! ## The events of a call -/

/-- The events of the callback of a request, if it has one. -/
def callbackEvents (events : PointerContext → List TransactionEvent) (request : Option Nat)
    (ctx : PointerContext) : List TransactionEvent :=
  if (request.bind ctx.requestHeap).any (·.callback) = true then events ctx else []

/-- The events of `coap_send_transaction`. -/
def sendEvents (events : PointerContext → List TransactionEvent) (t : Nat) (ctx : PointerContext) :
    List TransactionEvent :=
  match ctx.transactionHeap t with
  | none => []
  | some node =>
    if isConfirmable node.packet = true ∧
      ¬ node.retransCounter.toUInt16 < ctx.defaultRetransCnt then
      callbackEvents (fun ctx => node.ongoingRequest.toList.map (.timedOut t) ++ events ctx)
        node.ongoingRequest ctx
    else [.transmitted t node.packet]

/-- The events of what a callback does. -/
def scriptEvents : Script → List Nat → PointerContext → List TransactionEvent
  | .done, _, _ => []
  | .newTransaction now mid packet rest, made, ctx =>
    ((ctx.coapNewTransaction now mid packet).map fun (t, ctx) => scriptEvents rest
      (made ++ [t]) ctx).getD []
  | .setResponseHandler index token observe callback rest, made, ctx =>
    match made[index]? with
    | none => scriptEvents rest made ctx
    | some t =>
      if ctx.canArm t then
        ((ctx.coapSetResponseHandler t token observe callback).map (scriptEvents rest made)).getD []
      else scriptEvents rest made ctx
  | .sendTransaction index callback rest, made, ctx =>
    match made[index]? with
    | none => scriptEvents rest made ctx
    | some t =>
      if (ctx.transactionHeap t).isSome then
        sendEvents (scriptEvents callback []) t ctx ++ ((ctx.coapSendTransaction
          (runScript callback []) t).map fun (_, ctx) => scriptEvents rest made ctx).getD []
      else scriptEvents rest made ctx

/-- The events of `coap_handle_packet`: those of the callback it calls. -/
def packetEvents (callback : Script) (message : Packet) (ctx : PointerContext) :
    List TransactionEvent :=
  if isRequest message then []
  else
    match listFind (fun node : TransactionNode => node.mid = message.mid) ctx.transactionHeap
      ctx.nextAddress ctx.transactions with
    | none => []
    | some (some t) =>
      if message.code ≠ 0 ∨ message.type = .rst then
        callbackEvents (scriptEvents callback []) (requestOf ctx.transactionHeap t) ctx
      else []
    | some none =>
      callbackEvents (scriptEvents callback [])
        (listFind (fun node : RequestNode => node.token = message.token.bytes) ctx.requestHeap
        ctx.nextAddress ctx.ongoingRequests).join ctx

/-- The events of the second loop of `coap_check_transactions`. -/
def resendEvents (callbacks : Nat → Script) : List Nat → PointerContext → List TransactionEvent
  | [], _ => []
  | t :: rest, ctx =>
    sendEvents (scriptEvents (callbacks t) []) t ctx ++
      ((ctx.coapSendTransaction (runScript (callbacks t) []) t).bind fun (freed, ctx) =>
        (if freed then some ctx else ctx.addTransaction t).map
          (resendEvents callbacks rest)).getD []

/-- The events of a call. -/
def Operation.events : Operation → PointerContext → List TransactionEvent
  | .sendTransaction t callback, ctx => sendEvents (scriptEvents callback []) t ctx
  | .handlePacket message callback, ctx => packetEvents callback message ctx
  | .checkTransactions now callbacks, ctx =>
    ((collectExpired (getElpasedMs now ctx.lastChecktime) ctx.nextAddress none
      [] 60000 ctx.transactions ctx.transactionHeap).map fun (expired, _, heap) => resendEvents
      callbacks expired { ctx with lastChecktime := now, transactionHeap := heap }).getD []
  | _, _ => []

/-- The events of a run. -/
def runEvents (operations : List Operation) (ctx : PointerContext) : List TransactionEvent :=
  (visited perform operations ctx).flatMap fun visit => visit.2.events visit.1

/-! ## The datagrams of a call -/

/-- The defaults of a context stay, and some datagrams are given to `tx_data`. -/
structure Emits (events : List TransactionEvent) (before after : PointerContext) : Prop where
  retransCnt : after.defaultRetransCnt = before.defaultRetransCnt
  retransMs : after.defaultRetransMs = before.defaultRetransMs
  txData : after.txData = before.txData ++ events.filterMap TransactionEvent.datagram

variable {ctx after : PointerContext} {t r : Nat}
  {callback : PointerContext → Option PointerContext}
  {events : PointerContext → List TransactionEvent}

theorem Emits.refl (ctx : PointerContext) : Emits [] ctx ctx := ⟨rfl, rfl, (append_nil _).symm⟩

variable {first second third : PointerContext}

theorem Emits.trans {front back : List TransactionEvent} (one : Emits front first second)
    (two : Emits back second third) : Emits (front ++ back) first third where
  retransCnt := two.retransCnt.trans one.retransCnt
  retransMs := two.retransMs.trans one.retransMs
  txData := by rw [two.txData, one.txData, filterMap_append, append_assoc]

/-- Nothing is sent before, or nothing after. -/
theorem Emits.behind {back : List TransactionEvent} (one : Emits [] first second)
    (two : Emits back second third) : Emits back first third := one.trans two

theorem Emits.ahead {front : List TransactionEvent} (one : Emits front first second)
    (two : Emits [] second third) : Emits front first third := append_nil front ▸ one.trans two

/-- The wrap of the clock is that of its type. -/
theorem getElpasedMs_eq (now lastSystemClock : UInt32) :
    getElpasedMs now lastSystemClock = now - lastSystemClock := by
  unfold getElpasedMs
  split
  · apply UInt32.toNat_inj.mp
    have one := now.toNat_lt
    have two := lastSystemClock.toNat_lt
    rename_i before
    rw [UInt32.lt_iff_toNat_lt] at before
    rw [UInt32.toNat_add, UInt32.toNat_add, UInt32.toNat_sub, UInt32.toNat_sub,
      show (0xFFFFFFFF : UInt32).toNat = 4294967295 from rfl, show (1 : UInt32).toNat = 1 from rfl]
    omega
  · rfl

theorem addTransaction_emits (adds : ctx.addTransaction t = some after) : Emits [] ctx after := by
  obtain ⟨added, -, result⟩ := bind_eq_some_iff.mp adds
  obtain rfl := some.inj result
  exact ⟨rfl, rfl, (append_nil _).symm⟩

theorem removeTransaction_emits (removes : ctx.removeTransaction t = some after) :
    Emits [] ctx after := by
  obtain ⟨removed, -, result⟩ := bind_eq_some_iff.mp removes
  obtain rfl := some.inj result
  exact ⟨rfl, rfl, (append_nil _).symm⟩

theorem addRequest_emits (adds : ctx.addRequest r = some after) : Emits [] ctx after := by
  obtain ⟨added, -, result⟩ := bind_eq_some_iff.mp adds
  obtain rfl := some.inj result
  exact ⟨rfl, rfl, (append_nil _).symm⟩

theorem removeRequest_emits (removes : ctx.removeRequest r = some after) : Emits [] ctx after := by
  obtain ⟨removed, -, result⟩ := bind_eq_some_iff.mp removes
  obtain rfl := some.inj result
  exact ⟨rfl, rfl, (append_nil _).symm⟩

theorem coapUpdateTransactions_emits {now : UInt32}
    (updates : ctx.coapUpdateTransactions now = some after) : Emits [] ctx after := by
  obtain ⟨heap, -, result⟩ := bind_eq_some_iff.mp updates
  obtain rfl := some.inj result
  exact ⟨rfl, rfl, (append_nil _).symm⟩

theorem coapNewTransaction_emits {now : UInt32} {mid : UInt16} {packet : List UInt8}
    (makes : ctx.coapNewTransaction now mid packet = some (t, after)) : Emits [] ctx after := by
  obtain ⟨updated, updates, makes⟩ := bind_eq_some_iff.mp makes
  obtain ⟨added, adds, result⟩ := bind_eq_some_iff.mp makes
  obtain ⟨-, rfl⟩ := Prod.mk.inj (some.inj result)
  have quiet := (coapUpdateTransactions_emits updates).trans (addTransaction_emits adds)
  exact ⟨quiet.retransCnt, quiet.retransMs, quiet.txData⟩

theorem coapSetResponseHandler_emits {token : List UInt8} {observe called : Bool}
    (sets : ctx.coapSetResponseHandler t token observe called = some after) :
    Emits [] ctx after := by
  unfold coapSetResponseHandler at sets
  split at sets
  · exact some.inj sets ▸ .refl ctx
  · obtain ⟨node, -, adds⟩ := bind_eq_some_iff.mp sets
    have quiet := addRequest_emits adds
    exact ⟨quiet.retransCnt, quiet.retransMs, quiet.txData⟩

theorem freeOngoingRequest_emits (frees : ctx.freeOngoingRequest r = some after) :
    Emits [] ctx after := by
  obtain ⟨removed, removes, frees⟩ := bind_eq_some_iff.mp frees
  obtain ⟨node, -, frees⟩ := bind_eq_some_iff.mp frees
  have quiet := removeRequest_emits removes
  cases isTransaction : node.transaction with
  | none =>
    rw [isTransaction] at frees
    obtain rfl := some.inj frees
    exact ⟨quiet.retransCnt, quiet.retransMs, quiet.txData⟩
  | some t =>
    rw [isTransaction] at frees
    obtain ⟨transaction, -, result⟩ := bind_eq_some_iff.mp frees
    obtain rfl := some.inj result
    exact ⟨quiet.retransCnt, quiet.retransMs, quiet.txData⟩

theorem coapClearTransaction_emits (clears : ctx.coapClearTransaction t = some after) :
    Emits [] ctx after := by
  obtain ⟨removed, removes, clears⟩ := bind_eq_some_iff.mp clears
  obtain ⟨node, -, clears⟩ := bind_eq_some_iff.mp clears
  have quiet := removeTransaction_emits removes
  cases isRequest : node.ongoingRequest with
  | none =>
    rw [isRequest] at clears
    obtain rfl := some.inj clears
    exact ⟨quiet.retransCnt, quiet.retransMs, quiet.txData⟩
  | some r =>
    rw [isRequest] at clears
    obtain ⟨request, -, clears⟩ := bind_eq_some_iff.mp clears
    simp only at clears
    split at clears
    · obtain rfl := some.inj clears
      exact ⟨quiet.retransCnt, quiet.retransMs, quiet.txData⟩
    · cases clears

/-- A cleared transaction is freed. -/
theorem coapClearTransaction_gone (clears : ctx.coapClearTransaction t = some after) :
    after.transactionHeap t = none := by
  obtain ⟨removed, -, clears⟩ := bind_eq_some_iff.mp clears
  obtain ⟨node, -, clears⟩ := bind_eq_some_iff.mp clears
  cases isRequest : node.ongoingRequest with
  | none =>
    rw [isRequest] at clears
    obtain rfl := some.inj clears
    exact Function.update_self ..
  | some r =>
    rw [isRequest] at clears
    obtain ⟨request, -, clears⟩ := bind_eq_some_iff.mp clears
    simp only at clears
    split at clears
    · obtain rfl := some.inj clears
      exact Function.update_self ..
    · cases clears

theorem dropRequest_emits (drops : ctx.dropRequest t = some after) : Emits [] ctx after := by
  obtain ⟨node, -, drops⟩ := bind_eq_some_iff.mp drops
  cases isRequest : node.ongoingRequest with
  | none =>
    rw [isRequest] at drops
    exact some.inj drops ▸ .refl ctx
  | some r =>
    rw [isRequest] at drops
    obtain ⟨freed, frees, drops⟩ := bind_eq_some_iff.mp drops
    obtain ⟨node, -, result⟩ := bind_eq_some_iff.mp drops
    obtain rfl := some.inj result
    have quiet := freeOngoingRequest_emits frees
    exact ⟨quiet.retransCnt, quiet.retransMs, quiet.txData⟩

/-- A callback emits its events. -/
def EmitsEvents (callback : PointerContext → Option PointerContext)
    (events : PointerContext → List TransactionEvent) : Prop :=
  ∀ {ctx after}, callback ctx = some after → Emits (events ctx) ctx after

theorem runRequestCallback_emits {request : Option Nat} (emits : EmitsEvents callback events)
    (runs : ctx.runRequestCallback callback request = some after) :
    Emits (callbackEvents events request ctx) ctx after := by
  unfold callbackEvents
  cases request with
  | none => exact some.inj runs ▸ .refl ctx
  | some r =>
    obtain ⟨node, here, runs⟩ := bind_eq_some_iff.mp runs
    simp only [bind_some, here, any_some]
    split at runs
    · rename_i called
      rw [if_pos called]
      exact emits runs
    · rename_i quiet
      rw [if_neg quiet]
      exact some.inj runs ▸ .refl ctx

theorem coapSendTransaction_emits {freed : Bool} (emits : EmitsEvents callback events)
    (sends : ctx.coapSendTransaction callback t = some (freed, after)) :
    Emits (sendEvents events t ctx) ctx after := by
  obtain ⟨node, here, sends⟩ := bind_eq_some_iff.mp sends
  unfold sendEvents
  rw [here]
  split at sends
  · rename_i confirmable
    split at sends
    · rename_i more
      obtain ⟨-, rfl⟩ := Prod.mk.inj (some.inj sends)
      simp only [more, not_true_eq_false, and_false, if_false]
      exact ⟨rfl, rfl, rfl⟩
    · rename_i spent
      obtain ⟨called, calls, sends⟩ := bind_eq_some_iff.mp sends
      obtain ⟨dropped, drops, sends⟩ := bind_eq_some_iff.mp sends
      obtain ⟨cleared, clears, result⟩ := bind_eq_some_iff.mp sends
      obtain ⟨-, rfl⟩ := Prod.mk.inj (some.inj result)
      simp only [confirmable, spent, not_false_eq_true, and_self, if_true]
      have told : EmitsEvents callback fun ctx =>
        node.ongoingRequest.toList.map (.timedOut t) ++ events ctx := by
        intro ctx after calls
        have quiet : (node.ongoingRequest.toList.map (TransactionEvent.timedOut t)).filterMap
            TransactionEvent.datagram = [] := by
          cases node.ongoingRequest <;> rfl
        have called := emits calls
        exact ⟨called.retransCnt, called.retransMs, by rw [called.txData, filterMap_append,
          quiet, nil_append]⟩
      exact ((runRequestCallback_emits told calls).ahead (dropRequest_emits drops)).ahead
        (coapClearTransaction_emits clears)
  · rename_i simple
    obtain ⟨dropped, drops, sends⟩ := bind_eq_some_iff.mp sends
    obtain ⟨cleared, clears, result⟩ := bind_eq_some_iff.mp sends
    obtain ⟨-, rfl⟩ := Prod.mk.inj (some.inj result)
    simp only [simple, Bool.false_eq_true, false_and, if_false]
    have quiet := (dropRequest_emits drops).trans (coapClearTransaction_emits clears)
    exact ⟨quiet.retransCnt, quiet.retransMs, quiet.txData.trans (append_nil _)⟩

theorem runScript_emits (script : Script) (made : List Nat) : EmitsEvents (runScript script made)
    (scriptEvents script made) := by
  induction script generalizing made with
  | done =>
    intro ctx after runs
    exact some.inj runs ▸ .refl ctx
  | newTransaction now mid packet rest ih =>
    intro ctx after runs
    obtain ⟨⟨t, next⟩, makes, runs⟩ := bind_eq_some_iff.mp runs
    rw [scriptEvents, makes]
    exact (coapNewTransaction_emits makes).behind (ih _ runs)
  | setResponseHandler index token observe callback rest ih =>
    intro ctx after runs
    unfold runScript at runs
    unfold scriptEvents
    cases found : made[index]? with
    | none =>
      rw [found] at runs
      exact ih _ runs
    | some t =>
      rw [found] at runs
      simp only at runs ⊢
      split at runs
      · rename_i arms
        obtain ⟨next, sets, runs⟩ := bind_eq_some_iff.mp runs
        rw [if_pos arms, sets]
        exact (coapSetResponseHandler_emits sets).behind (ih _ runs)
      · rename_i busy
        rw [if_neg busy]
        exact ih _ runs
  | sendTransaction index callback rest nested ih =>
    intro ctx after runs
    unfold runScript at runs
    unfold scriptEvents
    cases found : made[index]? with
    | none =>
      rw [found] at runs
      exact ih _ runs
    | some t =>
      rw [found] at runs
      simp only at runs ⊢
      split at runs
      · rename_i live
        obtain ⟨⟨freed, next⟩, sends, runs⟩ := bind_eq_some_iff.mp runs
        rw [if_pos live, sends]
        exact (coapSendTransaction_emits (nested []) sends).trans (ih _ runs)
      · rename_i gone
        rw [if_neg gone]
        exact ih _ runs

theorem freeIf_emits {condition : Prop} [Decidable condition]
    (frees : (if condition then ctx.freeOngoingRequest r else some ctx) = some after) :
    Emits [] ctx after := by
  split at frees
  · exact freeOngoingRequest_emits frees
  · exact some.inj frees ▸ .refl ctx

theorem coapHandlePacket_emits {script : Script} {message : Packet}
    (handles : ctx.coapHandlePacket (runScript script []) message = some after) :
    Emits (packetEvents script message ctx) ctx after := by
  unfold coapHandlePacket at handles
  unfold packetEvents
  split at handles
  · rename_i request
    rw [if_pos request]
    exact some.inj handles ▸ .refl ctx
  rename_i answer
  rw [if_neg answer]
  obtain ⟨found, finds, handles⟩ := bind_eq_some_iff.mp handles
  rw [finds]
  cases found with
  | some t =>
    obtain ⟨node, here, handles⟩ := bind_eq_some_iff.mp handles
    obtain ⟨answered, answers, clears⟩ := bind_eq_some_iff.mp handles
    have linked : requestOf ctx.transactionHeap t = node.ongoingRequest := by
      rw [requestOf, here]
      rfl
    simp only [linked]
    refine Emits.ahead ?_ (coapClearTransaction_emits clears)
    cases isRequest : node.ongoingRequest with
    | none =>
      rw [isRequest] at answers
      obtain rfl := some.inj answers
      split
      · exact .refl ctx
      · exact .refl ctx
    | some r =>
      rw [isRequest] at answers
      obtain ⟨called, calls, answers⟩ := bind_eq_some_iff.mp answers
      obtain ⟨request, -, frees⟩ := bind_eq_some_iff.mp answers
      refine Emits.ahead ?_ (freeIf_emits frees)
      split at calls
      · rename_i told
        rw [if_pos told]
        exact runRequestCallback_emits (runScript_emits script []) calls
      · rename_i silent
        rw [if_neg silent]
        exact some.inj calls ▸ .refl ctx
  | none =>
    obtain ⟨request, findsRequest, answers⟩ := bind_eq_some_iff.mp handles
    rw [findsRequest]
    cases request with
    | none => exact some.inj answers ▸ .refl ctx
    | some r =>
      obtain ⟨called, calls, answers⟩ := bind_eq_some_iff.mp answers
      obtain ⟨node, -, frees⟩ := bind_eq_some_iff.mp answers
      exact (runRequestCallback_emits (runScript_emits script []) calls).ahead (freeIf_emits frees)

theorem resendExpired_emits {callbacks : Nat → Script}
    {expired : List Nat} {nearest timeout : UInt32} (resends : resendExpired
      (fun t => runScript (callbacks t) []) expired nearest ctx = some (timeout, after)) :
    Emits (resendEvents callbacks expired ctx) ctx after := by
  induction expired generalizing ctx nearest with
  | nil =>
    obtain ⟨-, rfl⟩ := Prod.mk.inj (some.inj resends)
    exact .refl ctx
  | cons t rest ih =>
    obtain ⟨⟨freed, sent⟩, sends, resends⟩ := bind_eq_some_iff.mp resends
    have first := coapSendTransaction_emits (runScript_emits (callbacks t) []) sends
    rw [resendEvents, sends]
    cases freed with
    | true => exact first.trans (ih resends)
    | false =>
      obtain ⟨added, adds, resends⟩ := bind_eq_some_iff.mp resends
      obtain ⟨node, -, resends⟩ := bind_eq_some_iff.mp resends
      simp only [bind_some, Bool.false_eq_true, if_false, adds, map_some, getD_some]
      exact first.trans ((addTransaction_emits adds).behind (ih resends))

/-- A call adds the datagrams of its events to those given to `tx_data`. -/
theorem perform_emits {operation : Operation} (performs : ctx.perform operation = some after) :
    Emits (operation.events ctx) ctx after := by
  cases operation with
  | newTransaction now mid packet =>
    obtain ⟨⟨t, made⟩, makes, rfl⟩ := map_eq_some_iff.mp performs
    exact coapNewTransaction_emits makes
  | setResponseHandler t token observe callback => exact coapSetResponseHandler_emits performs
  | sendTransaction t callback =>
    obtain ⟨⟨freed, sent⟩, sends, rfl⟩ := map_eq_some_iff.mp performs
    exact coapSendTransaction_emits (runScript_emits callback []) sends
  | clearTransaction t => exact coapClearTransaction_emits performs
  | handlePacket message callback => exact coapHandlePacket_emits performs
  | checkTransactions now callbacks =>
    obtain ⟨⟨timeout, checked⟩, checks, rfl⟩ := map_eq_some_iff.mp performs
    obtain ⟨⟨expired, nearest, heap⟩, collects, resends⟩ := bind_eq_some_iff.mp checks
    rw [Operation.events, collects]
    have sent := resendExpired_emits resends
    exact ⟨sent.retransCnt, sent.retransMs, sent.txData⟩

/-- The datagrams of a run are those of its events. -/
theorem runAll_emits {operations : List Operation}
    (ran : runAll perform operations ctx = some after) :
    Emits (runEvents operations ctx) ctx after := by
  induction operations generalizing ctx with
  | nil => exact some.inj ran ▸ .refl ctx
  | cons operation rest ih =>
    obtain ⟨next, performs, later⟩ := bind_eq_some_iff.mp ran
    rw [runEvents, visited, performs]
    exact (perform_emits performs).trans (ih later)

/-! ## The transactions of events -/

variable {limbo : Set Nat} {made : List Nat} {base : Nat}

/-- Events of a callback are about transactions that it makes. -/
def Owns (events : PointerContext → List TransactionEvent) : Prop :=
  ∀ {limbo ctx}, Intact limbo ctx → ∀ event ∈ events ctx, ctx.nextAddress ≤ event.transaction

/-- Events of a transaction that is sent are about itself, or belong to its callback. -/
theorem sendEvents_own (intact : Intact limbo ctx) (owns : Owns events) {event : TransactionEvent}
    (member : event ∈ sendEvents events t ctx) :
    event.transaction = t ∨ ctx.nextAddress ≤ event.transaction := by
  unfold sendEvents at member
  split at member
  · cases member
  · split at member
    · unfold callbackEvents at member
      split at member
      · rcases mem_append.mp member with told | called
        · obtain ⟨r, -, rfl⟩ := List.mem_map.mp told
          exact .inl rfl
        · exact .inr (owns intact event called)
      · cases member
    · rw [mem_singleton.mp member]
      exact .inl rfl

/-- A script has no events of what was there before it. -/
theorem scriptEvents_own (script : Script) (intact : Intact limbo ctx) (own : ∀ t ∈ made, base ≤ t)
    (inLimbo : ∀ t ∈ limbo, t < base) (start : base ≤ ctx.nextAddress) :
    ∀ event ∈ scriptEvents script made ctx, base ≤ event.transaction := by
  induction script generalizing made limbo ctx base with
  | done =>
    intro event member
    cases member
  | newTransaction now mid packet rest ih =>
    obtain ⟨next, makes, intactNext, -, later, -⟩ := intact.coapNewTransaction now mid packet
    have ownNext : ∀ t ∈ made ++ [ctx.nextAddress], base ≤ t := by
      intro t member
      rcases mem_append.mp member with earlier | last
      · exact own t earlier
      · rw [mem_singleton.mp last]
        exact start
    rw [scriptEvents, makes]
    exact ih intactNext ownNext inLimbo (Nat.le_trans start (Nat.le_of_lt later))
  | setResponseHandler index token observe callback rest ih =>
    unfold scriptEvents
    cases found : made[index]? with
    | none => exact ih intact own inLimbo start
    | some t =>
      simp only
      split
      · rename_i arms
        obtain ⟨next, sets, intactNext, keeps⟩ :=
          intact.coapSetResponseHandler token observe callback arms
        rw [sets]
        exact ih intactNext own inLimbo (Nat.le_trans start keeps.nextAddress)
      · exact ih intact own inLimbo start
  | sendTransaction index callback rest nested ih =>
    unfold scriptEvents
    cases found : made[index]? with
    | none => exact ih intact own inLimbo start
    | some t =>
      have ownTransaction := own t (mem_of_getElem? found)
      simp only
      split
      · rename_i live
        have owns : Owns (scriptEvents callback []) := by
          intro limbo ctx intact
          exact nested intact (fun _ member => absurd member not_mem_nil)
            (fun _ member => intact.limbo_lt member) (Nat.le_refl _)
        obtain ⟨freed, next, sends, elsewhere, intactNext⟩ :=
          intact.sendListed (harmless_runScript callback) live
          fun member => Nat.not_lt_of_le ownTransaction (inLimbo t member)
        rw [sends, map_some, getD_some]
        intro event member
        rcases mem_append.mp member with sent | later
        · rcases sendEvents_own intact owns sent with same | new
          · rw [same]
            exact ownTransaction
          · exact Nat.le_trans start new
        · exact ih intactNext own inLimbo (Nat.le_trans start elsewhere.nextAddress) event later
      · exact ih intact own inLimbo start

theorem owns_scriptEvents (script : Script) : Owns (scriptEvents script []) := by
  intro limbo ctx intact
  exact scriptEvents_own script intact (fun _ member => absurd member not_mem_nil)
    (fun _ member => intact.limbo_lt member) (Nat.le_refl _)

end PointerContext

end Idrm.Coap
