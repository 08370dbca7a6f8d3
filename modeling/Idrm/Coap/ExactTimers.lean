import Idrm.Coap.Transmissions

/-!
# The time that is left of a transaction

Timers are kept relative to one stamp that every call renews: what has passed since the last
call is taken off all of them. A check stops at the tenth transaction that has expired, with
the stamp renewed already, and those behind it lose what has passed.

The calls are taken at times in milliseconds, of which the clock of the program has the last 32
bits. A call takes no time: what its callbacks do, they do at the time of the call.
-/

namespace Idrm.Coap

open Idrm.Lib Chained Function Option
open List hiding map_map

namespace PointerContext

/-! ## Calls in time -/

/-- Whatever a script makes, it makes at one time. -/
def Script.At (now : UInt32) : Script → Prop
  | .done => True
  | .newTransaction time _ _ rest => time = now ∧ rest.At now
  | .setResponseHandler _ _ _ _ rest => rest.At now
  | .sendTransaction _ callback rest => callback.At now ∧ rest.At now

/-- The calls that deal with timers. -/
inductive TimerCall where
  | newTransaction (mid : UInt16) (packet : List UInt8)
  | updateTransactions
  | checkTransactions (callbacks : Nat → Script)

/-- A call at some reading of the clock. -/
def TimerCall.run (now : UInt32) : TimerCall → PointerContext → Option PointerContext
  | .newTransaction mid packet, ctx => ctx.perform (.newTransaction now mid packet)
  | .updateTransactions, ctx => ctx.coapUpdateTransactions now
  | .checkTransactions callbacks, ctx => ctx.perform (.checkTransactions now callbacks)

/-- Whether a call sends a transaction. -/
def TimerCall.sends (now : UInt32) (t : Nat) : TimerCall → PointerContext → Bool
  | .checkTransactions callbacks, ctx =>
    ((Operation.checkTransactions now callbacks).events ctx).any fun event =>
      event.transaction = t ∧ event.datagram.isSome
  | _, _ => false

/-- A context with the time of the last call, and when each transaction was made or last sent. -/
structure TimedContext where
  ctx : PointerContext
  clock : Nat
  sentAt : Nat → Nat

namespace TimedContext

/-- A call at some time. -/
def perform (call : Nat × TimerCall) (state : TimedContext) : Option TimedContext :=
  let now := UInt32.ofNat call.1
  (call.2.run now state.ctx).map fun after =>
    ⟨after, call.1, fun t =>
      if state.ctx.nextAddress ≤ t ∨ call.2.sends now t state.ctx = true then call.1
        else state.sentAt t⟩

/-- A new context. -/
def new (defaultRetransMs : UInt32) (defaultRetransCnt : UInt16) : TimedContext :=
  ⟨PointerContext.new defaultRetransMs defaultRetransCnt, 0, fun _ => 0⟩

/-- Every timer is what is left of the interval since its transaction was made or last sent. -/
def Exact (state : TimedContext) : Prop :=
  ∀ t node, state.ctx.transactionHeap t = some node →
    node.retransTimer.toNat = state.ctx.defaultRetransMs.toNat - (state.clock - state.sentAt t)

/-- Time does not go back. -/
def InTime (state : TimedContext) (call : Nat × TimerCall) : Prop :=
  state.clock ≤ call.1 ∧ ∀ callbacks, call.2 = .checkTransactions callbacks →
    ∀ t, (callbacks t).At (UInt32.ofNat call.1)

end TimedContext

/-- The timer of a transaction. -/
def timerOf (heap : Heap TransactionNode) (t : Nat) : Option UInt32 := (heap t).map (·.retransTimer)

/-- Whether the timer of a transaction has run out after some time. -/
def isExpired (elpasedMs : UInt32) (heap : Heap TransactionNode) (t : Nat) : Bool :=
  (timerOf heap t).any fun timer => elpasedMs ≥ timer

/-- A check takes nothing from the transactions it does not get to: those that have ten expired
ones before them have run out already, or no time has passed. -/
def NothingBehind (now : UInt32) (ctx : PointerContext) : Prop :=
  let elpasedMs := getElpasedMs now ctx.lastChecktime
  ∀ front t back, Linked ctx.transactionHeap ctx.transactions (front ++ t :: back) →
    expiryHandlingNum ≤ (front.filter (isExpired elpasedMs ctx.transactionHeap)).length →
    elpasedMs = 0 ∨ timerOf ctx.transactionHeap t = some 0

/-- The clock has not gone round since the last call, if there was a transaction. -/
def TimedContext.Measured (state : TimedContext) (call : Nat × TimerCall) : Prop :=
  state.ctx.transactions ≠ none → call.1 < state.clock + 2 ^ 32

/-- A call takes the time that has passed off every timer. -/
def TimedContext.LosesNothing (state : TimedContext) (call : Nat × TimerCall) : Prop :=
  ∀ callbacks, call.2 = .checkTransactions callbacks → NothingBehind (UInt32.ofNat call.1) state.ctx

/-! ## What leaves timers alone -/

/-- The stamp and the timers of some transactions stay. -/
structure SameTimers (ts : Set Nat) (before after : PointerContext) : Prop where
  checktime : after.lastChecktime = before.lastChecktime
  timers : ∀ t ∈ ts, timerOf after.transactionHeap t = timerOf before.transactionHeap t

variable {ctx after : PointerContext} {limbo ts : Set Nat} {t r base : Nat} {now elpasedMs : UInt32}
  {callback : PointerContext → Option PointerContext}
  {events : PointerContext → List TransactionEvent}

theorem SameTimers.refl (ts : Set Nat) (ctx : PointerContext) : SameTimers ts ctx ctx :=
  ⟨rfl, fun _ _ => rfl⟩

theorem SameTimers.trans {first second third : PointerContext} (one : SameTimers ts first second)
    (two : SameTimers ts second third) : SameTimers ts first third :=
  ⟨two.checktime.trans one.checktime,
    fun t member => (two.timers t member).trans (one.timers t member)⟩

theorem SameTimers.mono {fewer : Set Nat} (same : SameTimers ts ctx after) (least : fewer ⊆ ts) :
    SameTimers fewer ctx after :=
  ⟨same.checktime, fun t member => same.timers t (least member)⟩

theorem timerOf_relinked {heap heap' : Heap TransactionNode} (relinked : Relinked heap heap')
    (t : Nat) : timerOf heap' t = timerOf heap t := by
  have same := congrArg (Option.map TransactionNode.retransTimer) (relinked t)
  rw [map_map, map_map] at same
  exact same

/-- A transaction that is written keeps its timer. -/
theorem timerOf_write {heap : Heap TransactionNode}
    {node : TransactionNode} (here : heap t = some node) (written : TransactionNode)
    (same : written.retransTimer = node.retransTimer) (other : Nat) :
    timerOf (update heap t (some written)) other = timerOf heap other := by
  unfold timerOf
  by_cases equal : other = t
  · subst equal
    rw [update_self, here, map_some, map_some, same]
  · rw [update_of_ne equal]

theorem addTransaction_timers (intact : Intact limbo ctx) (live : (ctx.transactionHeap t).isSome)
    (adds : ctx.addTransaction t = some after) : SameTimers Set.univ ctx after := by
  obtain ⟨ts, listed⟩ := intact.transactions
  obtain ⟨head, heap, adds', -, relinked⟩ := listed.add live
  obtain ⟨added, adds, result⟩ := bind_eq_some_iff.mp adds
  rw [adds'] at adds
  obtain rfl := some.inj adds
  obtain rfl := some.inj result
  exact ⟨rfl, fun t _ => timerOf_relinked relinked t⟩

theorem removeTransaction_timers (intact : Intact limbo ctx) (live : (ctx.transactionHeap t).isSome)
    (removes : ctx.removeTransaction t = some after) : SameTimers Set.univ ctx after := by
  obtain ⟨ts, listed⟩ := intact.transactions
  obtain ⟨head, heap, removes', -, relinked⟩ := listed.remove live
  obtain ⟨removed, removes, result⟩ := bind_eq_some_iff.mp removes
  rw [removes'] at removes
  obtain rfl := some.inj removes
  obtain rfl := some.inj result
  exact ⟨rfl, fun t _ => timerOf_relinked relinked t⟩

theorem addRequest_timers (adds : ctx.addRequest r = some after) :
    SameTimers Set.univ ctx after := by
  obtain ⟨added, -, result⟩ := bind_eq_some_iff.mp adds
  obtain rfl := some.inj result
  exact ⟨rfl, fun _ _ => rfl⟩

theorem removeRequest_timers (removes : ctx.removeRequest r = some after) :
    SameTimers Set.univ ctx after := by
  obtain ⟨removed, -, result⟩ := bind_eq_some_iff.mp removes
  obtain rfl := some.inj result
  exact ⟨rfl, fun _ _ => rfl⟩

theorem coapSetResponseHandler_timers {token : List UInt8} {observe called : Bool}
    (sets : ctx.coapSetResponseHandler t token observe called = some after) :
    SameTimers Set.univ ctx after := by
  unfold coapSetResponseHandler at sets
  split at sets
  · exact some.inj sets ▸ .refl _ ctx
  · obtain ⟨node, here, adds⟩ := bind_eq_some_iff.mp sets
    have there : ctx.transactionHeap t = some node := here
    have quiet := addRequest_timers adds
    refine ⟨quiet.checktime, fun other member => (quiet.timers other member).trans ?_⟩
    exact timerOf_write there { node with ongoingRequest := some ctx.nextAddress } rfl other

theorem freeOngoingRequest_timers (frees : ctx.freeOngoingRequest r = some after) :
    SameTimers Set.univ ctx after := by
  obtain ⟨removed, removes, frees⟩ := bind_eq_some_iff.mp frees
  obtain ⟨node, -, frees⟩ := bind_eq_some_iff.mp frees
  have quiet := removeRequest_timers removes
  cases isTransaction : node.transaction with
  | none =>
    rw [isTransaction] at frees
    obtain rfl := some.inj frees
    exact ⟨quiet.checktime, quiet.timers⟩
  | some t =>
    rw [isTransaction] at frees
    obtain ⟨transaction, here, result⟩ := bind_eq_some_iff.mp frees
    obtain rfl := some.inj result
    refine ⟨quiet.checktime, fun other member => ?_⟩
    exact (timerOf_write here { transaction with ongoingRequest := none } rfl other).trans
      (quiet.timers other member)

theorem dropRequest_timers (drops : ctx.dropRequest t = some after) :
    SameTimers Set.univ ctx after := by
  obtain ⟨node, -, drops⟩ := bind_eq_some_iff.mp drops
  cases isRequest : node.ongoingRequest with
  | none =>
    rw [isRequest] at drops
    exact some.inj drops ▸ .refl _ ctx
  | some r =>
    rw [isRequest] at drops
    obtain ⟨freed, frees, drops⟩ := bind_eq_some_iff.mp drops
    obtain ⟨node, here, result⟩ := bind_eq_some_iff.mp drops
    obtain rfl := some.inj result
    have quiet := freeOngoingRequest_timers frees
    refine ⟨quiet.checktime, fun other member => ?_⟩
    exact (timerOf_write here { node with ongoingRequest := none } rfl other).trans
      (quiet.timers other member)

theorem coapClearTransaction_timers (intact : Intact limbo ctx)
    (live : (ctx.transactionHeap t).isSome)
    (clears : ctx.coapClearTransaction t = some after) : SameTimers {t}ᶜ ctx after := by
  obtain ⟨removed, removes, clears⟩ := bind_eq_some_iff.mp clears
  obtain ⟨node, -, clears⟩ := bind_eq_some_iff.mp clears
  have quiet := removeTransaction_timers intact live removes
  have freed : ∀ other ∈ ({t}ᶜ : Set Nat), timerOf (update removed.transactionHeap t none) other =
      timerOf ctx.transactionHeap other := by
    intro other different
    rw [timerOf, update_of_ne different]
    exact quiet.timers other (Set.mem_univ other)
  cases isRequest : node.ongoingRequest with
  | none =>
    rw [isRequest] at clears
    obtain rfl := some.inj clears
    exact ⟨quiet.checktime, freed⟩
  | some r =>
    rw [isRequest] at clears
    obtain ⟨request, -, clears⟩ := bind_eq_some_iff.mp clears
    simp only at clears
    split at clears
    · obtain rfl := some.inj clears
      exact ⟨quiet.checktime, freed⟩
    · cases clears

/-! ## Counting down -/

/-- What is left of a timer. -/
def countDown (elpasedMs timer : UInt32) : UInt32 :=
  if elpasedMs ≥ timer then 0 else timer - elpasedMs

theorem countDown_toNat (elpasedMs timer : UInt32) :
    (countDown elpasedMs timer).toNat = timer.toNat - elpasedMs.toNat := by
  unfold countDown
  split
  · rename_i reached
    have bound := UInt32.le_iff_toNat_le.mp reached
    rw [show (0 : UInt32).toNat = 0 from rfl]
    omega
  · rename_i left
    have bound : elpasedMs.toNat < timer.toNat := by
      rw [← UInt32.lt_iff_toNat_lt]
      exact UInt32.not_le.mp left
    rw [UInt32.toNat_sub_of_le _ _ (UInt32.le_iff_toNat_le.mpr (Nat.le_of_lt bound))]

theorem countDown_zero (timer : UInt32) : countDown 0 timer = timer := by
  apply UInt32.toNat_inj.mp
  rw [countDown_toNat]
  rfl

/-- Every listed timer is counted down; in no time, that is none. -/
theorem coapUpdateTransactions_timers (intact : Intact limbo ctx)
    (updates : ctx.coapUpdateTransactions now = some after) : after.lastChecktime = now ∧
    (∀ t ∈ limbo, timerOf after.transactionHeap t = timerOf ctx.transactionHeap t) ∧
    (∀ t ∉ limbo, timerOf after.transactionHeap t = (timerOf ctx.transactionHeap t).map
      (countDown (getElpasedMs now ctx.lastChecktime))) ∧ (getElpasedMs now ctx.lastChecktime = 0 →
      ∀ t, timerOf after.transactionHeap t = timerOf ctx.transactionHeap t) := by
  obtain ⟨ts, listed⟩ := intact.transactions
  obtain ⟨heap, walks, result⟩ := bind_eq_some_iff.mp updates
  have walked := listEach_eq (countDownTimer (getElpasedMs now ctx.lastChecktime)) listed.linked
    listed.distinct listed.length_le
  rw [walked] at walks
  obtain rfl := some.inj walks
  obtain rfl := some.inj result
  have each : ∀ t ∈ ts, timerOf (fun t => if t ∈ ts then
        (ctx.transactionHeap t).map (countDownTimer (getElpasedMs now ctx.lastChecktime))
          else ctx.transactionHeap t) t =
      (timerOf ctx.transactionHeap t).map (countDown (getElpasedMs now ctx.lastChecktime)) := by
    intro t member
    rw [timerOf, if_pos member, timerOf, map_map, map_map]
    rfl
  refine ⟨rfl, fun t inLimbo => ?_, fun t outside => ?_, fun still t => ?_⟩
  · simp only [timerOf, if_neg (listed.apart t inLimbo)]
  · by_cases member : t ∈ ts
    · exact each t member
    · have gone : ctx.transactionHeap t = none := by
        refine not_isSome_iff_eq_none.mp fun live => ?_
        exact ((listed.live t).mp live).elim member outside
      simp only [timerOf, if_neg member, gone, map_none]
  · by_cases member : t ∈ ts
    · refine (each t member).trans ?_
      rw [still]
      cases timerOf ctx.transactionHeap t with
      | none => rfl
      | some timer => rw [map_some, countDown_zero]
    · simp only [timerOf, if_neg member]

/-- A new transaction has the whole interval before it. -/
theorem coapNewTransaction_timers (intact : Intact limbo ctx) {mid : UInt16} {packet : List UInt8}
    (makes : ctx.coapNewTransaction now mid packet = some (t, after)) :
    t = ctx.nextAddress ∧ after.lastChecktime = now ∧
      timerOf after.transactionHeap ctx.nextAddress = some ctx.defaultRetransMs ∧
      (∀ other ∉ limbo, other ≠ ctx.nextAddress → timerOf after.transactionHeap other =
        (timerOf ctx.transactionHeap other).map (countDown (getElpasedMs now ctx.lastChecktime))) ∧
      (getElpasedMs now ctx.lastChecktime = 0 → ∀ other, other ≠ ctx.nextAddress →
        timerOf after.transactionHeap other = timerOf ctx.transactionHeap other) := by
  obtain ⟨updated, updates, makes⟩ := bind_eq_some_iff.mp makes
  obtain ⟨added, adds, result⟩ := bind_eq_some_iff.mp makes
  obtain ⟨rfl, rfl⟩ := Prod.mk.inj (some.inj result)
  let node : TransactionNode := ⟨none, mid, ctx.defaultRetransMs, 0, none, packet⟩
  have intactMade : Intact (insert ctx.nextAddress limbo)
    (({ ctx with nextAddress := ctx.nextAddress + 1 } : PointerContext).setTransaction
    ctx.nextAddress node) := intact.allocate rfl
  obtain ⟨updated', updates', intactUpdated, keeps, -⟩ := intactMade.coapUpdateTransactions now
  rw [updates'] at updates
  obtain rfl := some.inj updates
  obtain ⟨stamp, waiting, counted, still⟩ := coapUpdateTransactions_timers intactMade updates'
  have live : (updated'.transactionHeap ctx.nextAddress).isSome := by
    rw [keeps.isSome (Set.mem_univ _)]
    simp [setTransaction]
  have added := addTransaction_timers intactUpdated live adds
  have others : ∀ other, other ≠ ctx.nextAddress →
      timerOf (update ctx.transactionHeap ctx.nextAddress (some node)) other =
      timerOf ctx.transactionHeap other := by
    intro other different
    rw [timerOf, update_of_ne different, timerOf]
  refine ⟨rfl, added.checktime.trans stamp, ?_, fun other outside different => ?_,
    fun elapsed other different => ?_⟩
  · refine (added.timers _ (Set.mem_univ _)).trans ((waiting _ (Set.mem_insert _ _)).trans ?_)
    simp [timerOf, setTransaction, node]
  · refine (added.timers other (Set.mem_univ other)).trans
      ((counted other fun member => ?_).trans ?_)
    · exact (Set.mem_insert_iff.mp member).elim different outside
    · exact congrArg (Option.map _) (others other different)
  · exact (added.timers other (Set.mem_univ other)).trans
      ((still elapsed other).trans (others other different))

/-! ## Sending -/

/-- Transactions from an address on have the whole interval before them. -/
def Fresh (base : Nat) (ctx : PointerContext) : Prop :=
  ∀ t node, base ≤ t → ctx.transactionHeap t = some node → node.retransTimer = ctx.defaultRetransMs

theorem Intact.fresh_beyond (intact : Intact limbo ctx) : Fresh ctx.nextAddress ctx := by
  intro t node beyond here
  have bounded := intact.transaction_lt (t := t) (by rw [here]; rfl)
  exact absurd bounded (Nat.not_lt_of_le beyond)

/-- A fresh transaction stays fresh where its timer stays. -/
theorem Fresh.keep (fresh : Fresh base ctx)
    (least : base ≤ t) (same : timerOf after.transactionHeap t = timerOf ctx.transactionHeap t)
    (retransMs : after.defaultRetransMs = ctx.defaultRetransMs) {node : TransactionNode}
    (here : after.transactionHeap t = some node) : node.retransTimer = after.defaultRetransMs := by
  rw [timerOf, timerOf, here, map_some] at same
  obtain ⟨before, there, equal⟩ := map_eq_some_iff.mp same.symm
  rw [← equal, fresh t before least there, retransMs]

/-- A callback at some time leaves the timers alone, and what it makes has the whole interval. -/
def Timeless (now : UInt32) (callback : PointerContext → Option PointerContext) : Prop :=
  ∀ {limbo ctx after}, Intact limbo ctx → ctx.lastChecktime = now → callback ctx = some after →
    SameTimers (below ctx.nextAddress) ctx after ∧ Fresh ctx.nextAddress after

/-- A transaction that is sent and stays has the whole interval before it. -/
theorem coapSendTransaction_timers (intact : Intact limbo ctx) (harmless : Harmless callback)
    (emits : EmitsEvents callback events) (timeless : Timeless ctx.lastChecktime callback)
    {freed : Bool} (sends : ctx.coapSendTransaction callback t = some (freed, after)) :
    after.lastChecktime = ctx.lastChecktime ∧ (∀ other < ctx.nextAddress, other ≠ t →
      timerOf after.transactionHeap other = timerOf ctx.transactionHeap other) ∧
    (∀ node, after.transactionHeap t = some node → node.retransTimer = ctx.defaultRetransMs ∧
      .transmitted t node.packet ∈ sendEvents events t ctx) ∧ Fresh ctx.nextAddress after := by
  have retransMs := (coapSendTransaction_emits emits sends).retransMs
  obtain ⟨node, here, sends⟩ := bind_eq_some_iff.mp sends
  have live : (ctx.transactionHeap t).isSome := by
    rw [here]
    rfl
  have below := intact.transaction_lt live
  -- what is freed behind a callback leaves the other timers alone
  have closes : ∀ {called dropped cleared : PointerContext}, Intact limbo called →
      (called.transactionHeap t).isSome →
      Fresh ctx.nextAddress called → SameTimers (PointerContext.below ctx.nextAddress) ctx called →
      called.defaultRetransMs = ctx.defaultRetransMs →
      called.dropRequest t = some dropped → dropped.coapClearTransaction t = some cleared →
      cleared.lastChecktime = ctx.lastChecktime ∧ (∀ other < ctx.nextAddress, other ≠ t →
      timerOf cleared.transactionHeap other = timerOf ctx.transactionHeap other) ∧
      cleared.transactionHeap t = none ∧ Fresh ctx.nextAddress cleared := by
    intro called dropped cleared intactCalled alive fresh same sameMs drops clears
    obtain ⟨dropped', drops', intactDropped, aliveDropped, -, -⟩ := intactCalled.dropRequest alive
    rw [drops'] at drops
    obtain rfl := some.inj drops
    have dropped := (dropRequest_timers drops').mono (Set.subset_univ {t}ᶜ)
    have closed := dropped.trans (coapClearTransaction_timers intactDropped aliveDropped clears)
    have quiet := (dropRequest_emits drops').behind (coapClearTransaction_emits clears)
    refine ⟨closed.checktime.trans same.checktime, fun other bounded different => ?_,
      coapClearTransaction_gone clears, ?_⟩
    · exact (closed.timers other different).trans (same.timers other bounded)
    · intro other node beyond there
      exact fresh.keep beyond (closed.timers other fun same => Nat.not_lt_of_le beyond
        (same ▸ below)) quiet.retransMs there
  unfold sendEvents
  simp only [here]
  split at sends
  · rename_i confirmable
    split at sends
    · rename_i more
      obtain ⟨-, rfl⟩ := Prod.mk.inj (some.inj sends)
      simp only [more, not_true_eq_false, and_false, if_false]
      refine ⟨rfl, fun other _ different => ?_, fun again there => ?_,
        fun other node beyond there => ?_⟩
      · simp [timerOf, setTransaction, different]
      · simp only [setTransaction, update_self, Option.some.injEq] at there
        subst there
        exact ⟨rfl, mem_singleton.mpr rfl⟩
      · have different : other ≠ t := fun same => Nat.not_lt_of_le beyond (same ▸ below)
        simp only [setTransaction, update_of_ne different] at there
        exact intact.fresh_beyond other node beyond there
    · obtain ⟨called, calls, sends⟩ := bind_eq_some_iff.mp sends
      obtain ⟨dropped, drops, sends⟩ := bind_eq_some_iff.mp sends
      obtain ⟨cleared, clears, result⟩ := bind_eq_some_iff.mp sends
      obtain ⟨-, rfl⟩ := Prod.mk.inj (some.inj result)
      obtain ⟨intactCalled, alive, fresh, same, sameMs⟩ :
          Intact limbo called ∧ (called.transactionHeap t).isSome ∧ Fresh ctx.nextAddress called ∧
          SameTimers (PointerContext.below ctx.nextAddress) ctx called ∧
          called.defaultRetransMs = ctx.defaultRetransMs := by
        have uncalled : called = ctx → Intact limbo called ∧ (called.transactionHeap t).isSome ∧
            Fresh ctx.nextAddress called ∧ SameTimers (PointerContext.below ctx.nextAddress) ctx
            called ∧ called.defaultRetransMs = ctx.defaultRetransMs := by
          rintro rfl
          exact ⟨intact, live, intact.fresh_beyond, .refl _ _, rfl⟩
        cases isRequest : node.ongoingRequest with
        | none =>
          rw [isRequest] at calls
          exact uncalled (some.inj calls).symm
        | some r =>
          rw [isRequest] at calls
          obtain ⟨request, found, calls⟩ := bind_eq_some_iff.mp calls
          split at calls
          · obtain ⟨called', calls', intactCalled, keeps⟩ := harmless limbo ctx intact
            rw [calls'] at calls
            obtain rfl := some.inj calls
            obtain ⟨same, fresh⟩ := timeless intact rfl calls'
            exact ⟨intactCalled, (keeps.isSome below).trans live, fresh, same,
              (emits calls').retransMs⟩
          · exact uncalled (some.inj calls).symm
      obtain ⟨stamp, others, gone, freshEnd⟩ :=
        closes intactCalled alive fresh same sameMs drops clears
      refine ⟨stamp, others, fun node there => ?_, freshEnd⟩
      rw [gone] at there
      cases there
  · obtain ⟨dropped, drops, sends⟩ := bind_eq_some_iff.mp sends
    obtain ⟨cleared, clears, result⟩ := bind_eq_some_iff.mp sends
    obtain ⟨-, rfl⟩ := Prod.mk.inj (some.inj result)
    have intactSent : Intact limbo { ctx with txData := ctx.txData ++ [node.packet] } :=
      ⟨intact.transactions, intact.requests, intact.paired⟩
    have fresh : Fresh ctx.nextAddress { ctx with txData := ctx.txData ++ [node.packet] } :=
      intact.fresh_beyond
    obtain ⟨stamp, others, gone, freshEnd⟩ :=
      closes intactSent live fresh ⟨rfl, fun _ _ => rfl⟩ rfl drops clears
    refine ⟨stamp, others, fun node there => ?_, freshEnd⟩
    rw [gone] at there
    cases there

/-- A script that takes no time leaves the timers of what was there alone. -/
theorem runScript_timers (script : Script) {made : List Nat}
    (time : script.At ctx.lastChecktime) (intact : Intact limbo ctx) (own : ∀ t ∈ made, base ≤ t)
    (inLimbo : ∀ t ∈ limbo, t < base) (start : base ≤ ctx.nextAddress) (fresh : Fresh base ctx)
    (runs : runScript script made ctx = some after) : SameTimers (below base) ctx after ∧
    Fresh base after := by
  induction script generalizing made limbo ctx base after with
  | done =>
    obtain rfl := some.inj runs
    exact ⟨.refl _ _, fresh⟩
  | newTransaction now mid packet rest ih =>
    obtain ⟨rfl, later⟩ := time
    obtain ⟨⟨t, next⟩, makes, runs⟩ := bind_eq_some_iff.mp runs
    obtain ⟨next', makes', intactNext, -, grows, -⟩ :=
      intact.coapNewTransaction ctx.lastChecktime mid packet
    rw [makes'] at makes
    obtain ⟨rfl, rfl⟩ := Prod.mk.inj (some.inj makes)
    obtain ⟨-, stamp, new, -, still⟩ := coapNewTransaction_timers intact makes'
    have elapsed : getElpasedMs ctx.lastChecktime ctx.lastChecktime = 0 := by
      rw [getElpasedMs_eq, UInt32.sub_self]
    have retransMs := (coapNewTransaction_emits makes').retransMs
    have ownNext : ∀ t ∈ made ++ [ctx.nextAddress], base ≤ t := by
      intro t member
      rcases mem_append.mp member with earlier | last
      · exact own t earlier
      · rw [mem_singleton.mp last]
        exact start
    have same : SameTimers {ctx.nextAddress}ᶜ ctx next' :=
      ⟨stamp, fun other different => still elapsed other different⟩
    have freshNext : Fresh base next' := by
      intro other node least here
      by_cases isNew : other = ctx.nextAddress
      · subst isNew
        rw [timerOf, here] at new
        rw [retransMs]
        exact some.inj new
      · exact fresh.keep least (same.timers other isNew) retransMs here
    obtain ⟨sameAfter, freshAfter⟩ := ih (stamp.symm ▸ later) intactNext ownNext inLimbo
      (Nat.le_trans start (Nat.le_of_lt grows)) freshNext runs
    exact ⟨(same.mono fun t (bounded : t < base) => Nat.ne_of_lt
      (Nat.lt_of_lt_of_le bounded start)).trans sameAfter, freshAfter⟩
  | setResponseHandler index token observe callback rest ih =>
    unfold runScript at runs
    cases found : made[index]? with
    | none =>
      rw [found] at runs
      exact ih time intact own inLimbo start fresh runs
    | some t =>
      rw [found] at runs
      simp only at runs
      split at runs
      · rename_i arms
        obtain ⟨next, sets, runs⟩ := bind_eq_some_iff.mp runs
        obtain ⟨next', sets', intactNext, keeps⟩ :=
          intact.coapSetResponseHandler token observe callback arms
        rw [sets'] at sets
        obtain rfl := some.inj sets
        have same := coapSetResponseHandler_timers sets'
        have freshNext : Fresh base next' := fun other node least here =>
          fresh.keep least (same.timers other (Set.mem_univ other))
            (coapSetResponseHandler_emits sets').retransMs here
        obtain ⟨sameAfter, freshAfter⟩ := ih (same.checktime.symm ▸ time) intactNext own inLimbo
          (Nat.le_trans start keeps.nextAddress) freshNext runs
        exact ⟨(same.mono (Set.subset_univ _)).trans sameAfter, freshAfter⟩
      · exact ih time intact own inLimbo start fresh runs
  | sendTransaction index callback rest nested ih =>
    obtain ⟨nestedTime, later⟩ := time
    unfold runScript at runs
    cases found : made[index]? with
    | none =>
      rw [found] at runs
      exact ih later intact own inLimbo start fresh runs
    | some t =>
      rw [found] at runs
      simp only at runs
      have ownTransaction := own t (mem_of_getElem? found)
      split at runs
      · rename_i live
        obtain ⟨⟨freed, next⟩, sends, runs⟩ := bind_eq_some_iff.mp runs
        have timeless : Timeless ctx.lastChecktime (runScript callback []) := by
          intro limbo called after intact stamp calls
          exact nested (stamp.symm ▸ nestedTime) intact (fun _ member => absurd member not_mem_nil)
            (fun _ member => intact.limbo_lt member) (Nat.le_refl _) intact.fresh_beyond calls
        obtain ⟨freed', next', sends', elsewhere, intactNext⟩ :=
          intact.sendListed (harmless_runScript callback) live
          fun member => Nat.not_lt_of_le ownTransaction (inLimbo t member)
        rw [sends'] at sends
        obtain ⟨rfl, rfl⟩ := Prod.mk.inj (some.inj sends)
        obtain ⟨stamp, others, sent, beyond⟩ := coapSendTransaction_timers intact
          (harmless_runScript callback) (runScript_emits callback []) timeless sends'
        have retransMs := (coapSendTransaction_emits (runScript_emits callback []) sends').retransMs
        have freshNext : Fresh base next' := by
          intro other node least here
          by_cases isSent : other = t
          · subst isSent
            rw [(sent node here).1, retransMs]
          · rcases Nat.lt_or_ge other ctx.nextAddress with older | new
            · exact fresh.keep least (others other older isSent) retransMs here
            · exact beyond other node new here
        obtain ⟨sameAfter, freshAfter⟩ := ih (stamp.symm ▸ later) intactNext own inLimbo
          (Nat.le_trans start elsewhere.nextAddress) freshNext runs
        refine ⟨SameTimers.trans ⟨stamp, fun other bounded => ?_⟩ sameAfter, freshAfter⟩
        have lower : other < base := bounded
        exact others other (Nat.lt_of_lt_of_le lower start) fun same =>
          Nat.not_lt_of_le ownTransaction (same ▸ lower)
      · exact ih later intact own inLimbo start fresh runs

theorem timeless_runScript (script : Script) (time : script.At now) :
    Timeless now (runScript script []) := by
  intro limbo ctx after intact stamp calls
  exact runScript_timers script
    (stamp.symm ▸ time) intact (fun _ member => absurd member not_mem_nil)
    (fun _ member => intact.limbo_lt member) (Nat.le_refl _) intact.fresh_beyond calls

/-! ## Checks -/

theorem isExpired_congr {heap heap' : Heap TransactionNode}
    (same : timerOf heap' t = timerOf heap t) :
    isExpired elpasedMs heap' t = isExpired elpasedMs heap t := by
  rw [isExpired, isExpired, same]

/-- What the first loop leaves of the timers, from some place of the list on: those of `front`
that have not expired are counted down, and nothing behind the tenth expired one is reached. -/
structure Walked (elpasedMs : UInt32) (before after : Heap TransactionNode)
    (expired noted front back : List Nat) : Prop where
  taken : noted = expired ++ front.filter (isExpired elpasedMs before)
  early : ∀ passed t behind, front = passed ++ t :: behind →
    expired.length + (passed.filter (isExpired elpasedMs before)).length < expiryHandlingNum
  stops : back ≠ [] → noted.length = expiryHandlingNum
  timers : ∀ t, timerOf after t = if t ∈ front ∧ isExpired elpasedMs before t = false then
    (timerOf before t).map (countDown elpasedMs) else timerOf before t

variable {heap before final : Heap TransactionNode} {expired noted front back : List Nat}

theorem filter_isExpired_congr {items : List Nat}
    (same : ∀ t ∈ items, timerOf before t = timerOf heap t) :
    items.filter (isExpired elpasedMs before) = items.filter (isExpired elpasedMs heap) :=
  filter_congr fun t member => isExpired_congr (same t member)

/-- An expired transaction is noted before the walk goes on. -/
theorem Walked.take (walked : Walked elpasedMs before final (expired ++ [t]) noted front back)
    (isExpired_ : isExpired elpasedMs heap t = true)
    (same : ∀ t, timerOf before t = timerOf heap t) (room : expired.length < expiryHandlingNum) :
    Walked elpasedMs heap final expired noted (t :: front) back where
  taken := by
    rw [filter_cons_of_pos isExpired_, walked.taken,
      filter_isExpired_congr fun t _ => same t, append_assoc]
    rfl
  early := by
    intro passed other behind split
    cases passed with
    | nil => simpa using room
    | cons first passed =>
      obtain ⟨rfl, rest⟩ := List.cons.inj split
      have early := walked.early passed other behind rest
      rw [filter_isExpired_congr fun t _ => same t, length_append, length_singleton] at early
      rw [filter_cons_of_pos isExpired_, length_cons]
      omega
  stops := walked.stops
  timers := by
    intro other
    rw [walked.timers other, same other, isExpired_congr (same other)]
    by_cases equal : other = t
    · subst equal
      simp [isExpired_]
    · simp [equal]

/-- A transaction that has not expired is counted down before the walk goes on. -/
theorem Walked.pass (walked : Walked elpasedMs before final expired noted front back)
    (left : isExpired elpasedMs heap t = false)
    (counted : timerOf before t = (timerOf heap t).map (countDown elpasedMs))
    (same : ∀ other, other ≠ t → timerOf before other = timerOf heap other) (once : t ∉ front)
    (room : expired.length < expiryHandlingNum) :
    Walked elpasedMs heap final expired noted (t :: front) back := by
  have elsewhere : ∀ other ∈ front, timerOf before other = timerOf heap other := fun other member =>
    same other fun equal => once (equal ▸ member)
  have skipped : ∀ items, (t :: items).filter (isExpired elpasedMs heap) = items.filter
      (isExpired elpasedMs heap) := fun items =>
    filter_cons_of_neg (by rw [left]; decide)
  refine ⟨?_, ?_, walked.stops, ?_⟩
  · rw [skipped, walked.taken, filter_isExpired_congr elsewhere]
  · intro passed other behind split
    cases passed with
    | nil => simpa using room
    | cons first passed =>
      obtain ⟨rfl, rest⟩ := List.cons.inj split
      have early := walked.early passed other behind rest
      rw [filter_isExpired_congr fun t member => elsewhere t
        (rest ▸ mem_append_left _ member)] at early
      rwa [skipped]
  · intro other
    rw [walked.timers other]
    by_cases equal : other = t
    · subst equal
      rw [if_neg fun inside => once inside.1, if_pos ⟨mem_cons_self, left⟩, counted]
    · rw [same other equal, isExpired_congr (same other equal)]
      simp [equal]

/-- The walk ends. -/
theorem Walked.stop (heap : Heap TransactionNode) (expired : List Nat) (back : List Nat)
    (stops : back ≠ [] → expired.length = expiryHandlingNum) :
    Walked elpasedMs heap heap expired expired [] back where
  taken := (append_nil _).symm
  early := by
    intro passed t behind split
    cases passed <;> cases split
  stops := stops
  timers := fun t => by rw [if_neg fun inside => by cases inside.1]

/-- The first loop walks over the list, up to the tenth expired transaction. -/
theorem collectExpired_timers {steps : Nat} {previous pointer : Option Nat} {rest : List Nat}
    {nearest timeout : UInt32} (collects : collectExpired
      elpasedMs steps previous expired nearest pointer heap = some (noted, timeout, final))
    (linked : Linked heap pointer rest) (distinct : rest.Nodup) (apart : ∀ p ∈ previous, p ∉ rest)
    (room : expired.length < expiryHandlingNum) :
    ∃ front back, rest = front ++ back ∧ Walked elpasedMs heap final expired noted front back := by
  induction steps generalizing previous pointer expired rest nearest heap with
  | zero =>
    cases pointer with
    | some t => cases collects
    | none =>
      obtain ⟨rfl, rfl, rfl⟩ := some.inj collects
      obtain rfl : rest = [] := by
        cases rest with
        | nil => rfl
        | cons t rest => cases linked.1
      exact ⟨[], [], rfl, .stop _ _ [] fun some_ => absurd rfl some_⟩
  | succ steps ih =>
    cases pointer with
    | none =>
      obtain ⟨rfl, rfl, rfl⟩ := some.inj collects
      obtain rfl : rest = [] := by
        cases rest with
        | nil => rfl
        | cons t rest => cases linked.1
      exact ⟨[], [], rfl, .stop _ _ [] fun some_ => absurd rfl some_⟩
    | some t =>
      cases rest with
      | nil => cases linked
      | cons first rest =>
        obtain ⟨same, node, here, later⟩ := linked
        obtain rfl := some.inj same
        obtain ⟨once, distinct⟩ := nodup_cons.mp distinct
        unfold collectExpired at collects
        simp only [here, bind_eq_bind, bind_some] at collects
        split at collects
        · rename_i reached
          have isExpired_ : isExpired elpasedMs heap t = true := by
            rw [isExpired, timerOf, here]
            exact decide_eq_true reached
          obtain ⟨moved, same, behind, collects⟩ : ∃ moved,
              (∀ other, timerOf moved other = timerOf heap other) ∧ Linked moved node.next rest ∧
              (if (expired ++ [t]).length = expiryHandlingNum then some (expired ++ [t], 0, moved)
              else collectExpired elpasedMs steps previous
              (expired ++ [t]) nearest node.next moved) = some (noted, timeout, final) := by
            cases previous with
            | none => exact ⟨heap, fun _ => rfl, later, collects⟩
            | some p =>
              obtain ⟨before, there, collects⟩ := bind_eq_some_iff.mp collects
              have notHere : t ≠ p := fun same : t = p => apart p rfl (same ▸ mem_cons_self)
              rw [update_of_ne notHere, here] at collects
              refine ⟨_, timerOf_write there { before with next := node.next } rfl,
                later.frame fun other member => ?_, collects⟩
              rw [update_of_ne fun same : other = p => apart p rfl
                (mem_cons_of_mem _ (same ▸ member))]
          split at collects
          · rename_i full
            obtain ⟨rfl, rfl, rfl⟩ := some.inj collects
            exact ⟨[t], rest, rfl, (Walked.stop _ _ rest fun _ => full).take isExpired_ same room⟩
          · rename_i notFull
            have roomStill : (expired ++ [t]).length < expiryHandlingNum := by
              rw [length_append, length_singleton] at notFull ⊢
              omega
            obtain ⟨front, back, whole, walked⟩ := ih collects behind distinct
              (fun p isPrevious member => apart p isPrevious (mem_cons_of_mem _ member)) roomStill
            exact ⟨t :: front, back, congrArg (t :: ·) whole, walked.take isExpired_ same room⟩
        · rename_i notOver
          have left : isExpired elpasedMs heap t = false := by
            rw [isExpired, timerOf, here]
            exact decide_eq_false notOver
          have behind : Linked
              (update heap t (some { node with retransTimer := node.retransTimer - elpasedMs }))
              node.next rest := by
            refine later.frame fun other member => ?_
            rw [update_of_ne fun same : other = t => once (same ▸ member)]
          obtain ⟨front, back, whole, walked⟩ := ih collects behind distinct
            (fun p isPrevious member => once (some.inj isPrevious ▸ member)) room
          refine ⟨t :: front, back, congrArg (t :: ·) whole, walked.pass left ?_ ?_ ?_ room⟩
          · rw [timerOf, update_self, timerOf, here, map_some, map_some, map_some,
              countDown, if_neg notOver]
          · intro other different
            rw [timerOf, update_of_ne different, timerOf]
          · exact fun member => once (whole ▸ mem_append_left back member)

/-- The second loop gives every expired transaction that stays the whole interval, and leaves
the others alone. -/
theorem resendExpired_timers {callbacks : Nat → Script}
    (time : ∀ t, (callbacks t).At ctx.lastChecktime) (intact : Intact limbo ctx)
    (distinct : expired.Nodup)
    (live : ∀ t ∈ expired, (ctx.transactionHeap t).isSome) (start : base ≤ ctx.nextAddress)
    (older : ∀ t ∈ expired, t < base) (fresh : Fresh base ctx) {nearest timeout : UInt32}
    (resends : resendExpired (fun t => runScript (callbacks t) []) expired nearest ctx =
      some (timeout, after)) : after.lastChecktime = ctx.lastChecktime ∧ Fresh base after ∧
    (∀ t < base, t ∉ expired → timerOf after.transactionHeap t = timerOf ctx.transactionHeap t) ∧
    (∀ t ∈ expired, ∀ node, after.transactionHeap t = some node →
      node.retransTimer = ctx.defaultRetransMs ∧ ∃ event ∈ resendEvents callbacks expired ctx,
      event.transaction = t ∧ event.datagram.isSome) ∧ ∀ event ∈ resendEvents callbacks expired ctx,
    event.transaction ∈ expired ∨ base ≤ event.transaction := by
  induction expired generalizing limbo ctx nearest with
  | nil =>
    obtain ⟨-, rfl⟩ := Prod.mk.inj (some.inj resends)
    exact ⟨rfl, fresh, fun _ _ _ => rfl, fun _ member => (by cases member),
      fun _ member => (by cases member)⟩
  | cons t rest ih =>
    obtain ⟨notAgain, distinct⟩ := nodup_cons.mp distinct
    obtain ⟨⟨freed, sent⟩, sends, resends⟩ := bind_eq_some_iff.mp resends
    have harmless := harmless_runScript (callbacks t)
    have emits : EmitsEvents (runScript (callbacks t) []) (scriptEvents (callbacks t) []) :=
      runScript_emits (callbacks t) []
    obtain ⟨freed', sent', sends', elsewhere, goes, stays⟩ :=
      intact.coapSendTransaction harmless (live t mem_cons_self)
    rw [sends'] at sends
    obtain ⟨rfl, rfl⟩ := Prod.mk.inj (some.inj sends)
    obtain ⟨stamp, others, whole, beyond⟩ := coapSendTransaction_timers intact harmless emits
      (timeless_runScript (callbacks t) (time t)) sends'
    have retransMs := (coapSendTransaction_emits emits sends').retransMs
    have freshSent : Fresh base sent' := by
      intro other node least here
      rcases Nat.lt_or_ge other ctx.nextAddress with there | new
      · refine fresh.keep least (others other there fun same => ?_) retransMs here
        exact Nat.not_lt_of_le least (same ▸ older t mem_cons_self)
      · exact beyond other node new here
    have alive : ∀ other ∈ rest, (sent'.transactionHeap other).isSome := by
      intro other member
      have before := live other (mem_cons_of_mem _ member)
      have different : other ≠ t := fun same => notAgain (same ▸ member)
      rw [elsewhere.isSome ⟨intact.transaction_lt before, different⟩]
      exact before
    have olderRest : ∀ other ∈ rest, other < base :=
      fun other member => older other (mem_cons_of_mem _ member)
    -- the rest of the loop, from the context that is left for it
    have finish : ∀ {limbo' : Set Nat} {left : PointerContext} {nearest' : UInt32},
        Intact limbo' left → SameTimers Set.univ sent' left →
        left.defaultRetransMs = sent'.defaultRetransMs → sent'.nextAddress ≤ left.nextAddress →
        (∀ other ∈ rest, (left.transactionHeap other).isSome) → resendExpired
        (fun t => runScript (callbacks t) []) rest nearest' left = some (timeout, after) →
        resendEvents callbacks (t :: rest) ctx = sendEvents (scriptEvents (callbacks t) []) t ctx ++
        resendEvents callbacks rest left →
        after.lastChecktime = ctx.lastChecktime ∧ Fresh base after ∧
        (∀ other < base, other ∉ t :: rest →
        timerOf after.transactionHeap other = timerOf ctx.transactionHeap other) ∧
        (∀ other ∈ t :: rest, ∀ node, after.transactionHeap other = some node →
        node.retransTimer = ctx.defaultRetransMs ∧ ∃ event ∈ resendEvents callbacks (t :: rest) ctx,
        event.transaction = other ∧ event.datagram.isSome) ∧
        ∀ event ∈ resendEvents callbacks (t :: rest) ctx, event.transaction ∈ t :: rest ∨
        base ≤ event.transaction := by
      intro limbo' left nearest' intactLeft same sameMs grows liveLeft resends splits
      have freshLeft : Fresh base left := fun other node least here =>
        freshSent.keep least (same.timers other (Set.mem_univ other)) sameMs here
      obtain ⟨stampAfter, freshAfter, othersAfter, resentAfter, eventsAfter⟩ := ih
        (fun other => (same.checktime.trans stamp).symm ▸ time other) intactLeft distinct liveLeft
        (Nat.le_trans start (Nat.le_trans elsewhere.nextAddress grows)) olderRest freshLeft resends
      refine ⟨stampAfter.trans (same.checktime.trans stamp), freshAfter,
        fun other lower outside => ?_, fun other member node here => ?_, ?_⟩
      · have different : other ≠ t := fun same => outside (same ▸ mem_cons_self)
        rw [othersAfter other lower fun member => outside (mem_cons_of_mem _ member),
          same.timers other (Set.mem_univ other)]
        exact others other (Nat.lt_of_lt_of_le lower start) different
      · rw [splits]
        rcases mem_cons.mp member with rfl | later
        · have timer := (othersAfter other (older other mem_cons_self) notAgain).trans
            (same.timers other (Set.mem_univ other))
          rw [timerOf, timerOf, here, map_some] at timer
          obtain ⟨before, there, equal⟩ := map_eq_some_iff.mp timer.symm
          obtain ⟨isWhole, event⟩ := whole before there
          exact ⟨equal ▸ isWhole, _, mem_append_left _ event, rfl, rfl⟩
        · obtain ⟨isWhole, event, inEvents, about⟩ := resentAfter other later node here
          exact ⟨isWhole.trans (sameMs.trans retransMs), event, mem_append_right _ inEvents, about⟩
      · rw [splits]
        intro event member
        rcases mem_append.mp member with own | later
        · rcases sendEvents_own intact (owns_scriptEvents (callbacks t)) own with same | new
          · exact .inl (same ▸ mem_cons_self)
          · exact .inr (Nat.le_trans start new)
        · exact (eventsAfter event later).imp (mem_cons_of_mem _) id
    cases freed' with
    | true =>
      refine finish (goes rfl) (.refl _ _) rfl (Nat.le_refl _) alive resends ?_
      rw [resendEvents, sends']
      rfl
    | false =>
      obtain ⟨added, adds, resends⟩ := bind_eq_some_iff.mp resends
      obtain ⟨node, -, resends⟩ := bind_eq_some_iff.mp resends
      obtain ⟨intactSent, aliveSent⟩ := stays rfl
      obtain ⟨added', adds', intactAdded, keeps⟩ := intactSent.addTransaction aliveSent
      rw [adds'] at adds
      obtain rfl := some.inj adds
      refine finish intactAdded (addTransaction_timers intactSent aliveSent adds')
        (addTransaction_emits adds').retransMs keeps.nextAddress ?_ resends ?_
      · intro other member
        rw [keeps.isSome (Set.mem_univ other)]
        exact alive other member
      · rw [resendEvents, sends']
        simp only [bind_some, Bool.false_eq_true, if_false, adds', map_some, getD_some]

/-- What a check does to the timers of the transactions it walked over, and to those behind
them. -/
structure Checked (now : UInt32) (callbacks : Nat → Script) (ctx after : PointerContext)
    (front back : List Nat) : Prop where
  linked : Linked ctx.transactionHeap ctx.transactions (front ++ back)
  live : ∀ t, (ctx.transactionHeap t).isSome ↔ t ∈ front ++ back
  early : ∀ passed t behind, front = passed ++ t :: behind →
    (passed.filter (isExpired (getElpasedMs now ctx.lastChecktime) ctx.transactionHeap)).length <
    expiryHandlingNum
  stops : back ≠ [] →
    (front.filter (isExpired (getElpasedMs now ctx.lastChecktime) ctx.transactionHeap)).length =
    expiryHandlingNum
  checktime : after.lastChecktime = now
  retransMs : after.defaultRetransMs = ctx.defaultRetransMs
  fresh : Fresh ctx.nextAddress after
  resent : ∀ t ∈ front,
    isExpired (getElpasedMs now ctx.lastChecktime) ctx.transactionHeap t = true →
    ∀ node, after.transactionHeap t = some node → node.retransTimer = ctx.defaultRetransMs ∧
    (TimerCall.checkTransactions callbacks).sends now t ctx = true
  counted : ∀ t ∈ front,
    isExpired (getElpasedMs now ctx.lastChecktime) ctx.transactionHeap t = false →
    timerOf after.transactionHeap t =
    (timerOf ctx.transactionHeap t).map (countDown (getElpasedMs now ctx.lastChecktime)) ∧
    (TimerCall.checkTransactions callbacks).sends now t ctx = false
  behind : ∀ t ∈ back, timerOf after.transactionHeap t = timerOf ctx.transactionHeap t ∧
    (TimerCall.checkTransactions callbacks).sends now t ctx = false
  gone : ∀ t < ctx.nextAddress, t ∉ front ++ back → after.transactionHeap t = none

theorem checked_of_perform (intact : Intact ∅ ctx)
    {callbacks : Nat → Script} (time : ∀ t, (callbacks t).At now)
    (checks : ctx.perform (.checkTransactions now callbacks) = some after) :
    ∃ front back, Checked now callbacks ctx after front back := by
  obtain ⟨ts, listed⟩ := intact.transactions
  obtain ⟨noted, nearest, heap, limbo, collects, intactNoted, distinct, alive, -, -⟩ :=
    intact.collectExpired now
  have live : ∀ t, (ctx.transactionHeap t).isSome ↔ t ∈ ts := by
    intro t
    rw [listed.live]
    simp
  obtain ⟨front, back, rfl, walked⟩ := collectExpired_timers collects listed.linked listed.distinct
    (fun p isSome => absurd isSome (by simp)) (by decide)
  have taken : noted = front.filter
    (isExpired (getElpasedMs now ctx.lastChecktime) ctx.transactionHeap) := walked.taken
  obtain ⟨⟨timeout, final⟩, resends, result⟩ := map_eq_some_iff.mp checks
  obtain rfl : final = after := result
  unfold coapCheckTransactions at resends
  simp only [collects, bind_eq_bind, bind_some] at resends
  have older : ∀ t ∈ noted, t < ctx.nextAddress :=
    fun t member => intactNoted.transaction_lt (alive t member)
  obtain ⟨stamp, fresh, others, resent, events⟩ := resendExpired_timers time intactNoted distinct
    alive (Nat.le_refl _) older intactNoted.fresh_beyond resends
  have isSent : ∀ t, (TimerCall.checkTransactions callbacks).sends now t ctx = true ↔
      ∃ event ∈ resendEvents callbacks noted { ctx with
        lastChecktime := now
        transactionHeap := heap },
      event.transaction = t ∧ event.datagram.isSome := by
    intro t
    rw [TimerCall.sends, Operation.events, collects, map_some, getD_some, List.any_eq_true]
    simp only [decide_eq_true_eq]
  have unsent : ∀ t < ctx.nextAddress, t ∉ noted →
      (TimerCall.checkTransactions callbacks).sends now t ctx = false := by
    intro t older outside
    refine Bool.eq_false_iff.mpr fun sent => ?_
    obtain ⟨event, member, same, -⟩ := (isSent t).mp sent
    rcases events event member with among | new
    · exact outside (same ▸ among)
    · exact Nat.not_lt_of_le (same ▸ new) older
  have bounded : ∀ t ∈ front ++ back, t < ctx.nextAddress :=
    fun t member => intact.transaction_lt ((live t).mpr member)
  refine ⟨front, back, ⟨listed.linked, live, ?_, ?_, stamp, ?_, fresh, ?_, ?_, ?_, ?_⟩⟩
  · intro passed t later split
    have early := walked.early passed t later split
    rwa [length_nil, Nat.zero_add] at early
  · exact fun some_ => taken ▸ walked.stops some_
  · exact (perform_emits checks).retransMs
  · intro t member isExpired_ node here
    have inNoted : t ∈ noted := taken ▸ mem_filter.mpr ⟨member, isExpired_⟩
    obtain ⟨whole, event⟩ := resent t inNoted node here
    exact ⟨whole, (isSent t).mpr event⟩
  · intro t member left
    have outside : t ∉ noted := fun inNoted => by
      rw [taken, mem_filter, left] at inNoted
      cases inNoted.2
    have older := bounded t (mem_append_left back member)
    refine ⟨?_, unsent t older outside⟩
    rw [others t older outside, walked.timers t, if_pos ⟨member, left⟩]
  · intro t member
    have notFront : t ∉ front :=
      fun inFront => disjoint_of_nodup_append listed.distinct inFront member
    have outside : t ∉ noted := fun inNoted => by
      rw [taken, mem_filter] at inNoted
      exact notFront inNoted.1
    have older := bounded t (mem_append_right front member)
    refine ⟨?_, unsent t older outside⟩
    rw [others t older outside, walked.timers t, if_neg fun inside => notFront inside.1]
  · intro t older dead
    have outside : t ∉ noted := fun inNoted => by
      rw [taken, mem_filter] at inNoted
      exact dead (mem_append_left back inNoted.1)
    have empty : ctx.transactionHeap t = none :=
      not_isSome_iff_eq_none.mp fun isSome => dead ((live t).mp isSome)
    have timer := others t older outside
    rw [walked.timers t, if_neg fun inside => dead (mem_append_left back inside.1), timerOf,
      timerOf, empty] at timer
    exact map_eq_none_iff.mp timer

/-! ## Runs -/

theorem getElpasedMs_ofNat {earlier later : Nat}
    (inTime : earlier ≤ later) (measured : later < earlier + 2 ^ 32) :
    (getElpasedMs (UInt32.ofNat later) (UInt32.ofNat earlier)).toNat = later - earlier := by
  rw [getElpasedMs_eq, UInt32.toNat_sub, UInt32.toNat_ofNat', UInt32.toNat_ofNat']
  omega

namespace TimedContext

/-- What holds between calls. -/
structure Timed (state : TimedContext) : Prop where
  intact : Intact ∅ state.ctx
  checktime : state.ctx.lastChecktime = UInt32.ofNat state.clock
  past : ∀ t, state.sentAt t ≤ state.clock
  left : state.Exact

variable {state : TimedContext} {call : Nat × TimerCall} {callbacks : Nat → Script} {later : Nat}
  {timer : UInt32}

/-- Where there is a transaction, the list is not empty. -/
theorem Timed.nonempty (timed : state.Timed)
    (was : timerOf state.ctx.transactionHeap t = some timer) : state.ctx.transactions ≠ none := by
  obtain ⟨ts, listed⟩ := timed.intact.transactions
  obtain ⟨node, here, -⟩ := map_eq_some_iff.mp was
  intro empty
  have member := (listed.live t).mp (by rw [here]; rfl)
  have linked := listed.linked
  rw [empty] at linked
  have nothing : Linked state.ctx.transactionHeap none [] := rfl
  obtain rfl := linked.unique nothing
  rcases member with inList | inLimbo
  · cases inList
  · cases inLimbo

/-- What a timer is before a call. -/
theorem Timed.isLeft (timed : state.Timed)
    (was : timerOf state.ctx.transactionHeap t = some timer) :
    timer.toNat = state.ctx.defaultRetransMs.toNat - (state.clock - state.sentAt t) := by
  obtain ⟨node, here, rfl⟩ := map_eq_some_iff.mp was
  exact timed.left t node here

/-- What has passed by the clock. -/
theorem Timed.elapsed (timed : state.Timed)
    (was : timerOf state.ctx.transactionHeap t = some timer) (inTime : state.clock ≤ later)
    (measured : state.ctx.transactions ≠ none → later < state.clock + 2 ^ 32) :
    (getElpasedMs (UInt32.ofNat later) state.ctx.lastChecktime).toNat = later - state.clock := by
  rw [timed.checktime]
  exact getElpasedMs_ofNat inTime (measured (timed.nonempty was))

/-- A timer that is counted down is what is left later. -/
theorem Timed.countDown (timed : state.Timed)
    (was : timerOf state.ctx.transactionHeap t = some timer) (inTime : state.clock ≤ later)
    (measured : state.ctx.transactions ≠ none → later < state.clock + 2 ^ 32) :
    (countDown (getElpasedMs (UInt32.ofNat later) state.ctx.lastChecktime) timer).toNat =
      state.ctx.defaultRetransMs.toNat - (later - state.sentAt t) := by
  have past := timed.past t
  rw [countDown_toNat, timed.elapsed was inTime measured, timed.isLeft was]
  omega

/-- A call that counts the timers down loses nothing. -/
theorem Timed.exact_of_counted (timed : state.Timed) (inTime : state.clock ≤ later)
    (measured : state.ctx.transactions ≠ none → later < state.clock + 2 ^ 32) {sent : Nat → Nat}
    (retransMs : after.defaultRetransMs = state.ctx.defaultRetransMs)
    (counted : ∀ t timer, timerOf after.transactionHeap t = some timer →
      sent t = later ∧ timer = state.ctx.defaultRetransMs ∨ sent t = state.sentAt t ∧
      timerOf after.transactionHeap t = (timerOf state.ctx.transactionHeap t).map
      (PointerContext.countDown (getElpasedMs (UInt32.ofNat later) state.ctx.lastChecktime))) :
    Exact ⟨after, later, sent⟩ := by
  intro t node here
  have isTimer : timerOf after.transactionHeap t = some node.retransTimer := by
    rw [timerOf, here, map_some]
  change node.retransTimer.toNat = after.defaultRetransMs.toNat - (later - sent t)
  rw [retransMs]
  rcases counted t _ isTimer with ⟨now, whole⟩ | ⟨earlier, left⟩
  · rw [now, whole, Nat.sub_self, Nat.sub_zero]
  · rw [isTimer] at left
    obtain ⟨timer, was, equal⟩ := map_eq_some_iff.mp left.symm
    rw [earlier, ← equal]
    exact timed.countDown was inTime measured

/-- When the transactions were made or last sent, after a call. -/
def sentBy (call : Nat × TimerCall) (state : TimedContext) (t : Nat) : Nat :=
  if state.ctx.nextAddress ≤ t ∨ call.2.sends (UInt32.ofNat call.1) t state.ctx = true then call.1
    else state.sentAt t

theorem Timed.sentBy_earlier (timed : state.Timed)
    (was : timerOf state.ctx.transactionHeap t = some timer)
    (unsent : call.2.sends (UInt32.ofNat call.1) t state.ctx = false) :
    sentBy call state t = state.sentAt t := by
  obtain ⟨node, here, -⟩ := map_eq_some_iff.mp was
  have older := timed.intact.transaction_lt (t := t) (by rw [here]; rfl)
  rw [sentBy, if_neg]
  rintro (new | sent)
  · exact Nat.not_lt_of_le new older
  · rw [unsent] at sent
    cases sent

theorem Timed.sentBy_le (timed : state.Timed) (inTime : state.clock ≤ call.1) (t : Nat) :
    sentBy call state t ≤ call.1 := by
  unfold sentBy
  split
  · exact Nat.le_refl call.1
  · exact Nat.le_trans (timed.past t) inTime

/-- A check that has nothing behind it loses nothing. -/
theorem Timed.exact_of_checked (timed : state.Timed) (inTime : state.clock ≤ later)
    (measured : state.ctx.transactions ≠ none → later < state.clock + 2 ^ 32)
    (checked : Checked (UInt32.ofNat later) callbacks state.ctx after front back)
    (nothing : NothingBehind (UInt32.ofNat later) state.ctx) :
    Exact ⟨after, later, sentBy (later, .checkTransactions callbacks) state⟩ := by
  refine timed.exact_of_counted inTime measured checked.retransMs fun t timer isTimer => ?_
  obtain ⟨node, here, rfl⟩ := map_eq_some_iff.mp isTimer
  rcases Nat.lt_or_ge t state.ctx.nextAddress with older | new
  · have listed : t ∈ front ++ back := by
      by_contra dead
      rw [checked.gone t older dead] at here
      cases here
    rcases mem_append.mp listed with inFront | inBack
    · cases expires : isExpired (getElpasedMs (UInt32.ofNat later) state.ctx.lastChecktime)
        state.ctx.transactionHeap t with
      | true =>
        obtain ⟨whole, sent⟩ := checked.resent t inFront expires node here
        exact .inl ⟨if_pos (.inr sent), whole⟩
      | false =>
        obtain ⟨counted, unsent⟩ := checked.counted t inFront expires
        rw [counted] at isTimer
        obtain ⟨timer, was, -⟩ := map_eq_some_iff.mp isTimer
        exact .inr ⟨timed.sentBy_earlier was unsent, counted⟩
    · obtain ⟨same, unsent⟩ := checked.behind t inBack
      have was := same.symm.trans isTimer
      obtain ⟨passed, later', rfl⟩ := append_of_mem inBack
      have full := checked.stops (by simp)
      have linked := checked.linked
      rw [← append_assoc] at linked
      refine .inr ⟨timed.sentBy_earlier was unsent, same.trans ?_⟩
      have stays : PointerContext.countDown (getElpasedMs (UInt32.ofNat later)
          state.ctx.lastChecktime) node.retransTimer = node.retransTimer := by
        have tenBefore : expiryHandlingNum ≤ ((front ++ passed).filter (isExpired (getElpasedMs
            (UInt32.ofNat later) state.ctx.lastChecktime) state.ctx.transactionHeap)).length := by
          rw [filter_append, length_append, full]
          exact Nat.le_add_right ..
        rcases nothing (front ++ passed) t later' linked tenBefore with still | out
        · rw [still, countDown_zero]
        · rw [was] at out
          rw [some.inj out]
          apply UInt32.toNat_inj.mp
          rw [countDown_toNat]
          exact Nat.zero_sub _
      rw [was, map_some, stays]
  · exact .inl ⟨if_pos (.inl new), (checked.fresh t node new here).trans checked.retransMs⟩

/-- A check loses what has passed of the transactions that it does not get to. -/
theorem Timed.nothingBehind_of_exact (timed : state.Timed) (inTime : state.clock ≤ later)
    (measured : state.ctx.transactions ≠ none → later < state.clock + 2 ^ 32)
    (checked : Checked (UInt32.ofNat later) callbacks state.ctx after front back)
    (kept : Exact ⟨after, later, sentBy (later, .checkTransactions callbacks) state⟩) :
    NothingBehind (UInt32.ofNat later) state.ctx := by
  intro before t rest linked full
  have split := checked.linked.unique linked
  have inBack : t ∈ back := by
    rcases append_eq_append_iff.mp split with ⟨more, isBefore, isBack⟩ | ⟨more, isFront, isRest⟩
    · rw [isBack]
      exact mem_append_right _ mem_cons_self
    · cases more with
      | nil =>
        rw [← nil_append back, ← isRest]
        exact mem_cons_self
      | cons first more =>
        obtain ⟨rfl, -⟩ := List.cons.inj isRest
        exact absurd (checked.early before t more isFront) (Nat.not_lt_of_le full)
  obtain ⟨same, unsent⟩ := checked.behind t inBack
  obtain ⟨node, here⟩ := isSome_iff_exists.mp ((checked.live t).mpr (mem_append_right front inBack))
  have was : timerOf state.ctx.transactionHeap t = some node.retransTimer := by
    rw [timerOf, here, map_some]
  obtain ⟨written, there, equal⟩ := map_eq_some_iff.mp (same.trans was)
  have left := kept t written there
  have timer := timed.isLeft was
  have elapsed := timed.elapsed was inTime measured
  have past := timed.past t
  change written.retransTimer.toNat = after.defaultRetransMs.toNat -
    (later - sentBy (later, .checkTransactions callbacks) state t) at left
  rw [checked.retransMs, timed.sentBy_earlier was unsent, equal] at left
  by_cases still : later = state.clock
  · left
    apply UInt32.toNat_inj.mp
    rw [elapsed, still, Nat.sub_self]
    rfl
  · right
    have out : node.retransTimer = 0 := by
      apply UInt32.toNat_inj.mp
      rw [show (0 : UInt32).toNat = 0 from rfl]
      omega
    rw [was, out]

/-- Every call has a result, and the timers are right after it exactly when it loses nothing. -/
theorem Timed.perform (timed : state.Timed) (inTime : state.InTime call)
    (measured : state.Measured call) : ∃ after, state.perform call = some after ∧
    (Intact ∅ after.ctx ∧ after.ctx.lastChecktime = UInt32.ofNat after.clock ∧
      ∀ t, after.sentAt t ≤ after.clock) ∧ (after.Exact ↔ state.LosesNothing call) := by
  obtain ⟨later, call⟩ := call
  obtain ⟨forward, atOnce⟩ := inTime
  cases call with
  | newTransaction mid packet =>
    obtain ⟨made, makes, intactMade, -⟩ :=
      timed.intact.coapNewTransaction (UInt32.ofNat later) mid packet
    obtain ⟨-, stamp, new, counted, -⟩ := coapNewTransaction_timers timed.intact makes
    refine ⟨⟨made, later, sentBy (later, .newTransaction mid packet)
      state⟩, by rw [TimedContext.perform, TimerCall.run, PointerContext.perform, makes]; rfl,
      ⟨intactMade, stamp, timed.sentBy_le forward⟩,
      iff_of_true ?_ fun callbacks isCheck => by cases isCheck⟩
    refine timed.exact_of_counted forward measured (coapNewTransaction_emits makes).retransMs
      fun t timer isTimer => ?_
    by_cases isNew : t = state.ctx.nextAddress
    · subst isNew
      exact .inl ⟨if_pos (.inl (Nat.le_refl _)), some.inj (isTimer.symm.trans new)⟩
    · have same := counted t (Set.notMem_empty t) isNew
      rw [same] at isTimer
      obtain ⟨timer, was, -⟩ := map_eq_some_iff.mp isTimer
      exact .inr ⟨timed.sentBy_earlier was rfl, same⟩
  | updateTransactions =>
    obtain ⟨updated, updates, intactUpdated, -⟩ :=
      timed.intact.coapUpdateTransactions (UInt32.ofNat later)
    obtain ⟨stamp, -, counted, -⟩ := coapUpdateTransactions_timers timed.intact updates
    refine ⟨⟨updated, later, sentBy (later, .updateTransactions)
      state⟩, by rw [TimedContext.perform, TimerCall.run, updates]; rfl, ⟨intactUpdated, stamp,
      timed.sentBy_le forward⟩, iff_of_true ?_ fun callbacks isCheck => by cases isCheck⟩
    refine timed.exact_of_counted forward measured (coapUpdateTransactions_emits updates).retransMs
      fun t timer isTimer => ?_
    have same := counted t (Set.notMem_empty t)
    rw [same] at isTimer
    obtain ⟨timer, was, -⟩ := map_eq_some_iff.mp isTimer
    exact .inr ⟨timed.sentBy_earlier was rfl, same⟩
  | checkTransactions callbacks =>
    have time := atOnce callbacks rfl
    have permitted :
      Permitted state.ctx (.checkTransactions (UInt32.ofNat later) callbacks) := trivial
    obtain ⟨after, checks, intactAfter⟩ := timed.intact.perform permitted
    obtain ⟨front, back, checked⟩ := checked_of_perform timed.intact time checks
    refine ⟨⟨after, later, sentBy (later, .checkTransactions callbacks)
      state⟩, by rw [TimedContext.perform, TimerCall.run, checks]; rfl,
      ⟨intactAfter, checked.checktime, timed.sentBy_le forward⟩, ?_⟩
    constructor
    · intro kept callbacks' isCheck
      exact timed.nothingBehind_of_exact forward measured checked kept
    · exact fun nothing => timed.exact_of_checked forward measured checked (nothing callbacks rfl)

end TimedContext

namespace TimedContext

theorem timed_new (defaultRetransMs : UInt32) (defaultRetransCnt : UInt16) :
    Timed (new defaultRetransMs defaultRetransCnt) where
  intact := intact_new defaultRetransMs defaultRetransCnt
  checktime := rfl
  past := fun _ => Nat.le_refl 0
  left := fun t node here => by cases here

/-- A call as the timers need it. -/
def KeepsTime (state : TimedContext) (call : Nat × TimerCall) : Prop :=
  state.InTime call ∧ state.Measured call ∧ state.LosesNothing call

theorem Timed.of_runs {defaultRetransMs : UInt32} {defaultRetransCnt : UInt16}
    {calls : List (Nat × TimerCall)} (runs : RunsUnder TimedContext.perform KeepsTime
      (new defaultRetransMs defaultRetransCnt) calls state) : state.Timed := by
  refine runs.keeps ?_ (timed_new _ _)
  intro before after call timed keepsTime performed
  obtain ⟨inTime, measured, loses⟩ := keepsTime
  obtain ⟨next, performs, ⟨intact, checktime, past⟩, exact_iff⟩ := timed.perform inTime measured
  rw [performs] at performed
  obtain rfl := some.inj performed
  exact ⟨intact, checktime, past, exact_iff.mpr loses⟩

/-- While calls take from every timer what has passed, all timers are right; the next call in
time leaves them right exactly when it takes from every timer as well. -/
theorem exact_of_runs {defaultRetransMs : UInt32} {defaultRetransCnt : UInt16}
    {calls : List (Nat × TimerCall)} (runs : RunsUnder TimedContext.perform KeepsTime
      (new defaultRetransMs defaultRetransCnt) calls state)
    (inTime : state.InTime call) (measured : state.Measured call) : state.Exact ∧ ∃ after,
    state.perform call = some after ∧ (after.Exact ↔ state.LosesNothing call) := by
  have timed := Timed.of_runs runs
  obtain ⟨after, performs, -, exact_iff⟩ := timed.perform inTime measured
  exact ⟨timed.left, after, performs, exact_iff⟩

theorem exact_of_runs_two : ∃ state : TimedContext, RunsUnder TimedContext.perform KeepsTime
      (new 2000 4) [(100, .newTransaction 1 [0x40]), (600, .updateTransactions)] state ∧
    state.InTime (2200, .checkTransactions fun _ => .done) ∧
    state.Measured (2200, .checkTransactions fun _ => .done) ∧
    state.Exact ∧ ∃ after, state.perform (2200, .checkTransactions fun _ => .done) = some after ∧
    (after.Exact ↔ state.LosesNothing (2200, .checkTransactions fun _ => .done)) := by
  obtain ⟨state, runs, clock⟩ : ∃ state : TimedContext, RunsUnder TimedContext.perform KeepsTime
      (new 2000 4) [(100, .newTransaction 1 [0x40]), (600, .updateTransactions)] state ∧
      state.clock = 600 := by
    refine ⟨_, .call ⟨⟨Nat.zero_le _, ?_⟩, ?_,
      ?_⟩ rfl (.call ⟨⟨?_, ?_⟩, ?_, ?_⟩ rfl (.done _)), rfl⟩
    · exact fun callbacks isCheck => by cases isCheck
    · exact fun _ => by decide
    · exact fun callbacks isCheck => by cases isCheck
    · decide
    · exact fun callbacks isCheck => by cases isCheck
    · exact fun _ => by decide
    · exact fun callbacks isCheck => by cases isCheck
  have inTime : state.InTime (2200, .checkTransactions fun _ => .done) := by
    refine ⟨clock ▸ by decide, fun callbacks isCheck t => ?_⟩
    obtain rfl := TimerCall.checkTransactions.inj isCheck
    trivial
  have measured : state.Measured (2200, .checkTransactions fun _ => .done) :=
    fun _ => clock ▸ by decide
  exact ⟨state, runs, inTime, measured, exact_of_runs runs inTime measured⟩

/-- A run is in time whose calls are in order, and whose callbacks take none. -/
theorem runs_inTime {calls : List (Nat × TimerCall)}
    {final : TimedContext} (ran : runAll TimedContext.perform calls state = some final)
    (ordered : (state.clock :: calls.map (·.1)).IsChain (· ≤ ·))
    (atOnce : ∀ call ∈ calls, ∀ callbacks, call.2 = .checkTransactions callbacks →
      ∀ t, (callbacks t).At (UInt32.ofNat call.1)) :
    RunsUnder TimedContext.perform InTime state calls final := by
  induction calls generalizing state with
  | nil =>
    obtain rfl := some.inj ran
    exact .done state
  | cons call rest ih =>
    obtain ⟨next, performs, ran⟩ := bind_eq_some_iff.mp ran
    obtain ⟨inOrder, ordered⟩ := isChain_cons_cons.mp ordered
    obtain ⟨here, behind⟩ := forall_mem_cons.mp atOnce
    obtain ⟨ctx, -, made⟩ := map_eq_some_iff.mp performs
    have clock : next.clock = call.1 := made ▸ rfl
    exact .call ⟨inOrder, here⟩ performs (ih ran (clock ▸ ordered) behind)

/-- Ten transactions run out, and an eleventh that was made a second later has half of its
interval left. The check that finds the ten leaves it the whole. -/
def elevenCalls : List (Nat × TimerCall) :=
  (List.range 10).map (fun i => (0, .newTransaction (UInt16.ofNat i) [0x40])) ++
    [(1000, .newTransaction 10 [0x40]), (2000, .checkTransactions fun _ => .done)]

theorem exact_fails : ∃ state,
    RunsUnder TimedContext.perform InTime (new 2000 4) elevenCalls state ∧ ¬ state.Exact := by
  have lost : ((runAll TimedContext.perform elevenCalls (new 2000 4)).bind fun state =>
      (state.ctx.transactionHeap 10).map fun node => (node.retransTimer, state.ctx.defaultRetransMs,
      state.clock, state.sentAt 10)) = some (2000, 2000, 2000, 1000) := by
    decide +kernel
  obtain ⟨state, ran, lost⟩ := bind_eq_some_iff.mp lost
  obtain ⟨node, here, figures⟩ := map_eq_some_iff.mp lost
  obtain ⟨timer, retransMs, clock, sentAt⟩ : node.retransTimer = 2000 ∧
      state.ctx.defaultRetransMs = 2000 ∧ state.clock = 2000 ∧ state.sentAt 10 = 1000 := by
    simpa using figures
  refine ⟨state, runs_inTime ran (by decide) ?_, fun kept => ?_⟩
  · intro call member callbacks isCheck t
    rcases mem_append.mp member with first | last
    · obtain ⟨i, -, rfl⟩ := List.mem_map.mp first
      cases isCheck
    · rcases mem_pair.mp last with rfl | rfl
      · cases isCheck
      · obtain rfl := TimerCall.checkTransactions.inj isCheck
        trivial
  · have left := kept 10 node here
    rw [timer, retransMs, clock, sentAt] at left
    exact absurd left (by decide)

end TimedContext

end PointerContext

end Idrm.Coap
