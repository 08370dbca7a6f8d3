import Idrm.Coap.Transmissions

/-!
# The budget of retransmissions

A transaction is to be sent as often as its context says, and then given up: the callback of
its request is told so, and both are freed. The counter has 8 bits and the default it is
compared with has 16: from 256 on the counter never gets there.

`Account` ties the events of a transaction to its counter, over every run of calls. While a
transaction is given up its account is set `aside`: its callback may run other transactions.
-/

namespace Idrm.Coap

open Idrm.Lib Function Option
open List hiding map_map

namespace PointerContext

/-- The events that are about a transaction. -/
def about (t : Nat) (events : List TransactionEvent) : List TransactionEvent :=
  events.filter fun event => event.transaction = t

/-- A transaction is sent as often as it may be at most. If its callback is told that it timed
out, that is once, behind all of its transmissions, and then it is freed with its request. -/
def WithinBudget (cnt : UInt16) (t : Nat) (events : List TransactionEvent)
    (ctx : PointerContext) : Prop :=
  ∃ packet sent, sent ≤ cnt.toNat ∧
    (about t events = List.replicate sent (.transmitted t packet) ∨ sent = cnt.toNat ∧ ∃ r,
    about t events = List.replicate sent (.transmitted t packet) ++ [.timedOut t r] ∧
    ctx.transactionHeap t = none ∧ ctx.requestHeap r = none)

/-- The events of a transaction, as far as its counter tells them. -/
structure Account (cnt : UInt16) (t : Nat) (events : List TransactionEvent)
    (ctx : PointerContext) : Prop where
  budget : WithinBudget cnt t events ctx
  alive : ∀ node, ctx.transactionHeap t = some node →
    about t events = List.replicate node.retransCounter.toNat (.transmitted t node.packet) ∧
    node.retransCounter.toNat ≤ cnt.toNat ∧
    (isConfirmable node.packet = false → node.retransCounter = 0)
  unborn : ctx.nextAddress ≤ t → about t events = []
  known : ∀ r, .timedOut t r ∈ events → r < ctx.nextAddress

/-- All accounts are settled, but for those set aside. -/
structure Balanced (cnt : UInt16) (aside : Set Nat) (events : List TransactionEvent)
    (ctx : PointerContext) : Prop where
  retransCnt : ctx.defaultRetransCnt = cnt
  accounts : ∀ t ∉ aside, Account cnt t events ctx

/-! ## What leaves an account alone -/

/-- What an account reads of its transaction. -/
def transactionKey (node : TransactionNode) : UInt8 × List UInt8 :=
  (node.retransCounter, node.packet)

/-- Nothing is freed twice, nor made where something was. -/
structure Forward (before after : PointerContext) : Prop where
  nextAddress : before.nextAddress ≤ after.nextAddress
  freed : ∀ r < before.nextAddress, before.requestHeap r = none → after.requestHeap r = none

variable {cnt : UInt16} {ctx after : PointerContext} {limbo aside ts rs : Set Nat} {t r : Nat}
  {past more : List TransactionEvent}
  {callback : PointerContext → Option PointerContext}
  {events : PointerContext → List TransactionEvent}

theorem about_append (t : Nat) (front back : List TransactionEvent) :
    about t (front ++ back) = about t front ++ about t back :=
  filter_append front back

theorem about_own (event : TransactionEvent) :
    about event.transaction [event] = [event] := by simp [about]

theorem about_other {event : TransactionEvent} (other : event.transaction ≠ t) :
    about t [event] = [] := by simp [about, other]

theorem mem_about {event : TransactionEvent} (member : event ∈ more) :
    event ∈ about event.transaction more :=
  mem_filter.mpr ⟨member, decide_eq_true rfl⟩

theorem Forward.refl (ctx : PointerContext) : Forward ctx ctx :=
  ⟨Nat.le_refl _, fun _ _ gone => gone⟩

/-- What leaves the freed requests alone goes forward. -/
theorem Keeps.forward (keeps : Keeps ts rs ctx after)
    (freed : ∀ r < ctx.nextAddress, ctx.requestHeap r = none → r ∈ rs) : Forward ctx after := by
  refine ⟨keeps.nextAddress, fun r below gone => ?_⟩
  have same := keeps.requests r (freed r below gone)
  rw [gone] at same
  exact map_eq_none_iff.mp same

theorem Keeps.key (keeps : Keeps ts rs ctx after) (member : t ∈ ts) :
    (after.transactionHeap t).map transactionKey = (ctx.transactionHeap t).map transactionKey := by
  have same := congrArg (Option.map transactionKey) (keeps.transactions t member)
  rw [map_map, map_map] at same
  exact same

/-- The request of a transaction is there, so a freed one belongs to none. -/
theorem Intact.freed_unlinked (intact : Intact limbo ctx) (t : Nat)
    (gone : ctx.requestHeap r = none) : requestOf ctx.transactionHeap t ≠ some r := by
  intro linked
  have live := intact.request_live linked
  rw [gone] at live
  cases live

theorem Account.frame (account : Account cnt t past ctx) (more : List TransactionEvent)
    (forward : Forward ctx after) (key : (after.transactionHeap t).map transactionKey =
      (ctx.transactionHeap t).map transactionKey) (quiet : about t more = []) :
    Account cnt t (past ++ more) after := by
  have same : about t (past ++ more) = about t past := by rw [about_append, quiet, append_nil]
  refine ⟨?_, ?_, ?_, ?_⟩
  · obtain ⟨packet, sent, bound, sends | ⟨all, r, sends, gone, freed⟩⟩ := account.budget
    · exact ⟨packet, sent, bound, .inl (same.trans sends)⟩
    · refine ⟨packet, sent, bound, .inr ⟨all, r, same.trans sends, ?_, ?_⟩⟩
      · rw [gone] at key
        exact map_eq_none_iff.mp key
      · have told : TransactionEvent.timedOut t r ∈ about t past := by
          rw [sends]
          exact mem_append_right _ mem_cons_self
        exact forward.freed r (account.known r (mem_filter.mp told).1) freed
  · intro node here
    rw [here] at key
    obtain ⟨before, there, sameKey⟩ := map_eq_some_iff.mp key.symm
    obtain ⟨counter, packet⟩ := Prod.mk.inj sameKey
    rw [same, ← counter, ← packet]
    exact account.alive before there
  · intro unborn
    exact same.trans (account.unborn (Nat.le_trans forward.nextAddress unborn))
  · intro r member
    rcases mem_append.mp member with earlier | new
    · exact Nat.lt_of_lt_of_le (account.known r earlier) forward.nextAddress
    · have told := mem_about new
      rw [show (TransactionEvent.timedOut t r).transaction = t from rfl, quiet] at told
      cases told

/-- A transaction that is freed keeps its account. -/
theorem Account.gone (account : Account cnt t past ctx) (live : (ctx.transactionHeap t).isSome)
    (bounded : t < ctx.nextAddress) (forward : Forward ctx after)
    (gone : after.transactionHeap t = none) : Account cnt t past after := by
  obtain ⟨node, here⟩ := isSome_iff_exists.mp live
  obtain ⟨sends, bound, -⟩ := account.alive node here
  refine ⟨⟨node.packet, _, bound, .inl sends⟩, ?_, ?_, ?_⟩
  · intro node still
    rw [gone] at still
    cases still
  · intro unborn
    exact absurd (Nat.lt_of_lt_of_le bounded forward.nextAddress) (Nat.not_lt_of_le unborn)
  · intro r member
    exact Nat.lt_of_lt_of_le (account.known r member) forward.nextAddress

/-- A freed request is gone, and its transaction keeps its counter and its packet. -/
theorem freeOngoingRequest_gone (frees : ctx.freeOngoingRequest r = some after) :
    after.requestHeap r = none ∧ ∀ t,
    (after.transactionHeap t).map transactionKey = (ctx.transactionHeap t).map transactionKey := by
  obtain ⟨removed, removes, frees⟩ := bind_eq_some_iff.mp frees
  obtain ⟨taken, -, result⟩ := bind_eq_some_iff.mp removes
  obtain rfl := some.inj result
  obtain ⟨node, -, frees⟩ := bind_eq_some_iff.mp frees
  cases isTransaction : node.transaction with
  | none =>
    rw [isTransaction] at frees
    obtain rfl := some.inj frees
    exact ⟨update_self .., fun _ => rfl⟩
  | some t =>
    rw [isTransaction] at frees
    obtain ⟨transaction, here, result⟩ := bind_eq_some_iff.mp frees
    obtain rfl := some.inj result
    refine ⟨update_self .., fun other => ?_⟩
    by_cases same : other = t
    · subst same
      have there : ctx.transactionHeap other = some transaction := here
      simp [setTransaction, there, transactionKey]
    · exact congrArg (Option.map transactionKey) (update_of_ne same ..)

/-- The request of a transaction is freed. -/
theorem dropRequest_gone (linked : requestOf ctx.transactionHeap t = some r)
    (drops : ctx.dropRequest t = some after) : after.requestHeap r = none := by
  obtain ⟨node, here, drops⟩ := bind_eq_some_iff.mp drops
  have isRequest : node.ongoingRequest = some r := by
    rw [requestOf, here] at linked
    exact linked
  rw [isRequest] at drops
  obtain ⟨freed, frees, drops⟩ := bind_eq_some_iff.mp drops
  obtain ⟨node, -, result⟩ := bind_eq_some_iff.mp drops
  obtain rfl := some.inj result
  exact (freeOngoingRequest_gone frees).1

theorem Balanced.aside_mono {more : Set Nat} (balanced : Balanced cnt aside past ctx)
    (least : aside ⊆ more) : Balanced cnt more past ctx :=
  ⟨balanced.retransCnt, fun t outside => balanced.accounts t fun member => outside (least member)⟩

/-- Accounts stay settled where counters and packets stay. -/
theorem Balanced.frame (balanced : Balanced cnt aside past ctx)
    (more : List TransactionEvent) (forward : Forward ctx after)
    (retransCnt : after.defaultRetransCnt = ctx.defaultRetransCnt) (keys : ∀ t ∉ aside,
      (after.transactionHeap t).map transactionKey = (ctx.transactionHeap t).map transactionKey)
    (quiet : ∀ t ∉ aside, about t more = []) : Balanced cnt aside (past ++ more) after :=
  ⟨retransCnt.trans balanced.retransCnt, fun t outside =>
    (balanced.accounts t outside).frame more forward (keys t outside) (quiet t outside)⟩

/-! ## Calls without events -/

/-- A new transaction has not been sent yet. -/
theorem Balanced.coapNewTransaction (balanced : Balanced cnt aside past ctx)
    (intact : Intact limbo ctx) {now : UInt32} {mid : UInt16} {packet : List UInt8}
    (makes : ctx.coapNewTransaction now mid packet = some (t, after)) :
    Balanced cnt aside past after := by
  obtain ⟨made, makes', -, keeps, later, node⟩ := intact.coapNewTransaction now mid packet
  rw [makes'] at makes
  obtain ⟨-, rfl⟩ := Prod.mk.inj (some.inj makes)
  refine ⟨(coapNewTransaction_emits makes').retransCnt.trans balanced.retransCnt,
    fun t outside => ?_⟩
  have account := balanced.accounts t outside
  by_cases new : t = ctx.nextAddress
  · subst new
    have nothing := account.unborn (Nat.le_refl _)
    refine ⟨⟨packet, 0, Nat.zero_le _, .inl nothing⟩, ?_, fun _ => nothing, ?_⟩
    · intro first here
      rw [here] at node
      obtain ⟨counter, same⟩ : first.retransCounter = 0 ∧ first.packet = packet := by
        have core := some.inj node
        simp only [transactionCore, TransactionNode.mk.injEq] at core
        exact ⟨core.2.2.2.1, core.2.2.2.2.2⟩
      rw [counter]
      exact ⟨nothing, Nat.zero_le _, fun _ => rfl⟩
    · intro r member
      exact Nat.lt_trans (account.known r member) later
  · have framed := account.frame [] (keeps.forward fun _ _ _ => Set.mem_univ _) (keeps.key new) rfl
    rwa [append_nil] at framed

theorem Balanced.quiet (balanced : Balanced cnt aside past ctx) (forward : Forward ctx after)
    (emits : Emits [] ctx after) (keys : ∀ t ∉ aside,
      (after.transactionHeap t).map transactionKey = (ctx.transactionHeap t).map transactionKey) :
    Balanced cnt aside past after := by
  have framed := balanced.frame [] forward emits.retransCnt keys fun _ _ => rfl
  rwa [append_nil] at framed

theorem Balanced.coapSetResponseHandler (balanced : Balanced cnt aside past ctx)
    (intact : Intact limbo ctx)
    {token : List UInt8} {observe called : Bool} (arms : ctx.canArm t = true)
    (sets : ctx.coapSetResponseHandler t token observe called = some after) :
    Balanced cnt aside past after := by
  obtain ⟨set, sets', -, keeps⟩ := intact.coapSetResponseHandler token observe called arms
  rw [sets'] at sets
  obtain rfl := some.inj sets
  refine balanced.quiet (keeps.forward fun _ bounded _ => bounded)
    (coapSetResponseHandler_emits sets') fun other _ => ?_
  by_cases same : other = t
  · subst same
    unfold PointerContext.coapSetResponseHandler at sets'
    split at sets'
    · rw [some.inj sets']
    · obtain ⟨node, here, adds⟩ := bind_eq_some_iff.mp sets'
      obtain ⟨added, -, result⟩ := bind_eq_some_iff.mp adds
      obtain rfl := some.inj result
      have there : ctx.transactionHeap other = some node := here
      simp [setRequest, setTransaction, there, transactionKey]
  · exact keeps.key same

/-- A cleared transaction keeps its account, and the others theirs. -/
theorem Balanced.coapClearTransaction (balanced : Balanced cnt aside past ctx)
    (intact : Intact limbo ctx) (live : (ctx.transactionHeap t).isSome)
    (clears : ctx.coapClearTransaction t = some after) : Balanced cnt aside past after := by
  obtain ⟨cleared, clears', -, keeps⟩ := intact.coapClearTransaction live
  rw [clears'] at clears
  obtain rfl := some.inj clears
  have forward := keeps.forward fun r _ gone => intact.freed_unlinked t gone
  refine ⟨(coapClearTransaction_emits clears').retransCnt.trans balanced.retransCnt,
    fun other outside => ?_⟩
  by_cases same : other = t
  · subst same
    exact (balanced.accounts other outside).gone live (intact.transaction_lt live) forward
      (coapClearTransaction_gone clears')
  · have framed := (balanced.accounts other outside).frame [] forward (keeps.key same) rfl
    rwa [append_nil] at framed

/-! ## Sending -/

/-- A callback keeps the accounts settled, and has no events of older transactions. -/
structure Billed (cnt : UInt16) (callback : PointerContext → Option PointerContext)
    (events : PointerContext → List TransactionEvent) : Prop where
  owns : Owns events
  keeps : ∀ {limbo aside past ctx after}, Intact limbo ctx →
    Balanced cnt aside past ctx → (∀ t ∈ aside, t < ctx.nextAddress) →
    callback ctx = some after → Balanced cnt aside (past ++ events ctx) after

/-- A callback has no events of transactions that were there before. -/
theorem Billed.quiet (billed : Billed cnt callback events) (intact : Intact limbo ctx)
    (below : t < ctx.nextAddress) : about t (events ctx) = [] := by
  refine filter_eq_nil_iff.mpr fun event member => ?_
  have new := billed.owns intact event member
  exact fun same => Nat.not_lt_of_le new (of_decide_eq_true same ▸ below)

/-- A transaction that is freed with its request leaves the other accounts settled. -/
theorem close_frame (intact : Intact limbo ctx) (live : (ctx.transactionHeap t).isSome)
    {dropped : PointerContext} (drops : ctx.dropRequest t = some dropped)
    (clears : dropped.coapClearTransaction t = some after) :
    Forward ctx after ∧ Emits [] ctx after ∧ after.transactionHeap t = none ∧
    (∀ other, other ≠ t → (after.transactionHeap other).map transactionKey =
      (ctx.transactionHeap other).map transactionKey) ∧
    ∀ r, requestOf ctx.transactionHeap t = some r → after.requestHeap r = none := by
  obtain ⟨closed, ends, drops', clears', -, keeps⟩ := intact.close live
  rw [drops'] at drops
  obtain rfl := some.inj drops
  rw [clears'] at clears
  obtain rfl := some.inj clears
  obtain ⟨dropped, drops, intactDropped, alive, single, -⟩ := intact.dropRequest live
  rw [drops'] at drops
  obtain rfl := some.inj drops
  obtain ⟨ends, clears, -, keepsCleared⟩ := intactDropped.coapClearTransaction alive
  rw [clears'] at clears
  obtain rfl := some.inj clears
  refine ⟨keeps.forward fun r _ gone => intact.freed_unlinked t gone,
    (dropRequest_emits drops').behind (coapClearTransaction_emits clears'),
    coapClearTransaction_gone clears',
    fun other different => keeps.key different, fun r linked => ?_⟩
  have other : r ∈ {r | requestOf closed.transactionHeap t ≠ some r} := by
    intro linked
    rw [single] at linked
    cases linked
  have same := keepsCleared.requests r other
  rw [dropRequest_gone linked drops'] at same
  exact map_eq_none_iff.mp same

/-- A transaction that is freed without an event keeps the accounts settled. -/
theorem Balanced.close (balanced : Balanced cnt aside past ctx) (intact : Intact limbo ctx)
    (live : (ctx.transactionHeap t).isSome)
    {dropped : PointerContext} (drops : ctx.dropRequest t = some dropped)
    (clears : dropped.coapClearTransaction t = some after) : Balanced cnt aside past after := by
  obtain ⟨forward, emits, gone, keys, -⟩ := close_frame intact live drops clears
  refine ⟨emits.retransCnt.trans balanced.retransCnt, fun other outside => ?_⟩
  by_cases same : other = t
  · subst same
    exact (balanced.accounts other outside).gone live (intact.transaction_lt live) forward gone
  · have framed := (balanced.accounts other outside).frame [] forward (keys other same) rfl
    rwa [append_nil] at framed

/-- The account of a transaction whose counter is spent is closed behind its callback. -/
theorem Balanced.timeOut (balanced : Balanced cnt aside past ctx) (intact : Intact limbo ctx)
    (harmless : Harmless callback)
    (billed : Billed cnt callback events) (older : ∀ other ∈ aside, other < ctx.nextAddress)
    {node : TransactionNode} (here : ctx.transactionHeap t = some node)
    (spent : node.retransCounter.toNat = cnt.toNat) (outside : t ∉ aside)
    (isRequest : node.ongoingRequest = some r) {called dropped : PointerContext}
    (calls : callback ctx = some called) (drops : called.dropRequest t = some dropped)
    (clears : dropped.coapClearTransaction t = some after) :
    Balanced cnt aside (past ++ .timedOut t r :: events ctx) after := by
  have live : (ctx.transactionHeap t).isSome := by
    rw [here]
    rfl
  have linked : requestOf ctx.transactionHeap t = some r := by
    rw [requestOf, here]
    exact isRequest
  have below := intact.transaction_lt live
  have told : Balanced cnt (insert t aside) (past ++ [.timedOut t r]) ctx := by
    refine (balanced.aside_mono (Set.subset_insert t aside)).frame _ (.refl ctx) rfl
      (fun _ _ => rfl) fun other apart => ?_
    have different : t ≠ other := fun same => apart (same ▸ Set.mem_insert t aside)
    exact about_other different
  have olderStill : ∀ other ∈ insert t aside, other < ctx.nextAddress := by
    rintro other (rfl | member)
    · exact below
    · exact older other member
  have answered := billed.keeps intact told olderStill calls
  rw [append_assoc] at answered
  obtain ⟨called', calls', intactCalled, keeps⟩ := harmless limbo ctx intact
  rw [calls'] at calls
  obtain rfl := some.inj calls
  have alive : (called'.transactionHeap t).isSome := (keeps.isSome below).trans live
  have still : requestOf called'.transactionHeap t = some r := (keeps.requestOf below).trans linked
  obtain ⟨forward, emits, gone, keys, freed⟩ := close_frame intactCalled alive drops clears
  refine ⟨emits.retransCnt.trans answered.retransCnt, fun other outsideOther => ?_⟩
  by_cases same : other = t
  · subst same
    have account := balanced.accounts other outside
    have ends : about other (past ++ .timedOut other r :: events ctx) =
        List.replicate cnt.toNat (.transmitted other node.packet) ++ [.timedOut other r] := by
      have mine : about other [.timedOut other r] = [.timedOut other r] := about_own _
      rw [append_cons, about_append, billed.quiet intact below, append_nil, about_append, mine,
        (account.alive node here).1, spent]
    refine ⟨⟨node.packet, cnt.toNat, Nat.le_refl _, .inr ⟨rfl, r, ends, gone, freed r still⟩⟩,
      ?_, ?_, ?_⟩
    · intro node there
      rw [gone] at there
      cases there
    · intro unborn
      have later := Nat.le_trans keeps.nextAddress forward.nextAddress
      omega
    · intro other' member
      have mine := mem_about member
      rw [show (TransactionEvent.timedOut other other').transaction = other from rfl, ends] at mine
      rcases mem_append.mp mine with sent | last
      · cases eq_of_mem_replicate sent
      · cases mem_singleton.mp last
        have young := intactCalled.request_lt (intactCalled.request_live still)
        exact Nat.lt_of_lt_of_le young forward.nextAddress
  · have framed := (answered.accounts other fun member => (Set.mem_insert_iff.mp member).elim same
        outsideOther).frame [] forward (keys other same) rfl
    rwa [append_nil] at framed

/-- Sending a transaction keeps the accounts settled, if the counter can reach its bound. -/
theorem Balanced.send (balanced : Balanced cnt aside past ctx) (reachable : cnt.toNat ≤ 255)
    (positive : 1 ≤ cnt.toNat)
    (intact : Intact limbo ctx) (harmless : Harmless callback) (billed : Billed cnt callback events)
    (older : ∀ other ∈ aside, other < ctx.nextAddress) (outside : t ∉ aside) {freed : Bool}
    (sends : ctx.coapSendTransaction callback t = some (freed, after)) :
    Balanced cnt aside (past ++ sendEvents events t ctx) after := by
  obtain ⟨node, here, sends⟩ := bind_eq_some_iff.mp sends
  have live : (ctx.transactionHeap t).isSome := by
    rw [here]
    rfl
  have account := balanced.accounts t outside
  obtain ⟨counted, bound, simple⟩ := account.alive node here
  have apart : ∀ other ≠ t, about other [.transmitted t node.packet] = [] := by
    exact fun other different => about_other (Ne.symm different)
  unfold sendEvents
  simp only [here]
  split at sends
  · rename_i confirmable
    split at sends
    · -- one transmission more
      rename_i more
      obtain ⟨-, rfl⟩ := Prod.mk.inj (some.inj sends)
      simp only [more, not_true_eq_false, and_false, if_false]
      refine ⟨balanced.retransCnt, fun other outsideOther => ?_⟩
      by_cases same : other = t
      · subst same
        have fewer : node.retransCounter.toNat < cnt.toNat := by
          have less := UInt16.lt_iff_toNat_lt.mp more
          rwa [UInt8.toNat_toUInt16, balanced.retransCnt] at less
        have next : (node.retransCounter + 1).toNat = node.retransCounter.toNat + 1 := by
          rw [UInt8.toNat_add, show (1 : UInt8).toNat = 1 from rfl]
          omega
        have sends : about other (past ++ [.transmitted other node.packet]) =
            List.replicate (node.retransCounter + 1).toNat (.transmitted other node.packet) := by
          rw [about_append, counted, next, replicate_succ']
          exact congrArg (_ ++ ·) (about_own _)
        refine ⟨⟨node.packet, _, by omega, .inl sends⟩, ?_, ?_, ?_⟩
        · intro again there
          simp only [setTransaction, update_self, Option.some.injEq] at there
          subst there
          exact ⟨sends, by show (node.retransCounter + 1).toNat ≤ _; omega,
            fun differs => absurd (confirmable.symm.trans differs) (by decide)⟩
        · intro unborn
          exact absurd (intact.transaction_lt live) (Nat.not_lt_of_le unborn)
        · intro r member
          rcases mem_append.mp member with earlier | new
          · exact account.known r earlier
          · cases mem_singleton.mp new
      · refine (balanced.accounts other outsideOther).frame _ ⟨Nat.le_refl _,
          fun _ _ gone => gone⟩ ?_ (apart other same)
        exact congrArg (Option.map transactionKey) (update_of_ne same ..)
    · -- given up
      rename_i spent
      obtain ⟨called, calls, sends⟩ := bind_eq_some_iff.mp sends
      obtain ⟨dropped, drops, sends⟩ := bind_eq_some_iff.mp sends
      obtain ⟨cleared, clears, result⟩ := bind_eq_some_iff.mp sends
      obtain ⟨-, rfl⟩ := Prod.mk.inj (some.inj result)
      simp only [confirmable, spent, not_false_eq_true, and_self, if_true]
      have all : node.retransCounter.toNat = cnt.toNat := by
        have least : ¬ node.retransCounter.toUInt16.toNat < ctx.defaultRetransCnt.toNat :=
          fun less =>
          spent (UInt16.lt_iff_toNat_lt.mpr less)
        rw [UInt8.toNat_toUInt16, balanced.retransCnt] at least
        omega
      have silent : called = ctx → Balanced cnt aside (past ++ []) cleared := by
        rintro rfl
        rw [append_nil]
        exact balanced.close intact live drops clears
      unfold callbackEvents
      cases isRequest : node.ongoingRequest with
      | none =>
        rw [isRequest] at calls
        exact silent (some.inj calls).symm
      | some r =>
        rw [isRequest] at calls
        obtain ⟨request, found, calls⟩ := bind_eq_some_iff.mp calls
        simp only [bind_some, found, any_some]
        split at calls
        · rename_i told
          rw [if_pos told]
          exact balanced.timeOut intact harmless billed older here all outside isRequest
            calls drops clears
        · rename_i untold
          rw [if_neg untold]
          exact silent (some.inj calls).symm
  · -- sent once, and freed
    rename_i once
    obtain ⟨dropped, drops, sends⟩ := bind_eq_some_iff.mp sends
    obtain ⟨cleared, clears, result⟩ := bind_eq_some_iff.mp sends
    obtain ⟨-, rfl⟩ := Prod.mk.inj (some.inj result)
    simp only [once, Bool.false_eq_true, false_and, if_false]
    have intactSent : Intact limbo { ctx with txData := ctx.txData ++ [node.packet] } :=
      ⟨intact.transactions, intact.requests, intact.paired⟩
    obtain ⟨forward, emits, gone, keys, -⟩ := close_frame intactSent live drops clears
    have forwardSent : Forward ctx cleared := ⟨forward.nextAddress, forward.freed⟩
    have nothing : about t past = [] := by
      rw [counted, simple (Bool.not_eq_true _ ▸ once)]
      rfl
    refine ⟨emits.retransCnt.trans balanced.retransCnt, fun other outsideOther => ?_⟩
    by_cases same : other = t
    · subst same
      have sent : about other (past ++ [.transmitted other node.packet]) = List.replicate 1
          (.transmitted other node.packet) := by
        rw [about_append, nothing]
        exact about_own _
      refine ⟨⟨node.packet, 1, positive, .inl sent⟩, ?_, ?_, ?_⟩
      · intro node there
        rw [gone] at there
        cases there
      · intro unborn
        exact absurd (Nat.lt_of_lt_of_le (intact.transaction_lt live) forwardSent.nextAddress)
          (Nat.not_lt_of_le unborn)
      · intro r member
        rcases mem_append.mp member with earlier | new
        · exact Nat.lt_of_lt_of_le (account.known r earlier) forwardSent.nextAddress
        · cases mem_singleton.mp new
    · exact (balanced.accounts other outsideOther).frame _ forwardSent (keys other same)
        (apart other same)

/-! ## Callbacks and packets -/

/-- A script keeps the accounts settled. -/
theorem runScript_balanced (reachable : cnt.toNat ≤ 255)
    (positive : 1 ≤ cnt.toNat) (script : Script) {made : List Nat} {base : Nat}
    (intact : Intact limbo ctx) (own : ∀ t ∈ made, base ≤ t) (inLimbo : ∀ t ∈ limbo, t < base)
    (start : base ≤ ctx.nextAddress) (older : ∀ t ∈ aside, t < base)
    (balanced : Balanced cnt aside past ctx) (runs : runScript script made ctx = some after) :
    Balanced cnt aside (past ++ scriptEvents script made ctx) after := by
  induction script generalizing made limbo aside past ctx base after with
  | done =>
    obtain rfl := some.inj runs
    rwa [scriptEvents, append_nil]
  | newTransaction now mid packet rest ih =>
    obtain ⟨⟨t, next⟩, makes, runs⟩ := bind_eq_some_iff.mp runs
    obtain ⟨next', makes', intactNext, -, later, -⟩ := intact.coapNewTransaction now mid packet
    rw [makes'] at makes
    obtain ⟨rfl, rfl⟩ := Prod.mk.inj (some.inj makes)
    have ownNext : ∀ t ∈ made ++ [ctx.nextAddress], base ≤ t := by
      intro t member
      rcases mem_append.mp member with earlier | last
      · exact own t earlier
      · rw [mem_singleton.mp last]
        exact start
    rw [scriptEvents, makes']
    exact ih intactNext ownNext inLimbo (Nat.le_trans start (Nat.le_of_lt later)) older
      (balanced.coapNewTransaction intact makes') runs
  | setResponseHandler index token observe callback rest ih =>
    unfold runScript at runs
    unfold scriptEvents
    cases found : made[index]? with
    | none =>
      rw [found] at runs
      exact ih intact own inLimbo start older balanced runs
    | some t =>
      rw [found] at runs
      simp only at runs ⊢
      split at runs
      · rename_i arms
        obtain ⟨next, sets, runs⟩ := bind_eq_some_iff.mp runs
        obtain ⟨next', sets', intactNext, keeps⟩ :=
          intact.coapSetResponseHandler token observe callback arms
        rw [sets'] at sets
        obtain rfl := some.inj sets
        rw [if_pos arms, sets']
        exact ih intactNext own inLimbo (Nat.le_trans start keeps.nextAddress) older
          (balanced.coapSetResponseHandler intact arms sets') runs
      · rename_i busy
        rw [if_neg busy]
        exact ih intact own inLimbo start older balanced runs
  | sendTransaction index callback rest nested ih =>
    unfold runScript at runs
    unfold scriptEvents
    cases found : made[index]? with
    | none =>
      rw [found] at runs
      exact ih intact own inLimbo start older balanced runs
    | some t =>
      rw [found] at runs
      simp only at runs ⊢
      have ownTransaction := own t (mem_of_getElem? found)
      split at runs
      · rename_i live
        obtain ⟨⟨freed, next⟩, sends, runs⟩ := bind_eq_some_iff.mp runs
        have billed : Billed cnt (runScript callback []) (scriptEvents callback []) := by
          refine ⟨owns_scriptEvents callback, fun intact balanced older calls => ?_⟩
          exact nested intact (fun _ member => absurd member not_mem_nil)
            (fun _ member => intact.limbo_lt member) (Nat.le_refl _) older balanced calls
        obtain ⟨freed', next', sends', elsewhere, intactNext⟩ :=
          intact.sendListed (harmless_runScript callback) live
          fun member => Nat.not_lt_of_le ownTransaction (inLimbo t member)
        rw [sends'] at sends
        obtain ⟨rfl, rfl⟩ := Prod.mk.inj (some.inj sends)
        have balancedNext := balanced.send reachable positive intact (harmless_runScript callback)
          billed (fun other member => Nat.lt_of_lt_of_le (older other member) start)
          (fun member => Nat.not_lt_of_le ownTransaction (older t member)) sends'
        rw [if_pos live, sends', map_some, getD_some, ← append_assoc]
        exact ih intactNext own inLimbo (Nat.le_trans start elsewhere.nextAddress) older
          balancedNext runs
      · rename_i gone
        rw [if_neg gone]
        exact ih intact own inLimbo start older balanced runs

theorem billed_runScript (reachable : cnt.toNat ≤ 255) (positive : 1 ≤ cnt.toNat)
    (script : Script) : Billed cnt (runScript script []) (scriptEvents script []) := by
  refine ⟨owns_scriptEvents script, fun intact balanced older calls => ?_⟩
  exact runScript_balanced reachable positive script intact
    (fun _ member => absurd member not_mem_nil)
    (fun _ member => intact.limbo_lt member) (Nat.le_refl _) older balanced calls

/-- The callback of a request keeps the accounts settled. -/
theorem Balanced.runRequestCallback (balanced : Balanced cnt ∅ past ctx)
    (intact : Intact limbo ctx) (billed : Billed cnt callback events)
    {request : Option Nat} (runs : ctx.runRequestCallback callback request = some after) :
    Balanced cnt ∅ (past ++ callbackEvents events request ctx) after := by
  unfold callbackEvents
  cases request with
  | none =>
    obtain rfl := some.inj runs
    exact (append_nil past).symm ▸ balanced
  | some r =>
    obtain ⟨node, here, runs⟩ := bind_eq_some_iff.mp runs
    simp only [bind_some, here, any_some]
    split at runs
    · rename_i called
      rw [if_pos called]
      exact billed.keeps intact balanced (fun _ member => absurd member (Set.notMem_empty _)) runs
    · rename_i quiet
      obtain rfl := some.inj runs
      rw [if_neg quiet, append_nil]
      exact balanced

/-- A request that is freed, or waits on, leaves the accounts settled. -/
theorem Balanced.freeIf (balanced : Balanced cnt aside past ctx) (intact : Intact limbo ctx)
    (live : (ctx.requestHeap r).isSome) {condition : Prop} [Decidable condition]
    (frees : (if condition then ctx.freeOngoingRequest r else some ctx) = some after) :
    Balanced cnt aside past after := by
  split at frees
  · obtain ⟨freed, frees', -, keeps, -⟩ := intact.freeOngoingRequest live
    rw [frees'] at frees
    obtain rfl := some.inj frees
    refine balanced.quiet (keeps.forward fun other _ gone same => ?_)
      (freeOngoingRequest_emits frees') fun other _ => (freeOngoingRequest_gone frees').2 other
    rw [Set.mem_singleton_iff.mp same] at gone
    rw [gone] at live
    cases live
  · exact some.inj frees ▸ balanced

/-- A packet keeps the accounts settled. -/
theorem Balanced.coapHandlePacket (balanced : Balanced cnt ∅ past ctx)
    (intact : Intact ∅ ctx) {script : Script}
    (billed : Billed cnt (runScript script []) (scriptEvents script [])) {message : Packet}
    (handles : ctx.coapHandlePacket (runScript script []) message = some after) :
    Balanced cnt ∅ (past ++ packetEvents script message ctx) after := by
  have harmless := harmless_runScript script
  unfold PointerContext.coapHandlePacket at handles
  unfold packetEvents
  split at handles
  · rename_i request
    obtain rfl := some.inj handles
    rw [if_pos request, append_nil]
    exact balanced
  rename_i answer
  rw [if_neg answer]
  obtain ⟨found, finds, handles⟩ := bind_eq_some_iff.mp handles
  rw [finds]
  cases found with
  | some t =>
    obtain ⟨node, here, handles⟩ := bind_eq_some_iff.mp handles
    obtain ⟨answered, answers, clears⟩ := bind_eq_some_iff.mp handles
    have live : (ctx.transactionHeap t).isSome := by
      rw [here]
      rfl
    have linked : requestOf ctx.transactionHeap t = node.ongoingRequest := by
      rw [requestOf, here]
      rfl
    simp only [linked]
    cases isRequest : node.ongoingRequest with
    | none =>
      rw [isRequest] at answers
      obtain rfl := some.inj answers
      have nothing : (if message.code ≠ 0 ∨ message.type = .rst then
          callbackEvents (scriptEvents script []) none ctx else []) = [] := by
        split <;> rfl
      rw [nothing, append_nil]
      exact balanced.coapClearTransaction intact live clears
    | some r =>
      rw [isRequest] at answers linked
      obtain ⟨called, calls, answers⟩ := bind_eq_some_iff.mp answers
      obtain ⟨request, -, frees⟩ := bind_eq_some_iff.mp answers
      have requested := intact.request_live linked
      obtain ⟨intactCalled, balancedCalled, keeps⟩ : Intact ∅ called ∧
          Balanced cnt ∅ (past ++ if message.code ≠ 0 ∨ message.type = .rst then
            callbackEvents (scriptEvents script []) (some r) ctx else []) called ∧
          Keeps (below ctx.nextAddress) (below ctx.nextAddress) ctx called := by
        split at calls
        · rename_i told
          have requestedLive : ∀ other ∈ some r, (ctx.requestHeap other).isSome :=
            fun other same => some.inj same ▸ requested
          obtain ⟨called', calls', intactCalled, keeps⟩ :=
            intact.runRequestCallback harmless requestedLive
          rw [calls'] at calls
          obtain rfl := some.inj calls
          rw [if_pos told]
          exact ⟨intactCalled, balanced.runRequestCallback intact billed calls', keeps⟩
        · rename_i silent
          obtain rfl := some.inj calls
          rw [if_neg silent, append_nil]
          exact ⟨intact, balanced, .refl _ _ _⟩
      have alive := (keeps.request_isSome (intact.request_lt requested)).trans requested
      obtain ⟨freed, frees', intactFreed, same⟩ := intactCalled.freeIf alive
        ((message.code ≠ 0 ∧ request.observe = false) ∨ message.type = .rst)
      rw [frees'] at frees
      obtain rfl := some.inj frees
      refine (balancedCalled.freeIf intactCalled alive frees').coapClearTransaction
        intactFreed ?_ clears
      rw [same, keeps.isSome (intact.transaction_lt live)]
      exact live
  | none =>
    obtain ⟨request, findsRequest, answers⟩ := bind_eq_some_iff.mp handles
    simp only [findsRequest, join_some]
    cases request with
    | none =>
      obtain rfl := some.inj answers
      exact (append_nil past).symm ▸ balanced
    | some r =>
      obtain ⟨called, calls, answers⟩ := bind_eq_some_iff.mp answers
      obtain ⟨node, here, frees⟩ := bind_eq_some_iff.mp answers
      obtain ⟨before, there, -⟩ := bind_eq_some_iff.mp calls
      have requested : ∀ other ∈ some r, (ctx.requestHeap other).isSome := by
        rintro other ⟨⟩
        rw [there]
        rfl
      obtain ⟨called', calls', intactCalled, -⟩ := intact.runRequestCallback harmless requested
      rw [calls'] at calls
      obtain rfl := some.inj calls
      refine (balanced.runRequestCallback intact billed calls').freeIf intactCalled ?_ frees
      rw [here]
      rfl

/-! ## Expiry -/

/-- The second loop keeps the accounts settled. -/
theorem Balanced.resendExpired (balanced : Balanced cnt ∅ past ctx) (reachable : cnt.toNat ≤ 255)
    (positive : 1 ≤ cnt.toNat) (callbacks : Nat → Script)
    (intact : Intact limbo ctx) {expired : List Nat} (distinct : expired.Nodup)
    (live : ∀ t ∈ expired, (ctx.transactionHeap t).isSome) {nearest timeout : UInt32}
    (resends : resendExpired (fun t => runScript (callbacks t) []) expired nearest ctx = some
      (timeout, after)) : Balanced cnt ∅ (past ++ resendEvents callbacks expired ctx) after := by
  induction expired generalizing limbo ctx past nearest with
  | nil =>
    obtain ⟨-, rfl⟩ := Prod.mk.inj (some.inj resends)
    exact (append_nil past).symm ▸ balanced
  | cons t rest ih =>
    obtain ⟨notAgain, distinct⟩ := nodup_cons.mp distinct
    obtain ⟨⟨freed, sent⟩, sends, resends⟩ := bind_eq_some_iff.mp resends
    have harmless := harmless_runScript (callbacks t)
    obtain ⟨freed', sent', sends', elsewhere, goes, stays⟩ :=
      intact.coapSendTransaction harmless (live t mem_cons_self)
    rw [sends'] at sends
    obtain ⟨rfl, rfl⟩ := Prod.mk.inj (some.inj sends)
    have balancedSent := balanced.send reachable positive intact harmless
      (billed_runScript reachable positive (callbacks t))
      (fun _ member => absurd member (Set.notMem_empty _)) (Set.notMem_empty t) sends'
    have alive : ∀ other ∈ rest, (sent'.transactionHeap other).isSome := by
      intro other member
      have before := live other (mem_cons_of_mem _ member)
      have different : other ≠ t := fun same => notAgain (same ▸ member)
      rw [elsewhere.isSome ⟨intact.transaction_lt before, different⟩]
      exact before
    rw [resendEvents, sends', ← append_assoc]
    cases freed' with
    | true => exact ih balancedSent (goes rfl) distinct alive resends
    | false =>
      obtain ⟨added, adds, resends⟩ := bind_eq_some_iff.mp resends
      obtain ⟨node, -, resends⟩ := bind_eq_some_iff.mp resends
      obtain ⟨intactSent, aliveSent⟩ := stays rfl
      obtain ⟨added', adds', intactAdded, keeps⟩ := intactSent.addTransaction aliveSent
      rw [adds'] at adds
      obtain rfl := some.inj adds
      simp only [bind_some, Bool.false_eq_true, if_false, adds', map_some, getD_some]
      refine ih ?_ intactAdded distinct ?_ resends
      · exact balancedSent.quiet (keeps.forward fun _ _ _ => Set.mem_univ _)
          (addTransaction_emits adds') fun other _ => keeps.key (Set.mem_univ other)
      · intro other member
        rw [keeps.isSome (Set.mem_univ other)]
        exact alive other member

theorem Balanced.coapCheckTransactions (balanced : Balanced cnt ∅ past ctx)
    (reachable : cnt.toNat ≤ 255) (positive : 1 ≤ cnt.toNat)
    (intact : Intact ∅ ctx) {now timeout : UInt32} {callbacks : Nat → Script} (checks :
      ctx.coapCheckTransactions (fun t => runScript (callbacks t) []) now = some (timeout, after)) :
    Balanced cnt ∅ (past ++ (Operation.checkTransactions now callbacks).events ctx) after := by
  obtain ⟨⟨expired, nearest, heap⟩, collects, resends⟩ := bind_eq_some_iff.mp checks
  obtain ⟨expired', nearest', heap', limbo, collects', intactAfter, distinct, live, -, cores⟩ :=
    intact.collectExpired now
  rw [collects'] at collects
  obtain ⟨rfl, rfl, rfl⟩ := some.inj collects
  rw [Operation.events, collects']
  refine Balanced.resendExpired ?_ reachable positive callbacks intactAfter distinct live resends
  refine balanced.quiet ⟨Nat.le_refl _, fun _ _ gone => gone⟩
    ⟨rfl, rfl, (append_nil _).symm⟩ fun t _ => ?_
  have same := congrArg (Option.map transactionKey) (cores t)
  rw [map_map, map_map] at same
  exact same

/-! ## Runs -/

/-- Every call keeps the accounts settled. -/
theorem Balanced.perform (balanced : Balanced cnt ∅ past ctx) (reachable : cnt.toNat ≤ 255)
    (positive : 1 ≤ cnt.toNat) (intact : Intact ∅ ctx) {operation : Operation}
    (permitted : Permitted ctx operation) (performs : ctx.perform operation = some after) :
    Balanced cnt ∅ (past ++ operation.events ctx) after := by
  cases operation with
  | newTransaction now mid packet =>
    obtain ⟨⟨t, made⟩, makes, rfl⟩ := map_eq_some_iff.mp performs
    exact (append_nil past).symm ▸ balanced.coapNewTransaction intact makes
  | setResponseHandler t token observe callback =>
    exact (append_nil past).symm ▸ balanced.coapSetResponseHandler intact permitted performs
  | sendTransaction t callback =>
    obtain ⟨⟨freed, sent⟩, sends, rfl⟩ := map_eq_some_iff.mp performs
    exact balanced.send reachable positive intact
      (harmless_runScript callback) (billed_runScript reachable positive callback)
      (fun _ member => absurd member (Set.notMem_empty _)) (Set.notMem_empty t) sends
  | clearTransaction t =>
    exact (append_nil past).symm ▸ balanced.coapClearTransaction intact permitted performs
  | handlePacket message callback =>
    exact balanced.coapHandlePacket intact (billed_runScript reachable positive callback) performs
  | checkTransactions now callbacks =>
    obtain ⟨⟨timeout, checked⟩, checks, rfl⟩ := map_eq_some_iff.mp performs
    exact balanced.coapCheckTransactions reachable positive intact checks

theorem Balanced.runs (balanced : Balanced cnt ∅ past ctx) (reachable : cnt.toNat ≤ 255)
    (positive : 1 ≤ cnt.toNat) (intact : Intact ∅ ctx) {operations : List Operation}
    (runs : RunsUnder PointerContext.perform Permitted ctx operations after) :
    Balanced cnt ∅ (past ++ runEvents operations ctx) after := by
  induction runs generalizing past with
  | done state => exact (append_nil past).symm ▸ balanced
  | call permitted performed later ih =>
    obtain ⟨next, performs, intactNext⟩ := intact.perform permitted
    rw [performs] at performed
    obtain rfl := some.inj performed
    rw [runEvents, visited, performs, map_some, getD_some, flatMap_cons, ← append_assoc]
    exact ih (balanced.perform reachable positive intact permitted performs) intactNext

/-- A context whose only transaction is confirmable, and counts its timer down from the start. -/
structure Repeating (cnt : UInt16) (ctx : PointerContext) : Prop where
  retransCnt : ctx.defaultRetransCnt = cnt
  transactions : ctx.transactions = some 0
  nextAddress : ctx.nextAddress = 1
  node : ∃ node, ctx.transactionHeap 0 = some node ∧ node.next = none ∧
    node.retransTimer = ctx.defaultRetransMs ∧ node.packet = [0x40]

/-- The only transaction of a list goes to its end. -/
theorem addTransaction_only {node : TransactionNode} (here : ctx.transactionHeap 0 = some node)
    (single : node.next = none) (first : ctx.transactions = some 0) (next : ctx.nextAddress = 1) :
    ctx.addTransaction 0 = some { ctx with
      transactionHeap := (Heap.relink 0 none (Heap.relink 0 none ctx.transactionHeap)),
      transactions := some 0 } := by
  have pointer : Chained.next node = none := single
  simp [addTransaction, listAdd, listRemove, removeFrom, Heap.bypass, next, first, here, pointer]

/-- A counter of 8 bits never reaches a bound beyond them, so the transaction is sent again. -/
theorem Repeating.again (repeating : Repeating cnt ctx) (wide : 256 ≤ cnt.toNat) :
    ∃ after, ctx.perform (.checkTransactions (ctx.lastChecktime + ctx.defaultRetransMs) fun _ =>
      .done) = some after ∧ Repeating cnt after ∧
    after.lastChecktime = ctx.lastChecktime + ctx.defaultRetransMs ∧
    after.defaultRetransMs = ctx.defaultRetransMs ∧
    (Operation.checkTransactions (ctx.lastChecktime + ctx.defaultRetransMs) fun _ => .done).events
      ctx = [.transmitted 0 [0x40]] := by
  obtain ⟨node, here, single, timer, packet⟩ := repeating.node
  have more : node.retransCounter.toUInt16 < ctx.defaultRetransCnt := by
    rw [UInt16.lt_iff_toNat_lt, UInt8.toNat_toUInt16, repeating.retransCnt]
    exact Nat.lt_of_lt_of_le node.retransCounter.toNat_lt wide
  have confirmable : isConfirmable node.packet = true := by
    rw [packet]
    rfl
  have elapsed : getElpasedMs (ctx.lastChecktime + ctx.defaultRetransMs) ctx.lastChecktime =
      ctx.defaultRetransMs := by
    rw [getElpasedMs_eq, UInt32.add_comm, UInt32.add_sub_cancel]
  have collects : collectExpired (getElpasedMs (ctx.lastChecktime + ctx.defaultRetransMs)
      ctx.lastChecktime) ctx.nextAddress none [] 60000
      ctx.transactions ctx.transactionHeap = some ([0], 60000, ctx.transactionHeap) := by
    rw [elapsed, repeating.nextAddress, repeating.transactions]
    simp [collectExpired, here, single, timer, expiryHandlingNum]
  let checked : PointerContext :=
    { ctx with lastChecktime := ctx.lastChecktime + ctx.defaultRetransMs }
  let again : TransactionNode :=
    { node with retransTimer := ctx.defaultRetransMs, retransCounter := node.retransCounter + 1 }
  let sent : PointerContext :=
    { checked.setTransaction 0 again with txData := ctx.txData ++ [node.packet] }
  have sends : checked.coapSendTransaction (runScript .done []) 0 = some (false, sent) := by
    simp only [PointerContext.coapSendTransaction,
      show checked.transactionHeap 0 = some node from here, bind_eq_bind, bind_some, confirmable,
      if_true, if_pos (show node.retransCounter.toUInt16 < checked.defaultRetransCnt from more)]
    rfl
  have sentHere : sent.transactionHeap 0 = some again := by
    show update ctx.transactionHeap 0 (some again) 0 = some again
    exact update_self ..
  have adds := addTransaction_only sentHere single repeating.transactions repeating.nextAddress
  have final : (Heap.relink 0 none (Heap.relink 0 none sent.transactionHeap)) 0 =
      some { again with next := none } := by
    rw [Heap.relink_self, Heap.relink_self, sentHere]
    rfl
  let added : PointerContext :=
    { sent with
      transactionHeap := (Heap.relink 0 none (Heap.relink 0 none sent.transactionHeap))
      transactions := some 0 }
  have addedHere : added.transactionHeap 0 = some { again with next := none } := final
  obtain ⟨timeout, resends⟩ : ∃ timeout,
      resendExpired (fun _ => runScript .done []) [0] 60000 checked = some (timeout, added) := by
    simp only [PointerContext.resendExpired, sends, bind_eq_bind, bind_some,
      Bool.false_eq_true, if_false, adds]
    exact ⟨_, bind_eq_some_iff.mpr ⟨_, addedHere, rfl⟩⟩
  refine ⟨added, ?_, ⟨repeating.retransCnt, rfl, repeating.nextAddress, _, addedHere, rfl, rfl,
    packet⟩, rfl, rfl, ?_⟩
  · rw [PointerContext.perform, PointerContext.coapCheckTransactions, collects]
    exact congrArg (Option.map fun result => result.2) resends
  · rw [Operation.events, collects]
    show resendEvents (fun _ => .done) [0] checked = _
    have spends : ¬ (isConfirmable node.packet = true ∧
      ¬ node.retransCounter.toUInt16 < checked.defaultRetransCnt) := fun spent => spent.2 more
    rw [resendEvents, sends, sendEvents, show checked.transactionHeap 0 = some node from here]
    simp only [spends, if_false, bind_some, Bool.false_eq_true, adds, map_some, getD_some,
      resendEvents, append_nil]
    rw [packet]

/-- A check whenever the timer of a transaction that was just sent runs out. -/
def checksInTime (retransMs : UInt32) : Nat → UInt32 → List Operation
  | 0, _ => []
  | times + 1, now => .checkTransactions (now + retransMs)
      (fun _ => .done) :: checksInTime retransMs times (now + retransMs)

/-- Every check sends the transaction again. -/
theorem Repeating.sends (repeating : Repeating cnt ctx) (wide : 256 ≤ cnt.toNat) (times : Nat) :
    ∃ after, RunsUnder PointerContext.perform Permitted ctx
      (checksInTime ctx.defaultRetransMs times ctx.lastChecktime) after ∧
    runEvents (checksInTime ctx.defaultRetransMs times ctx.lastChecktime) ctx = List.replicate times
      (.transmitted 0 [0x40]) := by
  induction times generalizing ctx with
  | zero => exact ⟨ctx, .done ctx, rfl⟩
  | succ times ih =>
    obtain ⟨next, performs, still, now, same, sends⟩ := repeating.again wide
    obtain ⟨after, runs, later⟩ := ih still
    rw [now, same] at runs later
    refine ⟨after, .call trivial performs runs, ?_⟩
    rw [checksInTime, runEvents, visited, performs, map_some, getD_some, flatMap_cons, sends]
    exact congrArg (_ :: ·) later

/-- A transaction is made, and sent by one check after the other. -/
def sentInTime (retransMs : UInt32) (times : Nat) : List Operation :=
  .newTransaction 0 1 [0x40] :: checksInTime retransMs times 0

/-- With a bound beyond the counter, that many transmissions are beyond the budget. -/
theorem sentInTime_exceeds (retransMs : UInt32) (wide : 256 ≤ cnt.toNat) :
    ∃ ctx, RunsUnder PointerContext.perform Permitted
      (new retransMs cnt) (sentInTime retransMs (cnt.toNat + 2)) ctx ∧ ¬ WithinBudget cnt 0
      (runEvents (sentInTime retransMs (cnt.toNat + 2)) (new retransMs cnt)) ctx := by
  obtain ⟨made, makes, repeating, first, same⟩ :
      ∃ made, (new retransMs cnt).perform (.newTransaction 0 1 [0x40]) = some made ∧
      Repeating cnt made ∧ made.lastChecktime = 0 ∧ made.defaultRetransMs = retransMs :=
    ⟨_, rfl, ⟨rfl, rfl, rfl, _, rfl, rfl, rfl, rfl⟩, rfl, rfl⟩
  obtain ⟨ctx, runs, sends⟩ := repeating.sends wide (cnt.toNat + 2)
  rw [first, same] at runs sends
  refine ⟨ctx, .call trivial makes runs, ?_⟩
  have mine : about 0 (runEvents (sentInTime retransMs (cnt.toNat + 2)) (new retransMs cnt)) =
      List.replicate (cnt.toNat + 2) (.transmitted 0 [0x40]) := by
    rw [sentInTime, runEvents, visited, makes, map_some, getD_some, flatMap_cons]
    refine (congrArg (about 0) sends).trans (filter_eq_self.mpr fun event member => ?_)
    rw [eq_of_mem_replicate member]
    rfl
  have long := congrArg List.length mine
  rw [length_replicate] at long
  rintro ⟨packet, sent, bound, sends | ⟨-, r, sends, -⟩⟩
  · rw [sends, length_replicate] at long
    omega
  · rw [sends, length_append, length_replicate, length_singleton] at long
    omega

/-- No run exceeds the budgets of its transactions, exactly when the bound is one that the
counter can reach. -/
theorem withinBudget_iff {cnt : UInt16} (positive : 1 ≤ cnt.toNat) : (∀ retransMs operations ctx,
      RunsUnder PointerContext.perform Permitted (new retransMs cnt) operations ctx →
      ∀ t, WithinBudget cnt t (runEvents operations (new retransMs cnt)) ctx) ↔
    cnt.toNat ≤ 255 := by
  constructor
  · intro within
    by_contra wide
    obtain ⟨ctx, runs, exceeds⟩ := sentInTime_exceeds 0 (show 256 ≤ cnt.toNat by omega)
    exact exceeds (within 0 _ ctx runs 0)
  · intro reachable retransMs operations ctx runs t
    have balanced : Balanced cnt ∅ [] (new retransMs cnt) := by
      refine ⟨rfl, fun t _ => ⟨⟨[], 0, Nat.zero_le _, .inl rfl⟩, ?_, fun _ => rfl, ?_⟩⟩
      · intro node here
        cases here
      · intro r member
        cases member
    exact ((balanced.runs reachable positive (intact_new retransMs cnt) runs).accounts t
      (Set.notMem_empty t)).budget

theorem withinBudget_iff_four : 1 ≤ (4 : UInt16).toNat ∧
    ((∀ retransMs operations ctx, RunsUnder PointerContext.perform Permitted (new retransMs 4)
      operations ctx → ∀ t, WithinBudget 4 t (runEvents operations (new retransMs 4)) ctx) ↔
      (4 : UInt16).toNat ≤ 255) :=
  ⟨by decide, withinBudget_iff (by decide)⟩

/-- A transaction with a budget of 256 is sent 258 times, and its callback is never told. -/
theorem withinBudget_fails :
    ∃ ctx, RunsUnder PointerContext.perform Permitted (new 2000 256) (sentInTime 2000 258) ctx ∧
    ¬ WithinBudget 256 0 (runEvents (sentInTime 2000 258) (new 2000 256)) ctx :=
  sentInTime_exceeds 2000 (show 256 ≤ (256 : UInt16).toNat by decide)

end PointerContext

end Idrm.Coap
