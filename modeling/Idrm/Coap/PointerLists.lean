import Idrm.Coap.Pointers
import Idrm.Lib.Paired
import Idrm.Lib.Run

/-!
# The lists of a context stay intact

Between calls the two lists of a context hold every transaction and every ongoing request that
was made and not freed, once, and the pointers between them agree. `Intact` is that for the
middle of a call as well, when some transactions are in limbo: taken out of their list, and
not freed yet.

Each operation has one lemma, which says that it has a result, what it does to the limbo, and
what it leaves alone (`Keeps`). Callbacks are treated as operations that only touch what they
make themselves.
-/

namespace Idrm.Coap

open Idrm.Lib Chained Function Option
open List hiding map_map

namespace PointerContext

/-! ## The pointers between the lists -/

/-- `t->ongoing_request` -/
def requestOf (heap : Heap TransactionNode) (t : Nat) : Option Nat :=
  (heap t).bind (·.ongoingRequest)

/-- `r->transaction` -/
def transactionOf (heap : Heap RequestNode) (r : Nat) : Option Nat := (heap r).bind (·.transaction)

/-- The lists are intact, with some transactions in limbo. -/
structure Intact (limbo : Set Nat) (ctx : PointerContext) : Prop where
  transactions : ∃ ts, Listed limbo ts ctx.transactionHeap ctx.transactions ctx.nextAddress
  requests : ∃ rs, Listed ∅ rs ctx.requestHeap ctx.ongoingRequests ctx.nextAddress
  paired : Paired (requestOf ctx.transactionHeap) (transactionOf ctx.requestHeap)

/-- A transaction without its place in the list and its timer. -/
def transactionCore (node : TransactionNode) : TransactionNode :=
  { node with next := none, retransTimer := 0 }

/-- What is left alone, of the transactions and of the requests. -/
structure Keeps (ts rs : Set Nat) (before after : PointerContext) : Prop where
  nextAddress : before.nextAddress ≤ after.nextAddress
  transactions : ∀ t ∈ ts,
    (after.transactionHeap t).map transactionCore = (before.transactionHeap t).map transactionCore
  requests : ∀ r ∈ rs,
    (after.requestHeap r).map (setNext none) = (before.requestHeap r).map (setNext none)

/-- The addresses below one. -/
abbrev below (base : Nat) : Set Nat := {address | address < base}

variable {ctx after : PointerContext} {limbo ts rs : Set Nat} {t r base : Nat}

/-- Nothing done keeps everything. -/
theorem Keeps.refl (ts rs : Set Nat) (ctx : PointerContext) : Keeps ts rs ctx ctx :=
  ⟨Nat.le_refl _, fun _ _ => rfl, fun _ _ => rfl⟩

/-- What two steps keep, they keep together. -/
theorem Keeps.trans {first second third : PointerContext} (one : Keeps ts rs first second)
    (two : Keeps ts rs second third) : Keeps ts rs first third where
  nextAddress := Nat.le_trans one.nextAddress two.nextAddress
  transactions t member := (two.transactions t member).trans (one.transactions t member)
  requests r member := (two.requests r member).trans (one.requests r member)

/-- Less may be asked for. -/
theorem Keeps.mono {ts' rs' : Set Nat} (keeps : Keeps ts rs ctx after) (fewer : ts' ⊆ ts)
    (fewerRequests : rs' ⊆ rs) : Keeps ts' rs' ctx after :=
  ⟨keeps.nextAddress, fun t member => keeps.transactions t (fewer member),
    fun r member => keeps.requests r (fewerRequests member)⟩

/-- A transaction that is kept stays allocated. -/
theorem Keeps.isSome (keeps : Keeps ts rs ctx after) (member : t ∈ ts) :
    (after.transactionHeap t).isSome = (ctx.transactionHeap t).isSome := by
  have same := congrArg Option.isSome (keeps.transactions t member)
  simpa using same

/-- It keeps its request. -/
theorem Keeps.requestOf (keeps : Keeps ts rs ctx after) (member : t ∈ ts) :
    requestOf after.transactionHeap t = requestOf ctx.transactionHeap t := by
  have same := congrArg (·.bind (·.ongoingRequest)) (keeps.transactions t member)
  simpa [PointerContext.requestOf, bind_map, Function.comp_def, transactionCore] using same

/-- A request that is kept stays allocated. -/
theorem Keeps.request_isSome (keeps : Keeps ts rs ctx after) (member : r ∈ rs) :
    (after.requestHeap r).isSome = (ctx.requestHeap r).isSome := by
  have same := congrArg Option.isSome (keeps.requests r member)
  simpa using same

/-- The place in the list says nothing of the request. -/
theorem requestOf_relinked {heap heap' : Heap TransactionNode} (relinked : Relinked heap heap') :
    requestOf heap' = requestOf heap := by
  funext t
  have same := congrArg (·.bind (·.ongoingRequest)) (relinked t)
  simpa [requestOf, bind_map, Function.comp_def, setNext] using same

/-- Nor of the transaction. -/
theorem transactionOf_relinked {heap heap' : Heap RequestNode} (relinked : Relinked heap heap') :
    transactionOf heap' = transactionOf heap := by
  funext r
  have same := congrArg (·.bind (·.transaction)) (relinked r)
  simpa [transactionOf, bind_map, Function.comp_def, setNext] using same

/-- Other pointers within the lists leave everything else alone. -/
theorem core_relinked {heap heap' : Heap TransactionNode} (relinked : Relinked heap heap')
    (t : Nat) : (heap' t).map transactionCore = (heap t).map transactionCore := by
  have same := congrArg (Option.map transactionCore) (relinked t)
  simp only [map_map] at same
  exact same

/-- Writing a transaction sets its request. -/
theorem requestOf_update (heap : Heap TransactionNode) (t : Nat) (node : Option TransactionNode) :
    requestOf (update heap t node) = update (requestOf heap) t (node.bind (·.ongoingRequest)) := by
  funext other
  by_cases same : other = t
  · subst same
    simp [requestOf]
  · simp [requestOf, same]

/-- Writing a request sets its transaction. -/
theorem transactionOf_update (heap : Heap RequestNode) (r : Nat) (node : Option RequestNode) :
    transactionOf (update heap r node) = update (transactionOf heap) r
      (node.bind (·.transaction)) := by
  funext other
  by_cases same : other = r
  · subst same
    simp [transactionOf]
  · simp [transactionOf, same]

/-! ## The lists -/

/-- A transaction that is there is added, or goes to the end. -/
theorem Intact.addTransaction (intact : Intact limbo ctx) (live : (ctx.transactionHeap t).isSome) :
    ∃ after, ctx.addTransaction t = some after ∧ Intact (limbo \ {t}) after ∧
    Keeps Set.univ Set.univ ctx after := by
  obtain ⟨ts, listed⟩ := intact.transactions
  obtain ⟨head, heap, adds, listedAfter, relinked⟩ := listed.add live
  refine ⟨{ ctx with transactions := head, transactionHeap := heap }, ?_,
    ⟨⟨_, listedAfter⟩, intact.requests, ?_⟩, ?_⟩
  · rw [PointerContext.addTransaction, adds]
    rfl
  · simp only [requestOf_relinked relinked]
    exact intact.paired
  · exact ⟨Nat.le_refl _, fun t _ => core_relinked relinked t, fun _ _ => rfl⟩

/-- A transaction that is there leaves the list, and is in limbo. -/
theorem Intact.removeTransaction (intact : Intact limbo ctx)
    (live : (ctx.transactionHeap t).isSome) : ∃ after, ctx.removeTransaction t = some after ∧
    Intact (insert t limbo) after ∧ Keeps Set.univ Set.univ ctx after := by
  obtain ⟨ts, listed⟩ := intact.transactions
  obtain ⟨head, heap, removes, listedAfter, relinked⟩ := listed.remove live
  refine ⟨{ ctx with transactions := head, transactionHeap := heap }, ?_,
    ⟨⟨_, listedAfter⟩, intact.requests, ?_⟩, ?_⟩
  · rw [PointerContext.removeTransaction, removes]
    rfl
  · simp only [requestOf_relinked relinked]
    exact intact.paired
  · exact ⟨Nat.le_refl _, fun t _ => core_relinked relinked t, fun _ _ => rfl⟩

/-! ## Making and arming transactions -/

/-- The next address holds no transaction. -/
theorem Intact.fresh (intact : Intact limbo ctx) : ctx.transactionHeap ctx.nextAddress = none := by
  obtain ⟨ts, listed⟩ := intact.transactions
  refine not_isSome_iff_eq_none.mp fun alive => ?_
  exact Nat.lt_irrefl _ (listed.bounded _ alive)

/-- It holds no request. -/
theorem Intact.fresh_request (intact : Intact limbo ctx) :
    ctx.requestHeap ctx.nextAddress = none := by
  obtain ⟨rs, listed⟩ := intact.requests
  refine not_isSome_iff_eq_none.mp fun alive => ?_
  exact Nat.lt_irrefl _ (listed.bounded _ alive)

/-- What is in limbo was allocated. -/
theorem Intact.limbo_lt (intact : Intact limbo ctx) {t : Nat} (member : t ∈ limbo) :
    t < ctx.nextAddress := by
  obtain ⟨ts, listed⟩ := intact.transactions
  exact listed.bounded t ((listed.live t).mpr (.inr member))

/-- Counting the timers down leaves the lists as they are. -/
theorem Intact.coapUpdateTransactions (intact : Intact limbo ctx) (now : UInt32) :
    ∃ after, ctx.coapUpdateTransactions now = some after ∧ Intact limbo after ∧
    Keeps Set.univ Set.univ ctx after ∧ after.nextAddress = ctx.nextAddress := by
  obtain ⟨ts, listed⟩ := intact.transactions
  have walked := listEach_eq (countDownTimer (getElpasedMs now ctx.lastChecktime)) listed.linked
    listed.distinct listed.length_le
  let heap : Heap TransactionNode := fun t =>
    if t ∈ ts then (ctx.transactionHeap t).map (countDownTimer (getElpasedMs now ctx.lastChecktime))
      else ctx.transactionHeap t
  have pointers : ∀ t, (heap t).map next = (ctx.transactionHeap t).map next := by
    intro t
    simp only [heap]
    split
    · rw [map_map]
      rfl
    · rfl
  have cores : ∀ t, (heap t).map transactionCore = (ctx.transactionHeap t).map transactionCore := by
    intro t
    simp only [heap]
    split
    · rw [map_map]
      rfl
    · rfl
  have requests : requestOf heap = requestOf ctx.transactionHeap := by
    funext t
    simp only [requestOf, heap]
    split
    · rw [bind_map]
      rfl
    · rfl
  refine ⟨{ ctx with lastChecktime := now, transactionHeap := heap }, ?_,
    ⟨⟨ts, listed.same pointers⟩, intact.requests, ?_⟩, ?_, rfl⟩
  · rw [PointerContext.coapUpdateTransactions, walked]
    rfl
  · simp only [requests]
    exact intact.paired
  · exact ⟨Nat.le_refl _, fun t _ => cores t, fun _ _ => rfl⟩

/-- A transaction that is allocated is in no list yet. -/
theorem Intact.allocate (intact : Intact limbo ctx) {node : TransactionNode}
    (unarmed : node.ongoingRequest = none) : Intact (insert ctx.nextAddress limbo)
      (({ ctx with nextAddress := ctx.nextAddress + 1 } : PointerContext).setTransaction
      ctx.nextAddress node) := by
  obtain ⟨ts, listed⟩ := intact.transactions
  obtain ⟨rs, requests⟩ := intact.requests
  have unlinked : requestOf (update ctx.transactionHeap ctx.nextAddress (some node)) =
      requestOf ctx.transactionHeap := by
    have single : requestOf ctx.transactionHeap ctx.nextAddress = none := by
      rw [requestOf, intact.fresh]
      rfl
    rw [requestOf_update, bind_some, unarmed]
    exact update_eq_self_iff.mpr single.symm
  exact ⟨⟨ts, listed.alloc node⟩, ⟨rs, requests.mono (Nat.le_succ _)⟩, unlinked ▸ intact.paired⟩

/-- A new transaction is in the list, and nothing else changes but pointers and timers. -/
theorem Intact.coapNewTransaction (intact : Intact limbo ctx) (now : UInt32)
    (mid : UInt16) (packet : List UInt8) : ∃ after,
    ctx.coapNewTransaction now mid packet = some (ctx.nextAddress, after) ∧ Intact limbo after ∧
    Keeps {ctx.nextAddress}ᶜ Set.univ ctx after ∧ ctx.nextAddress < after.nextAddress ∧
    (after.transactionHeap ctx.nextAddress).map transactionCore = some ⟨none, mid, 0, 0,
      none, packet⟩ := by
  let node : TransactionNode := ⟨none, mid, ctx.defaultRetransMs, 0, none, packet⟩
  let made : PointerContext :=
    ({ ctx with nextAddress := ctx.nextAddress + 1 } : PointerContext).setTransaction
      ctx.nextAddress node
  have intactMade : Intact (insert ctx.nextAddress limbo) made := intact.allocate rfl
  obtain ⟨updated, updates, intactUpdated, keeps, sameNext⟩ := intactMade.coapUpdateTransactions now
  have alive : (updated.transactionHeap ctx.nextAddress).isSome := by
    rw [keeps.isSome (Set.mem_univ _)]
    simp [made, setTransaction]
  obtain ⟨after, adds, intactAfter, keepsAfter⟩ := intactUpdated.addTransaction alive
  have notInLimbo : ctx.nextAddress ∉ limbo :=
    fun member => Nat.lt_irrefl _ (intact.limbo_lt member)
  rw [Set.insert_sdiff_self_of_notMem notInLimbo] at intactAfter
  have whole := keeps.trans keepsAfter
  refine ⟨after, ?_, intactAfter,
    ⟨?_, fun t member => ?_, fun r _ => whole.requests r (Set.mem_univ r)⟩, ?_, ?_⟩
  · simp only [PointerContext.coapNewTransaction]
    rw [updates]
    simp only [bind_eq_bind, bind_some]
    rw [adds]
    rfl
  · exact Nat.le_trans (Nat.le_succ _) whole.nextAddress
  · have different : t ≠ ctx.nextAddress := member
    rw [whole.transactions t (Set.mem_univ t)]
    simp [made, setTransaction, different]
  · exact Nat.lt_of_lt_of_le (Nat.lt_succ_self _) whole.nextAddress
  · rw [whole.transactions _ (Set.mem_univ _)]
    simp [made, setTransaction, node, transactionCore]

/-- A transaction that can be armed has no request yet. -/
theorem canArm_node (arms : ctx.canArm t = true) :
    ∃ node, ctx.transactionHeap t = some node ∧ node.ongoingRequest = none := by
  unfold canArm at arms
  cases here : ctx.transactionHeap t with
  | none =>
    rw [here] at arms
    cases arms
  | some node =>
    rw [here] at arms
    exact ⟨node, rfl, by simpa using arms⟩

/-- An armed transaction and its request refer to each other. -/
theorem Intact.coapSetResponseHandler (intact : Intact limbo ctx)
    (token : List UInt8) (observe callback : Bool) (arms : ctx.canArm t = true) :
    ∃ after, ctx.coapSetResponseHandler t token observe callback = some after ∧ Intact limbo after ∧
    Keeps {t}ᶜ (below ctx.nextAddress) ctx after := by
  unfold PointerContext.coapSetResponseHandler
  split
  · exact ⟨ctx, rfl, intact, .refl _ _ _⟩
  · obtain ⟨ts, listed⟩ := intact.transactions
    obtain ⟨rs, requests⟩ := intact.requests
    obtain ⟨node, here, unarmed⟩ := canArm_node arms
    let request : RequestNode := ⟨none, token.take 8, observe, callback, some t⟩
    let armed : TransactionNode := { node with ongoingRequest := some ctx.nextAddress }
    have listedArmed := (listed.write here armed rfl).mono (Nat.le_succ ctx.nextAddress)
    have made := requests.alloc request
    have alive :
      (update ctx.requestHeap ctx.nextAddress (some request) ctx.nextAddress).isSome := by simp
    obtain ⟨head, heap, adds, listedAfter, relinked⟩ := made.add alive
    rw [Set.insert_sdiff_self_of_notMem (Set.notMem_empty _)] at listedAfter
    have single : requestOf ctx.transactionHeap t = none := by
      rw [requestOf, here]
      exact unarmed
    have free : transactionOf ctx.requestHeap ctx.nextAddress = none := by
      rw [transactionOf, intact.fresh_request]
      rfl
    have younger : t < ctx.nextAddress := listed.bounded t (by rw [here]; rfl)
    have paired := intact.paired.link single free younger
    refine ⟨{ ctx with
      nextAddress := ctx.nextAddress + 1
      transactionHeap := update ctx.transactionHeap t (some armed)
      ongoingRequests := head
      requestHeap := heap }, ?_, ⟨⟨ts, listedArmed⟩, ⟨_, listedAfter⟩, ?_⟩,
        ⟨Nat.le_succ _, fun other member => ?_, fun r member => ?_⟩⟩
    · simp only [here, bind_eq_bind, bind_some, addRequest, setRequest, setTransaction]
      exact bind_eq_some_iff.mpr ⟨(head, heap), adds, rfl⟩
    · simp only [transactionOf_relinked relinked, requestOf_update, transactionOf_update]
      exact paired
    · have different : other ≠ t := member
      exact congrArg (Option.map transactionCore) (update_of_ne different ..)
    · have different : r ≠ ctx.nextAddress := Nat.ne_of_lt member
      rw [relinked r, update_of_ne different]

/-! ## Freeing -/

/-- A freed request leaves its transaction without one. -/
theorem Intact.freeOngoingRequest (intact : Intact limbo ctx) (live : (ctx.requestHeap r).isSome) :
    ∃ after, ctx.freeOngoingRequest r = some after ∧ Intact limbo after ∧
      Keeps {t | requestOf ctx.transactionHeap t ≠ some r} {r}ᶜ ctx after ∧
      (∀ t, (after.transactionHeap t).isSome = (ctx.transactionHeap t).isSome) ∧
      ∀ t, requestOf ctx.transactionHeap t = some r → requestOf after.transactionHeap t = none := by
  obtain ⟨ts, listed⟩ := intact.transactions
  obtain ⟨rs, requests⟩ := intact.requests
  obtain ⟨head, heap, removes, listedRemoved, relinked⟩ := requests.remove live
  have freed := listedRemoved.free (Set.mem_insert r ∅)
  rw [Set.insert_sdiff_self_of_notMem (Set.notMem_empty _)] at freed
  obtain ⟨node, here⟩ := isSome_iff_exists.mp ((relinked.isSome r).mpr live)
  have pointer : transactionOf ctx.requestHeap r = node.transaction := by
    rw [← transactionOf_relinked relinked, transactionOf, here]
    rfl
  have others : ∀ other ∈ ({r}ᶜ : Set Nat), (update heap r none other).map (setNext none) =
      (ctx.requestHeap other).map (setNext none) := by
    intro other member
    have different : other ≠ r := member
    rw [update_of_ne different, relinked other]
  unfold PointerContext.freeOngoingRequest
  simp only [removeRequest, removes, bind_eq_bind, bind_some, here]
  cases isTransaction : node.transaction with
  | none =>
    rw [isTransaction] at pointer
    have unpaired : ∀ t, requestOf ctx.transactionHeap t ≠ some r := by
      intro t linked
      rw [intact.paired.each, pointer] at linked
      cases linked
    refine ⟨_, rfl, ⟨⟨ts, listed⟩, ⟨_, freed⟩, ?_⟩, ⟨Nat.le_refl _, fun _ _ => rfl, others⟩,
      fun _ => rfl, fun t linked => absurd linked (unpaired t)⟩
    simp only [transactionOf_update, transactionOf_relinked relinked, bind_none]
    rw [update_eq_self_iff.mpr pointer.symm]
    exact intact.paired
  | some t =>
    rw [isTransaction] at pointer
    have linked := (intact.paired.each t r).mpr pointer
    obtain ⟨transaction, found, toRequest⟩ := bind_eq_some_iff.mp linked
    have written := listed.write found { transaction with ongoingRequest := none } rfl
    have only : ∀ other, requestOf ctx.transactionHeap other = some r → other = t := by
      intro other toSame
      rw [intact.paired.each, pointer] at toSame
      exact (some.inj toSame).symm
    simp only [found, bind_some]
    refine ⟨_, rfl, ⟨⟨ts, written⟩, ⟨_, freed⟩, ?_⟩, ⟨Nat.le_refl _, fun other apart => ?_, others⟩,
      fun other => ?_, fun other toSame => ?_⟩
    · simp only [setTransaction, requestOf_update, transactionOf_update,
        transactionOf_relinked relinked, bind_none, bind_some]
      exact intact.paired.unlink linked
    · have different : other ≠ t := fun same => apart (same ▸ linked)
      exact congrArg (Option.map transactionCore) (update_of_ne different ..)
    · by_cases same : other = t
      · subst same
        simp [setTransaction, found]
      · simp [setTransaction, same]
    · rw [only other toSame]
      simp only [setTransaction, requestOf_update, update_self, bind_some]

/-- A cleared transaction is gone, and its request waits on without it. -/
theorem Intact.coapClearTransaction (intact : Intact limbo ctx)
    (live : (ctx.transactionHeap t).isSome) :
    ∃ after, ctx.coapClearTransaction t = some after ∧ Intact (limbo \ {t}) after ∧
    Keeps {t}ᶜ {r | requestOf ctx.transactionHeap t ≠ some r} ctx after := by
  obtain ⟨removed, removes, intactRemoved, keeps⟩ := intact.removeTransaction live
  obtain ⟨ts, listed⟩ := intactRemoved.transactions
  obtain ⟨rs, requests⟩ := intactRemoved.requests
  have freed := listed.free (Set.mem_insert t limbo)
  have sameLimbo : insert t limbo \ {t} = limbo \ {t} :=
    Set.insert_sdiff_of_mem _ (Set.mem_singleton t)
  rw [sameLimbo] at freed
  obtain ⟨node, here⟩ := isSome_iff_exists.mp ((keeps.isSome (Set.mem_univ t)).trans live)
  have pointer : requestOf ctx.transactionHeap t = node.ongoingRequest := by
    rw [← keeps.requestOf (Set.mem_univ t), requestOf, here]
    rfl
  have samePointer : requestOf removed.transactionHeap t = node.ongoingRequest := by
    rw [requestOf, here]
    rfl
  have others : ∀ other ∈ ({t}ᶜ : Set Nat),
      (update removed.transactionHeap t none other).map transactionCore =
        (ctx.transactionHeap other).map transactionCore := by
    intro other member
    have different : other ≠ t := member
    rw [update_of_ne different, keeps.transactions other (Set.mem_univ other)]
  unfold PointerContext.coapClearTransaction
  simp only [removes, bind_eq_bind, bind_some, here]
  cases isRequest : node.ongoingRequest with
  | none =>
    rw [isRequest] at samePointer
    refine ⟨_, rfl, ⟨⟨ts, freed⟩, ⟨rs, requests⟩, ?_⟩,
      ⟨keeps.nextAddress, others, fun r _ => keeps.requests r (Set.mem_univ r)⟩⟩
    simp only [requestOf_update, bind_none]
    rw [update_eq_self_iff.mpr samePointer.symm]
    exact intactRemoved.paired
  | some r =>
    rw [isRequest] at samePointer pointer
    obtain ⟨request, found, toTransaction⟩ :=
      bind_eq_some_iff.mp ((intactRemoved.paired.each t r).mp samePointer)
    have written := requests.write found { request with transaction := none } rfl
    simp only [found, bind_some, toTransaction, if_true]
    refine ⟨_, rfl, ⟨⟨ts, freed⟩, ⟨rs, written⟩, ?_⟩,
      ⟨keeps.nextAddress, others, fun other apart => ?_⟩⟩
    · simp only [setRequest, requestOf_update, transactionOf_update, bind_none, bind_some]
      exact intactRemoved.paired.unlink samePointer
    · have different : other ≠ r := fun same => apart (same ▸ pointer)
      simp only [setRequest, update_of_ne different]
      exact keeps.requests other (Set.mem_univ other)

/-- The request of a transaction is freed; nothing else of it changes. -/
theorem Intact.dropRequest (intact : Intact limbo ctx) (live : (ctx.transactionHeap t).isSome) :
    ∃ after, ctx.dropRequest t = some after ∧ Intact limbo after ∧
    (after.transactionHeap t).isSome ∧ requestOf after.transactionHeap t = none ∧
    Keeps {t}ᶜ {r | requestOf ctx.transactionHeap t ≠ some r} ctx after := by
  obtain ⟨node, here⟩ := isSome_iff_exists.mp live
  unfold PointerContext.dropRequest
  simp only [here, bind_eq_bind, bind_some]
  cases isRequest : node.ongoingRequest with
  | none =>
    refine ⟨ctx, rfl, intact, live, ?_, .refl _ _ _⟩
    rw [requestOf, here]
    exact isRequest
  | some r =>
    have linked : requestOf ctx.transactionHeap t = some r := by
      rw [requestOf, here]
      exact isRequest
    have alive : (ctx.requestHeap r).isSome := by
      obtain ⟨request, found, -⟩ := bind_eq_some_iff.mp ((intact.paired.each t r).mp linked)
      rw [found]
      rfl
    obtain ⟨after, frees, intactAfter, keeps, same, unlinked⟩ := intact.freeOngoingRequest alive
    obtain ⟨node', here'⟩ := isSome_iff_exists.mp ((same t).trans live)
    have single : node'.ongoingRequest = none := by
      have pointer := unlinked t linked
      rw [requestOf, here'] at pointer
      exact pointer
    -- the pointer that is cleared again is clear already
    have unchanged : after.setTransaction t { node' with ongoingRequest := none } = after := by
      have equal : ({ node' with ongoingRequest := none } : TransactionNode) = node' := by
        rw [← single]
      rw [setTransaction, equal, update_eq_self_iff.mpr here'.symm]
    refine ⟨after, ?_, intactAfter, (same t).trans live, unlinked t linked, keeps.mono ?_ ?_⟩
    · simp only [frees, bind_some, here', unchanged]
    · intro other different toRequest
      refine different ?_
      have back := (intact.paired.each t r).mp linked
      rw [intact.paired.each, back] at toRequest
      exact (some.inj toRequest).symm
    · intro other apart same
      exact apart (same ▸ linked)

/-! ## Sending -/

/-- What a callback may do: it touches nothing that was there before it was called. -/
def Harmless (callback : PointerContext → Option PointerContext) : Prop :=
  ∀ limbo ctx, Intact limbo ctx →
    ∃ after, callback ctx = some after ∧ Intact limbo after ∧
      Keeps (below ctx.nextAddress) (below ctx.nextAddress) ctx after

variable {callback : PointerContext → Option PointerContext}

variable {request : Option Nat}

/-- A harmless callback leaves the lists intact, and what is older as it was. -/
theorem Intact.runRequestCallback (intact : Intact limbo ctx) (harmless : Harmless callback)
    (live : ∀ r ∈ request, (ctx.requestHeap r).isSome) :
    ∃ after, ctx.runRequestCallback callback request = some after ∧ Intact limbo after ∧
      Keeps (below ctx.nextAddress) (below ctx.nextAddress) ctx after := by
  cases request with
  | none => exact ⟨ctx, rfl, intact, .refl _ _ _⟩
  | some r =>
    obtain ⟨node, here⟩ := isSome_iff_exists.mp (live r rfl)
    unfold PointerContext.runRequestCallback
    simp only [here, bind_eq_bind, bind_some]
    split
    · exact harmless limbo ctx intact
    · exact ⟨ctx, rfl, intact, .refl _ _ _⟩

/-- Transactions lie below the next address. -/
theorem Intact.transaction_lt (intact : Intact limbo ctx) (live : (ctx.transactionHeap t).isSome) :
    t < ctx.nextAddress := by
  obtain ⟨ts, listed⟩ := intact.transactions
  exact listed.bounded t live

/-- So do requests. -/
theorem Intact.request_lt (intact : Intact limbo ctx) (live : (ctx.requestHeap r).isSome) :
    r < ctx.nextAddress := by
  obtain ⟨rs, listed⟩ := intact.requests
  exact listed.bounded r live

/-- The request of a transaction that has one is there. -/
theorem Intact.request_live (intact : Intact limbo ctx)
    (linked : requestOf ctx.transactionHeap t = some r) : (ctx.requestHeap r).isSome := by
  obtain ⟨request, found, -⟩ := bind_eq_some_iff.mp ((intact.paired.each t r).mp linked)
  rw [found]
  rfl

/-- What a transaction may change when it is sent: itself and its request. -/
abbrev Elsewhere (t : Nat) (ctx after : PointerContext) : Prop :=
  Keeps (below ctx.nextAddress \ {t})
    {r | r < ctx.nextAddress ∧ requestOf ctx.transactionHeap t ≠ some r} ctx after

/-- A transaction and its request are freed. -/
theorem Intact.close (intact : Intact limbo ctx) (live : (ctx.transactionHeap t).isSome) :
    ∃ dropped after, ctx.dropRequest t = some dropped ∧
    dropped.coapClearTransaction t = some after ∧ Intact (limbo \ {t}) after ∧
    Keeps {t}ᶜ {r | requestOf ctx.transactionHeap t ≠ some r} ctx after := by
  obtain ⟨dropped, drops, intactDropped, alive, single, keeps⟩ := intact.dropRequest live
  obtain ⟨after, clears, intactAfter, keepsAfter⟩ := intactDropped.coapClearTransaction alive
  refine ⟨dropped, after, drops, clears, intactAfter,
    keeps.trans (keepsAfter.mono (fun _ member => member) ?_)⟩
  intro r _ linked
  rw [single] at linked
  cases linked

/-- A transaction that is sent stays, or is freed with its request. -/
theorem Intact.coapSendTransaction (intact : Intact limbo ctx) (harmless : Harmless callback)
    (live : (ctx.transactionHeap t).isSome) :
    ∃ freed after, ctx.coapSendTransaction callback t = some (freed, after) ∧
    Elsewhere t ctx after ∧ (freed = true → Intact (limbo \ {t}) after) ∧
    (freed = false → Intact limbo after ∧ (after.transactionHeap t).isSome) := by
  obtain ⟨node, here⟩ := isSome_iff_exists.mp live
  obtain ⟨ts, listed⟩ := intact.transactions
  have sent : ∀ packets, Intact limbo { ctx with txData := packets } :=
    fun _ => ⟨⟨ts, listed⟩, intact.requests, intact.paired⟩
  unfold PointerContext.coapSendTransaction
  simp only [here, bind_eq_bind, bind_some]
  split
  · split
    · let again : TransactionNode :=
        { node with
          retransTimer := ctx.defaultRetransMs
          retransCounter := node.retransCounter + 1 }
      refine ⟨false, _, rfl, ⟨Nat.le_refl _, fun other member => ?_, fun _ _ => rfl⟩,
        fun freed => absurd freed Bool.false_ne_true, fun _ =>
        ⟨⟨⟨ts, listed.write here again rfl⟩, intact.requests, ?_⟩, by simp [setTransaction]⟩⟩
      · exact congrArg (Option.map transactionCore) (update_of_ne member.2 ..)
      · simp only [setTransaction, requestOf_update, bind_some]
        have same : requestOf ctx.transactionHeap t = node.ongoingRequest := by
          rw [requestOf, here]
          rfl
        rw [update_eq_self_iff.mpr same.symm]
        exact intact.paired
    · -- the callback is told that the request timed out
      have alive : ∀ r ∈ node.ongoingRequest, (ctx.requestHeap r).isSome := by
        intro r isRequest
        refine intact.request_live (t := t) ?_
        rw [requestOf, here]
        exact isRequest
      obtain ⟨called, calls, intactCalled, keepsCalled⟩ := intact.runRequestCallback harmless alive
      have alive : (called.transactionHeap t).isSome :=
        (keepsCalled.isSome (intact.transaction_lt live)).trans live
      have sameRequest := keepsCalled.requestOf (intact.transaction_lt live)
      obtain ⟨dropped, after, drops, clears, intactAfter, keeps⟩ := intactCalled.close alive
      refine ⟨true, after, ?_, ?_, fun _ => intactAfter,
        fun freed => absurd freed.symm Bool.false_ne_true⟩
      · simp only [calls, bind_some, drops, clears]
      · refine (keepsCalled.mono Set.sdiff_subset fun r member => member.1).trans
          (keeps.mono (fun other member => member.2) ?_)
        intro r member linked
        exact member.2 (sameRequest.symm.trans linked)
  · obtain ⟨dropped, after, drops, clears, intactAfter, keeps⟩ :=
      (sent (ctx.txData ++ [node.packet])).close live
    refine ⟨true, after, ?_, ?_, fun _ => intactAfter,
      fun freed => absurd freed.symm Bool.false_ne_true⟩
    · simp only [drops, bind_some, clears]
    · have elsewhere :=
        keeps.mono (fun other (member : other ∈ below ctx.nextAddress \ {t}) => member.2)
          fun r (member : r ∈ {r | r < ctx.nextAddress ∧
            requestOf ctx.transactionHeap t ≠ some r}) => member.2
      exact ⟨elsewhere.nextAddress, elsewhere.transactions, elsewhere.requests⟩

/-- The lists stay intact around a transaction that is sent from its list. -/
theorem Intact.sendListed (intact : Intact limbo ctx)
    (harmless : Harmless callback) (live : (ctx.transactionHeap t).isSome)
    (listed : t ∉ limbo) : ∃ freed after, ctx.coapSendTransaction callback t = some (freed, after) ∧
    Elsewhere t ctx after ∧ Intact limbo after := by
  obtain ⟨freed, after, sends, elsewhere, goes, stays⟩ := intact.coapSendTransaction harmless live
  refine ⟨freed, after, sends, elsewhere, ?_⟩
  cases freed with
  | true =>
    have gone := goes rfl
    rwa [Set.sdiff_singleton_eq_self listed] at gone
  | false => exact (stays rfl).1

/-! ## Callbacks -/

/-- What lies below a transaction is elsewhere: its request is younger than itself. -/
theorem Intact.keeps_below (intact : Intact limbo ctx)
    (elsewhere : Elsewhere t ctx after) (least : base ≤ t)
    (made : base ≤ ctx.nextAddress) : Keeps (below base) (below base) ctx after := by
  refine elsewhere.mono (fun other member => ?_) (fun r member => ?_)
  · have lower : other < base := member
    exact ⟨Nat.lt_of_lt_of_le lower made, fun same => Nat.not_lt_of_le least (same ▸ lower)⟩
  · have lower : r < base := member
    refine ⟨Nat.lt_of_lt_of_le lower made, fun linked => ?_⟩
    have younger := intact.paired.younger t r linked
    omega

/-- A script touches nothing that was there before it started. -/
theorem runScript_keeps (script : Script) {made : List Nat} (intact : Intact limbo ctx)
    (own : ∀ t ∈ made, base ≤ t) (before : ∀ t ∈ limbo, t < base) (start : base ≤ ctx.nextAddress) :
    ∃ after, runScript script made ctx = some after ∧ Intact limbo after ∧ Keeps (below base)
    (below base) ctx after := by
  induction script generalizing made limbo ctx base with
  | done => exact ⟨ctx, rfl, intact, .refl _ _ _⟩
  | newTransaction now mid packet rest ih =>
    obtain ⟨next, makes, intactNext, keeps, later, -⟩ := intact.coapNewTransaction now mid packet
    have ownNext : ∀ t ∈ made ++ [ctx.nextAddress], base ≤ t := by
      intro t member
      rcases mem_append.mp member with earlier | last
      · exact own t earlier
      · rw [mem_singleton.mp last]
        exact start
    obtain ⟨after, runs, intactAfter, keepsAfter⟩ :=
      ih intactNext ownNext before (Nat.le_trans start (Nat.le_of_lt later))
    refine ⟨after, ?_, intactAfter, (keeps.mono ?_ (Set.subset_univ _)).trans keepsAfter⟩
    · simp only [runScript, makes, bind_eq_bind, bind_some, runs]
    · exact fun t member => Nat.ne_of_lt (Nat.lt_of_lt_of_le member start)
  | setResponseHandler index token observe callback rest ih =>
    unfold runScript
    split
    · exact ih intact own before start
    · rename_i t found
      have ownTransaction := own t (mem_of_getElem? found)
      split
      · rename_i arms
        obtain ⟨next, sets, intactNext, keeps⟩ :=
          intact.coapSetResponseHandler token observe callback arms
        obtain ⟨after, runs, intactAfter, keepsAfter⟩ :=
          ih intactNext own before (Nat.le_trans start keeps.nextAddress)
        refine ⟨after, ?_, intactAfter, (keeps.mono ?_ ?_).trans keepsAfter⟩
        · simp only [sets, bind_eq_bind, bind_some, runs]
        · exact fun other member same => Nat.not_lt_of_le ownTransaction (same ▸ member)
        · exact fun r member => Nat.lt_of_lt_of_le member start
      · exact ih intact own before start
  | sendTransaction index callback rest nested ih =>
    unfold runScript
    split
    · exact ih intact own before start
    · rename_i t found
      have ownTransaction := own t (mem_of_getElem? found)
      split
      · rename_i live
        have harmless : Harmless (runScript callback []) := by
          intro limbo ctx intact
          exact nested intact (fun _ member => absurd member not_mem_nil)
            (fun _ member => intact.limbo_lt member) (Nat.le_refl _)
        obtain ⟨freed, next, sends, elsewhere, intactNext⟩ :=
          intact.sendListed harmless live fun member =>
          Nat.not_lt_of_le ownTransaction (before t member)
        have keeps := intact.keeps_below elsewhere ownTransaction start
        obtain ⟨after, runs, intactAfter, keepsAfter⟩ :=
          ih intactNext own before (Nat.le_trans start keeps.nextAddress)
        refine ⟨after, ?_, intactAfter, keeps.trans keepsAfter⟩
        simp only [sends, bind_eq_bind, bind_some, runs]
      · exact ih intact own before start

/-- What a script does is harmless. -/
theorem harmless_runScript (script : Script) : Harmless (runScript script []) := by
  intro limbo ctx intact
  exact runScript_keeps script intact (fun _ member => absurd member not_mem_nil)
    (fun _ member => intact.limbo_lt member) (Nat.le_refl _)

/-! ## Packets -/

/-- A request that is there is freed, or waits on. -/
theorem Intact.freeIf (intact : Intact limbo ctx)
    (live : (ctx.requestHeap r).isSome) (condition : Prop) [Decidable condition] : ∃ after,
    (if condition then ctx.freeOngoingRequest r else some ctx) = some after ∧ Intact limbo after ∧
    ∀ t, (after.transactionHeap t).isSome = (ctx.transactionHeap t).isSome := by
  split
  · obtain ⟨after, frees, intactAfter, -, same, -⟩ := intact.freeOngoingRequest live
    exact ⟨after, frees, intactAfter, same⟩
  · exact ⟨ctx, rfl, intact, fun _ => rfl⟩

/-- An answered request runs its callback, and the lists stay intact. -/
theorem Intact.answerRequest (intact : Intact limbo ctx) (harmless : Harmless callback)
    (message : Packet) (live : ∀ r ∈ request, (ctx.requestHeap r).isSome) :
    ∃ after, ctx.answerRequest callback message request = some after ∧ Intact limbo after ∧
    ∀ t, (ctx.transactionHeap t).isSome → (after.transactionHeap t).isSome := by
  cases request with
  | none => exact ⟨ctx, rfl, intact, fun _ alive => alive⟩
  | some r =>
    obtain ⟨called, calls, intactCalled, keeps⟩ : ∃ called, (if message.code ≠ 0 ∨ message.type =
        .rst then ctx.runRequestCallback callback (some r) else some ctx) = some called ∧
        Intact limbo called ∧ Keeps (below ctx.nextAddress) (below ctx.nextAddress) ctx called := by
      split
      · exact intact.runRequestCallback harmless live
      · exact ⟨ctx, rfl, intact, .refl _ _ _⟩
    have alive : (called.requestHeap r).isSome :=
      (keeps.request_isSome (intact.request_lt (live r rfl))).trans (live r rfl)
    obtain ⟨node, here⟩ := isSome_iff_exists.mp alive
    obtain ⟨after, frees, intactAfter, same⟩ :=
      intactCalled.freeIf alive ((message.code ≠ 0 ∧ node.observe = false) ∨ message.type = .rst)
    refine ⟨after, ?_, intactAfter, fun t aliveBefore => ?_⟩
    · simp only [PointerContext.answerRequest, calls, bind_eq_bind, bind_some, here, frees]
    · rw [same, keeps.isSome (intact.transaction_lt aliveBefore)]
      exact aliveBefore

/-- So they do for a separate answer. -/
theorem Intact.answerSeparately (intact : Intact limbo ctx) (harmless : Harmless callback)
    (message : Packet) (live : ∀ r ∈ request, (ctx.requestHeap r).isSome) :
    ∃ after, ctx.answerSeparately callback message request = some after ∧ Intact limbo after := by
  cases request with
  | none => exact ⟨ctx, rfl, intact⟩
  | some r =>
    obtain ⟨called, calls, intactCalled, keeps⟩ := intact.runRequestCallback harmless live
    have alive : (called.requestHeap r).isSome :=
      (keeps.request_isSome (intact.request_lt (live r rfl))).trans (live r rfl)
    obtain ⟨node, here⟩ := isSome_iff_exists.mp alive
    obtain ⟨after, frees, intactAfter, -⟩ :=
      intactCalled.freeIf alive (node.observe = false ∨ message.type = .rst)
    refine ⟨after, ?_, intactAfter⟩
    simp only [PointerContext.answerSeparately, calls, bind_eq_bind, bind_some, here, frees]

/-- Every packet is handled, and leaves the lists intact. -/
theorem Intact.coapHandlePacket (intact : Intact ∅ ctx)
    (harmless : Harmless callback) (message : Packet) :
    ∃ after, ctx.coapHandlePacket callback message = some after ∧ Intact ∅ after := by
  unfold PointerContext.coapHandlePacket
  split
  · exact ⟨ctx, rfl, intact⟩
  · obtain ⟨ts, listed⟩ := intact.transactions
    obtain ⟨rs, requests⟩ := intact.requests
    obtain ⟨found, finds, inList⟩ :=
      listFind_spec (fun node : TransactionNode => node.mid = message.mid) listed.linked
        listed.length_le
    unfold PointerContext.matchPacket
    simp only [finds, bind_eq_bind, bind_some]
    cases found with
    | some t =>
      obtain ⟨-, node, here, -⟩ := inList t rfl
      have live : (ctx.transactionHeap t).isSome := by
        rw [here]
        rfl
      have alive : ∀ r ∈ node.ongoingRequest, (ctx.requestHeap r).isSome := by
        intro r isRequest
        refine intact.request_live (t := t) ?_
        rw [requestOf, here]
        exact isRequest
      obtain ⟨answered, answers, intactAnswered, stays⟩ :=
        intact.answerRequest harmless message alive
      obtain ⟨after, clears, intactAfter, -⟩ := intactAnswered.coapClearTransaction (stays t live)
      rw [Set.empty_sdiff] at intactAfter
      refine ⟨after, ?_, intactAfter⟩
      simp only [here, bind_some, answers, clears]
    | none =>
      obtain ⟨request, findsRequest, inRequests⟩ :=
        listFind_spec (fun node : RequestNode => node.token = message.token.bytes) requests.linked
          requests.length_le
      have alive : ∀ r ∈ request, (ctx.requestHeap r).isSome :=
        fun r isRequest => (requests.live r).mpr (.inl (inRequests r isRequest).1)
      obtain ⟨after, answers, intactAfter⟩ := intact.answerSeparately harmless message alive
      refine ⟨after, ?_, intactAfter⟩
      simp only [findsRequest, bind_some, answers]

/-! ## Expiry -/

/-- What the first loop leaves, from some place of the list on: `items` is the list that is
left, and what was taken out of it is among the noted transactions. -/
structure Collected (head : Option Nat) (expired kept rest : List Nat)
    (before : Heap TransactionNode) (noted : List Nat)
    (after : Heap TransactionNode) (items : List Nat) : Prop where
  linked : Linked after head items
  left : items.Sublist (kept ++ rest)
  out : ∀ t ∈ kept ++ rest, t ∉ items → t ∈ noted
  noted : ∃ more, noted = expired ++ more ∧ more.Sublist rest
  cores : ∀ t, (after t).map transactionCore = (before t).map transactionCore

variable {head pointer previous : Option Nat} {expired kept rest noted items : List Nat}
  {heap heap' : Heap TransactionNode}
  {nearest : UInt32} {steps : Nat}

/-- A transaction that is passed stays linked. -/
theorem Collected.pass (more' : List Nat)
    (collected : Collected head (expired ++ more') (kept ++ [t]) rest heap' noted heap items)
    (fits : more'.Sublist [t]) {before : Heap TransactionNode}
    (cores : ∀ t, (heap' t).map transactionCore = (before t).map transactionCore) :
    Collected head expired kept (t :: rest) before noted heap items := by
  obtain ⟨more, rfl, sublist⟩ := collected.noted
  have whole : kept ++ [t] ++ rest = kept ++ t :: rest := append_cons .. |>.symm
  refine ⟨collected.linked, whole ▸ collected.left, ?_, ⟨more' ++ more, append_assoc ..,
    fits.append sublist⟩, fun t => (collected.cores t).trans (cores t)⟩
  intro other member
  exact collected.out other (whole.symm ▸ member)

/-- A transaction that is taken out is noted. -/
theorem Collected.takeOut
      (collected : Collected head (expired ++ [t]) kept rest heap' noted heap items)
    {before : Heap TransactionNode}
    (cores : ∀ t, (heap' t).map transactionCore = (before t).map transactionCore) :
    Collected head expired kept (t :: rest) before noted heap items := by
  obtain ⟨more, rfl, sublist⟩ := collected.noted
  refine ⟨collected.linked, collected.left.trans ((sublist_cons_self t rest).append_left kept), ?_,
    ⟨t :: more, append_assoc .., sublist.cons_cons t⟩, fun t => (collected.cores t).trans (cores t)⟩
  intro other member gone
  rcases mem_append.mp member with inKept | inRest
  · exact collected.out other (mem_append_left _ inKept) gone
  · rcases mem_cons.mp inRest with rfl | later
    · simp
    · exact collected.out other (mem_append_right _ later) gone

/-- Where the walk ends, what it left linked is the list. -/
theorem Collected.stop (linked : Linked heap head (kept ++ rest)) :
    Collected head expired kept rest heap expired heap (kept ++ rest) :=
  ⟨linked, List.Sublist.refl _, fun _ member gone => absurd member gone,
    ⟨[], (append_nil _).symm, nil_sublist _⟩, fun _ => rfl⟩

/-- The first loop leaves the list with the front and the survivors, and the other expired
transactions in no list. `kept` is what the walk left linked behind it; it ends with the last
survivor, if there was one. -/
theorem collectExpired_spec (elpasedMs : UInt32) (previous : Option Nat) (expired : List Nat)
    (linked : Segment heap head kept pointer) (toCome : Linked heap pointer rest)
    (distinct : (kept ++ rest).Nodup) (survivor : ∀ p ∈ previous, ∃ front, kept = front ++ [p])
    (enough : rest.length ≤ steps) (nearest : UInt32) : ∃ noted timeout after items,
    collectExpired elpasedMs steps previous expired nearest pointer heap =
      some (noted, timeout, after) ∧ Collected head expired kept rest heap noted after items := by
  induction steps generalizing previous pointer expired kept rest heap nearest with
  | zero =>
    obtain rfl : rest = [] := length_eq_zero_iff.mp (Nat.le_zero.mp enough)
    obtain rfl : pointer = none := toCome
    exact ⟨expired, nearest, heap, _, rfl, .stop (Segment.append_iff.mpr ⟨none, linked, rfl⟩)⟩
  | succ steps ih =>
    cases rest with
    | nil =>
      obtain rfl : pointer = none := toCome
      exact ⟨expired, nearest, heap, _, rfl, .stop (Segment.append_iff.mpr ⟨none, linked, rfl⟩)⟩
    | cons t rest =>
      obtain ⟨rfl, node, here, later⟩ := toCome
      have longer : (kept ++ [t] ++ rest).Nodup := by
        rw [append_assoc]
        exact distinct
      have shorter : (kept ++ rest).Nodup := (nodup_cons.mp (nodup_middle.mp distinct)).2
      have fewer : rest.length ≤ steps := Nat.le_of_succ_le_succ enough
      unfold collectExpired
      simp only [here, bind_eq_bind, bind_some]
      split
      · cases previous with
        | none =>
          -- nothing survived yet: the transaction stays at the front
          dsimp only
          split
          · refine ⟨expired ++ [t], 0, heap, kept ++ [t] ++ rest, rfl,
              Collected.pass [t] ?_ (List.Sublist.refl _) fun _ => rfl⟩
            exact .stop (Segment.append_iff.mpr ⟨node.next, linked.concat here, later⟩)
          · obtain ⟨noted, timeout, after, items, collects, collected⟩ :=
              ih none (expired ++ [t]) (linked.concat here) later longer
                (fun _ isSome => absurd isSome (by simp)) fewer nearest
            exact ⟨noted, timeout, after, items, collects,
              collected.pass [t] (List.Sublist.refl _) fun _ => rfl⟩
        | some p =>
          obtain ⟨front, rfl⟩ := survivor p rfl
          obtain ⟨-, before, there, -⟩ := linked.last
          have bypassed :
              update heap p (some { before with next := node.next }) = heap.relink p node.next := by
            rw [Heap.relink, there]
            rfl
          have once : p ∉ front := by
            have apart := nodup_append.mp (nodup_append.mp distinct).1
            exact fun member => apart.2.2 p member p mem_cons_self rfl
          have notCome : p ∉ t :: rest := by
            have apart := nodup_append.mp distinct
            exact fun member => apart.2.2 p (mem_append_right _ mem_cons_self) p member rfl
          have different : p ≠ t := fun same => notCome (same ▸ mem_cons_self)
          have notLater : p ∉ rest := fun member => notCome (mem_cons_of_mem _ member)
          have around := linked.redirect once node.next
          have behind := later.relink notLater node.next
          have cores := core_relinked (relinked_relink p node.next heap)
          simp only [there, bind_some, bypassed]
          split
          · exact ⟨expired ++ [t], 0, _, front ++ [p] ++ rest, rfl,
              Collected.takeOut (.stop (Segment.append_iff.mpr ⟨node.next, around, behind⟩)) cores⟩
          · have still : heap.relink p node.next t = some node := by
              rw [Heap.relink_other _ (Ne.symm different), here]
            simp only [still, bind_some]
            obtain ⟨noted, timeout, after, items, collects, collected⟩ :=
              ih (some p) (expired ++ [t]) around behind shorter
                (fun _ isSome => ⟨front, by rw [some.inj isSome]⟩) fewer nearest
            exact ⟨noted, timeout, after, items, collects, collected.takeOut cores⟩
      · let aged : TransactionNode := { node with retransTimer := node.retransTimer - elpasedMs }
        have timed : ∀ other,
            (update heap t (some aged) other).map next = (heap other).map next := by
          intro other
          by_cases same : other = t
          · subst same
            rw [update_self, here]
            rfl
          · rw [update_of_ne same]
        have cores : ∀ other, (update heap t (some aged) other).map transactionCore =
            (heap other).map transactionCore := by
          intro other
          by_cases same : other = t
          · subst same
            rw [update_self, here]
            rfl
          · rw [update_of_ne same]
        have segment := (linked.concat here).frame fun other _ => timed other
        have behind := later.frame fun other _ => timed other
        obtain ⟨noted, timeout, after, items, collects, collected⟩ :=
          ih (some t) (expired ++ []) segment behind longer
            (fun _ isSome => ⟨kept, by rw [some.inj isSome]⟩) fewer
            (if nearest > aged.retransTimer then aged.retransTimer else nearest)
        rw [append_nil] at collects
        exact ⟨noted, timeout, after, items, collects, collected.pass [] (nil_sublist _) cores⟩

variable {callbacks : Nat → PointerContext → Option PointerContext}

/-- The second loop brings every noted transaction back into the list, or frees it. -/
theorem Intact.resendExpired (harmless : ∀ t, Harmless (callbacks t)) (intact : Intact limbo ctx)
    (distinct : expired.Nodup) (live : ∀ t ∈ expired, (ctx.transactionHeap t).isSome)
    (inside : ∀ t ∈ limbo, t ∈ expired) (nearest : UInt32) : ∃ timeout after,
    resendExpired callbacks expired nearest ctx = some (timeout, after) ∧ Intact ∅ after := by
  induction expired generalizing limbo ctx nearest with
  | nil =>
    obtain rfl : limbo = ∅ :=
      Set.eq_empty_of_forall_notMem fun t member => absurd (inside t member) not_mem_nil
    exact ⟨nearest, ctx, rfl, intact⟩
  | cons t rest ih =>
    obtain ⟨notAgain, distinct⟩ := nodup_cons.mp distinct
    obtain ⟨freed, sent, sends, elsewhere, goes, stays⟩ :=
      intact.coapSendTransaction (harmless t) (live t mem_cons_self)
    have remaining : ∀ other ∈ limbo \ {t}, other ∈ rest := by
      intro other member
      rcases mem_cons.mp (inside other member.1) with same | later
      · exact absurd same member.2
      · exact later
    have alive : ∀ other ∈ rest, (sent.transactionHeap other).isSome := by
      intro other member
      have before := live other (mem_cons_of_mem _ member)
      have different : other ≠ t := fun same => notAgain (same ▸ member)
      rw [elsewhere.isSome ⟨intact.transaction_lt before, different⟩]
      exact before
    unfold PointerContext.resendExpired
    simp only [sends, bind_eq_bind, bind_some]
    cases freed with
    | true => exact ih (goes rfl) distinct alive remaining nearest
    | false =>
      obtain ⟨intactSent, aliveSent⟩ := stays rfl
      obtain ⟨added, adds, intactAdded, keeps⟩ := intactSent.addTransaction aliveSent
      obtain ⟨node, here⟩ := isSome_iff_exists.mp ((keeps.isSome (Set.mem_univ t)).trans aliveSent)
      have aliveAdded : ∀ other ∈ rest, (added.transactionHeap other).isSome := by
        intro other member
        rw [keeps.isSome (Set.mem_univ other)]
        exact alive other member
      simp only [Bool.false_eq_true, if_false, adds, bind_some, here]
      exact ih intactAdded distinct aliveAdded remaining _

/-- Transactions that only differ in pointers and timers refer to the same requests. -/
theorem requestOf_cores {before after : Heap TransactionNode}
    (cores : ∀ t, (after t).map transactionCore = (before t).map transactionCore) :
    requestOf after = requestOf before := by
  funext t
  have same := congrArg (·.bind (·.ongoingRequest)) (cores t)
  simpa [requestOf, bind_map, Function.comp_def, transactionCore] using same

/-- The first loop leaves the transactions that it took out of the list in limbo. -/
theorem Intact.collectExpired (intact : Intact ∅ ctx) (now : UInt32) : ∃ expired timeout heap limbo,
    collectExpired (getElpasedMs now ctx.lastChecktime) ctx.nextAddress none
      [] 60000 ctx.transactions ctx.transactionHeap = some (expired, timeout, heap) ∧
    Intact limbo { ctx with lastChecktime := now, transactionHeap := heap } ∧ expired.Nodup ∧
      (∀ t ∈ expired, (heap t).isSome) ∧ (∀ t ∈ limbo, t ∈ expired) ∧
      ∀ t, (heap t).map transactionCore = (ctx.transactionHeap t).map transactionCore := by
  obtain ⟨ts, listed⟩ := intact.transactions
  have start : Segment ctx.transactionHeap ctx.transactions [] ctx.transactions := rfl
  have distinct : ([] ++ ts).Nodup := listed.distinct
  have noSurvivor : ∀ p ∈ (none : Option Nat), ∃ front, ([] : List Nat) = front ++ [p] :=
    fun _ isSome => absurd isSome (by simp)
  obtain ⟨noted, timeout, heap, items, collects, collected⟩ :=
    collectExpired_spec (getElpasedMs now ctx.lastChecktime) none
      [] start listed.linked distinct noSurvivor listed.length_le 60000
  obtain ⟨more, same, sublist⟩ := collected.noted
  rw [nil_append] at same
  subst same
  have alive : ∀ t, (heap t).isSome = (ctx.transactionHeap t).isSome := by
    intro t
    have same := congrArg Option.isSome (collected.cores t)
    simpa using same
  have members : ∀ t, (ctx.transactionHeap t).isSome ↔ t ∈ ts := by
    intro t
    rw [listed.live]
    simp
  let limbo : Set Nat := {t | t ∈ ts ∧ t ∉ items}
  have listedAfter : Listed limbo items heap ctx.transactions ctx.nextAddress := by
    refine ⟨collected.linked, collected.left.nodup listed.distinct, fun t => ?_,
      fun t member => member.2, fun t live => ?_⟩
    · rw [alive, members]
      constructor
      · intro member
        by_cases inItems : t ∈ items
        · exact .inl inItems
        · exact .inr ⟨member, inItems⟩
      · rintro (inItems | inLimbo)
        · exact collected.left.subset inItems
        · exact inLimbo.1
    · exact listed.bounded t ((alive t).symm.trans live)
  refine ⟨noted, timeout, heap,
    limbo, collects, ⟨⟨items, listedAfter⟩, intact.requests, ?_⟩, sublist.nodup listed.distinct, ?_,
    fun t member => collected.out t member.1 member.2, collected.cores⟩
  · have same := requestOf_cores collected.cores
    exact same.symm ▸ intact.paired
  · intro t member
    rw [alive, members]
    exact sublist.subset member

/-- So does every check of the timers. -/
theorem Intact.coapCheckTransactions (harmless : ∀ t, Harmless (callbacks t))
    (intact : Intact ∅ ctx) (now : UInt32) : ∃ timeout after,
    ctx.coapCheckTransactions callbacks now = some (timeout, after) ∧ Intact ∅ after := by
  obtain ⟨expired, timeout, heap, limbo, collects, intactAfter, distinct, live, inside, -⟩ :=
    intact.collectExpired now
  obtain ⟨nearest, after, resends, intactEnd⟩ :=
    intactAfter.resendExpired harmless distinct live inside timeout
  refine ⟨nearest, after, ?_, intactEnd⟩
  unfold PointerContext.coapCheckTransactions
  simp only [bind_eq_bind]
  rw [collects]
  exact resends

/-! ## Runs -/

/-- A new context has two empty lists. -/
theorem intact_new (defaultRetransMs : UInt32) (defaultRetransCnt : UInt16) :
    Intact ∅ (new defaultRetransMs defaultRetransCnt) where
  transactions := ⟨[], rfl, nodup_nil, fun t => by simp [new], fun _ _ => not_mem_nil,
    fun t live => by cases live⟩
  requests := ⟨[], rfl, nodup_nil, fun t => by simp [new], fun _ _ => not_mem_nil,
    fun t live => by cases live⟩
  paired := by
    constructor
    · intro t r
      constructor <;> intro linked <;> cases linked
    · intro t r linked
      cases linked

/-- Every call has a result, and leaves the lists intact. -/
theorem Intact.perform (intact : Intact ∅ ctx) {operation : Operation}
    (permitted : Permitted ctx operation) :
    ∃ after, ctx.perform operation = some after ∧ Intact ∅ after := by
  cases operation with
  | newTransaction now mid packet =>
    obtain ⟨after, makes, intactAfter, -⟩ := intact.coapNewTransaction now mid packet
    exact ⟨after, by rw [PointerContext.perform, makes, map_some], intactAfter⟩
  | setResponseHandler t token observe callback =>
    obtain ⟨after, sets, intactAfter, -⟩ :=
      intact.coapSetResponseHandler token observe callback permitted
    exact ⟨after, sets, intactAfter⟩
  | sendTransaction t callback =>
    obtain ⟨freed, after, sends, -, goes, stays⟩ :=
      intact.coapSendTransaction (harmless_runScript callback) permitted
    refine ⟨after, by rw [PointerContext.perform, sends, map_some], ?_⟩
    cases freed with
    | true =>
      have gone := goes rfl
      rwa [Set.empty_sdiff] at gone
    | false => exact (stays rfl).1
  | clearTransaction t =>
    obtain ⟨after, clears, intactAfter, -⟩ := intact.coapClearTransaction permitted
    rw [Set.empty_sdiff] at intactAfter
    exact ⟨after, clears, intactAfter⟩
  | handlePacket message callback =>
    exact intact.coapHandlePacket (harmless_runScript callback) message
  | checkTransactions now callbacks =>
    obtain ⟨timeout, after, checks, intactAfter⟩ :=
      intact.coapCheckTransactions (fun t => harmless_runScript (callbacks t)) now
    exact ⟨after, by rw [PointerContext.perform, checks, map_some], intactAfter⟩

/-- The lists hold what was made and not freed, once and nothing else, and the pointers between
them agree. -/
structure ListsIntact (ctx : PointerContext) : Prop where
  transactions : ∃ ts, Linked ctx.transactionHeap ctx.transactions ts ∧ ts.Nodup ∧ ∀ t, t ∈ ts ↔
    (ctx.transactionHeap t).isSome
  requests : ∃ rs, Linked ctx.requestHeap ctx.ongoingRequests rs ∧ rs.Nodup ∧ ∀ r, r ∈ rs ↔
    (ctx.requestHeap r).isSome
  agree : ∀ t r, requestOf ctx.transactionHeap t = some r ↔ transactionOf ctx.requestHeap r = some t

/-- With nothing in limbo both lists hold exactly what is allocated. -/
theorem Intact.listsIntact (intact : Intact ∅ ctx) : ListsIntact ctx := by
  obtain ⟨ts, listed⟩ := intact.transactions
  obtain ⟨rs, requests⟩ := intact.requests
  refine ⟨⟨ts, listed.linked, listed.distinct, fun t => ?_⟩,
    ⟨rs, requests.linked, requests.distinct, fun r => ?_⟩, intact.paired.each⟩
  · rw [listed.live]
    simp
  · rw [requests.live]
    simp

/-- After every run of calls the lists are intact, and no further call fails an assertion, reads
what was freed or walks in a circle. -/
theorem listsIntact_of_runs {defaultRetransMs : UInt32}
    {defaultRetransCnt : UInt16} {operations : List Operation}
    (runs : RunsUnder perform Permitted (new defaultRetransMs defaultRetransCnt) operations ctx) :
    ListsIntact ctx ∧ ∀ operation, Permitted ctx operation → ∃ after,
    ctx.perform operation = some after := by
  have intact : Intact ∅ ctx := by
    refine runs.keeps ?_ (intact_new _ _)
    intro before after operation intact permitted performed
    obtain ⟨next, performs, kept⟩ := intact.perform permitted
    rw [performs] at performed
    exact some.inj performed ▸ kept
  refine ⟨intact.listsIntact, fun operation permitted => ?_⟩
  exact (intact.perform permitted).imp fun next performed => performed.1

/-- Two transactions, the first one with a handler, run out in one check. The handler's callback
sends a third one and waits for its response. -/
def outrunOperations : List Operation :=
  [.newTransaction 0 1 [0x40],
   .setResponseHandler 0 [7] false true,
   .newTransaction 0 2 [0x40],
   .sendTransaction 0 .done,
   .sendTransaction 2 .done,
   .checkTransactions 5000 fun _ =>
     .newTransaction 5000 3 [0x40]
       (.setResponseHandler 0 [8] false true (.sendTransaction 0 .done .done))]

/-- The third transaction and its request are left. -/
theorem outrun_runs : ∃ ctx, RunsUnder perform Permitted (new 1000 1) outrunOperations ctx ∧
    ctx.transactions = some 3 ∧ ctx.ongoingRequests = some 4 ∧ ctx.txData.length = 3 := by
  refine ⟨_, .call ?_ rfl
    (.call ?_ rfl (.call ?_ rfl (.call ?_ rfl (.call ?_ rfl (.call ?_ rfl (.done _)))))), ?_⟩
  · trivial
  · rfl
  · trivial
  · rfl
  · rfl
  · trivial
  · exact ⟨rfl, rfl, rfl⟩

/-- Both lists are intact behind it. -/
theorem listsIntact_of_runs_outrun :
    ∃ ctx, (RunsUnder perform Permitted (new 1000 1) outrunOperations ctx ∧
      ctx.transactions = some 3 ∧ ctx.ongoingRequests = some 4) ∧ ListsIntact ctx ∧ ∀ operation,
    Permitted ctx operation → ∃ after, ctx.perform operation = some after := by
  obtain ⟨ctx, runs, first, request, -⟩ := outrun_runs
  exact ⟨ctx, ⟨runs, first, request⟩, listsIntact_of_runs runs⟩

end PointerContext

end Idrm.Coap
