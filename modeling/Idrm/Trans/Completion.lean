import Mathlib.Data.List.Perm.Basic
import Mathlib.Data.List.Range
import Idrm.Trans.Sync

/-!
# Transactions complete once

Every node a context ever registered is in exactly one place: in the list, in one
posted callback object, or freed. `Holding` is that accounting for the middle of a
call, when some nodes are unlinked and not yet handed on; between calls nothing is
held.

`run_completesOnce` is the result over whole runs: the accounting holds, no
assertion fails, every callback ran at most once and with what resolved its own
node, and resolving one node leaves the others alone.
-/

namespace Idrm.Trans

open Idrm.Lib List

section Completion

variable {α κ ω : Type}

/-! ## What the walks do -/

variable {id : UInt32}

theorem unlinkFirst_some {list rest : List (SyncNode α κ ω)} {found : SyncNode α κ ω}
    (unlinked : unlinkFirst id list = some (found, rest)) :
    found.id = id ∧ ∃ front back, list = front ++ found :: back ∧ rest = front ++ back := by
  induction list generalizing rest with
  | nil => cases unlinked
  | cons current next ih =>
    simp only [unlinkFirst] at unlinked
    split at unlinked
    · rename_i same
      cases unlinked
      exact ⟨same.symm, [], _, rfl, rfl⟩
    · obtain ⟨⟨found', later⟩, unlinkedLater, built⟩ := Option.map_eq_some_iff.mp unlinked
      cases built
      obtain ⟨same, front, back, rfl, rfl⟩ := ih unlinkedLater
      exact ⟨same, current :: front, back, rfl, rfl⟩

/-- A node stays in the list while its timer runs, and a waiting thread's node always. -/
def SyncNode.stays (elpasedMs : UInt32) (node : SyncNode α κ ω) : Bool :=
  decide (node.timeout > elpasedMs) || !node.isAsync

/-- What the expiry walk leaves of a node that stays. -/
def SyncNode.aged (elpasedMs : UInt32) (node : SyncNode α κ ω) : SyncNode α κ ω :=
  if node.timeout > elpasedMs then { node with timeout := node.timeout - elpasedMs } else node

@[simp] theorem SyncNode.aged_ptr (elpasedMs : UInt32) (node : SyncNode α κ ω) :
    (node.aged elpasedMs).ptr = node.ptr := by
  unfold SyncNode.aged
  split <;> rfl

/-- The walk keeps the nodes that stay, in order, and stacks up the others. -/
theorem expireFrom_lists (elpasedMs : UInt32) (list expired : List (SyncNode α κ ω))
    (nearest : UInt32) : (expireFrom elpasedMs list expired nearest).list =
      (list.filter (·.stays elpasedMs)).map (·.aged elpasedMs) ∧
      (expireFrom elpasedMs list expired nearest).expired =
        ((list.filter (!·.stays elpasedMs)).map ({ · with timeout := 0 })).reverse ++ expired := by
  induction list generalizing expired nearest with
  | nil => exact ⟨rfl, rfl⟩
  | cons current next ih =>
    unfold expireFrom
    by_cases running : current.timeout > elpasedMs
    · have stays : current.stays elpasedMs = true := by simp [SyncNode.stays, running]
      simp only [running, if_true]
      have later := ih expired (if nearest = 0xFFFFFFFF then current.timeout - elpasedMs
        else if nearest > current.timeout - elpasedMs then current.timeout - elpasedMs else nearest)
      constructor
      · rw [later.1, filter_cons_of_pos stays, map_cons, SyncNode.aged, if_pos running]
      · rw [later.2, filter_cons_of_neg (by simp [stays])]
    · simp only [running, if_false]
      cases async : current.isAsync with
      | false =>
        have stays : current.stays elpasedMs = true := by simp [SyncNode.stays, async]
        have later := ih expired nearest
        simp only [Bool.not_false, if_true]
        constructor
        · rw [later.1, filter_cons_of_pos stays, map_cons, SyncNode.aged, if_neg running]
        · rw [later.2, filter_cons_of_neg (by simp [stays])]
      | true =>
        have goes : current.stays elpasedMs = false := by simp [SyncNode.stays, running, async]
        have later := ih ({ current with timeout := 0 } :: expired) nearest
        simp only [Bool.not_true, Bool.false_eq_true, if_false]
        constructor
        · rw [later.1, filter_cons_of_neg (by simp [goes])]
        · rw [later.2, filter_cons_of_pos (by simp [goes])]
          simp

/-! ## The accounting -/

/-- The addresses of the nodes a world knows about, by place. -/
def World.places (world : World α κ ω) : List Nat :=
  world.ctx.list.map (·.ptr) ++ world.posted.map (·.transaction.ptr) ++ world.freed

/-- The accounting while `held` are unlinked and not yet handed on. `because` says
what may have resolved a node, by its address, its id and the response. -/
structure Holding (because : Nat → UInt32 → Response α → Prop) (held : List (SyncNode α κ ω))
    (world : World α κ ω) : Prop where
  /-- Every node registered so far is in one place. -/
  places : (held.map (·.ptr) ++ world.places).Perm (List.range world.nextPtr)
  counted : world.ctx.cnt = UInt32.ofNat world.ctx.list.length
  /-- A posted node no longer refers to its poster. -/
  handedOver : ∀ callback ∈ world.posted, ∃ cb, callback.transaction.data = .cbData cb none
  invokedOnce : (world.invoked.map (·.ptr)).Nodup
  invokedFreed : ∀ invocation ∈ world.invoked, invocation.ptr ∈ world.freed
  postedBecause : ∀ callback ∈ world.posted,
    because callback.transaction.ptr callback.transaction.id callback.response
  invokedBecause : ∀ invocation ∈ world.invoked,
    because invocation.ptr invocation.id invocation.response

/-- The accounting between calls. -/
abbrev Accounted (because : Nat → UInt32 → Response α → Prop) (world : World α κ ω) : Prop :=
  Holding because [] world

variable {because : Nat → UInt32 → Response α → Prop}

theorem accounted_start (now : UInt64) : Accounted because (World.start now : World α κ ω) where
  places := List.Perm.refl _
  counted := rfl
  handedOver := by simp [World.start]
  invokedOnce := nodup_nil
  invokedFreed := by simp [World.start]
  postedBecause := by simp [World.start]
  invokedBecause := by simp [World.start]

variable {world : World α κ ω} {held : List (SyncNode α κ ω)}

/-- What may have resolved a node can be said more loosely. -/
theorem Holding.weaken {because' : Nat → UInt32 → Response α → Prop}
    (holding : Holding because held world)
    (weaker : ∀ ptr id response, because ptr id response → because' ptr id response) :
    Holding because' held world :=
  { holding with
    postedBecause := fun callback member => weaker _ _ _ (holding.postedBecause callback member)
    invokedBecause :=
      fun invocation member => weaker _ _ _ (holding.invokedBecause invocation member) }

/-- Changes to the context that keep the nodes' addresses keep the accounting. -/
theorem Holding.of_sameList {ctx : SyncCtx α κ ω} (holding : Holding because held world)
    (sameList : ctx.list.map (·.ptr) = world.ctx.list.map (·.ptr))
    (sameCnt : ctx.cnt = world.ctx.cnt) : Holding because held { world with ctx := ctx } where
  places := by
    have same : World.places { world with ctx := ctx } = world.places := by
      simp only [World.places, sameList]
    rw [same]
    exact holding.places
  counted := by
    have length : ctx.list.length = world.ctx.list.length := by
      simpa using congrArg List.length sameList
    simp only [sameCnt, holding.counted, length]
  handedOver := holding.handedOver
  invokedOnce := holding.invokedOnce
  invokedFreed := holding.invokedFreed
  postedBecause := holding.postedBecause
  invokedBecause := holding.invokedBecause

/-- Linking a fresh node. -/
theorem Holding.register (holding : Holding because [] world) (id timeout : UInt32)
    (data : NodeData α κ ω) :
    Accounted because { world with
      ctx := addSyncNode ⟨world.nextPtr, id, timeout, data⟩ world.ctx
      nextPtr := world.nextPtr + 1 } where
  places := by
    simp only [World.places, addSyncNode, map_cons, cons_append, map_nil,
      nil_append, range_succ]
    exact (List.Perm.cons _ holding.places).trans (perm_append_singleton _ _).symm
  counted := by
    simp only [addSyncNode, holding.counted, length_cons, UInt32.ofNat_add]
    rfl
  handedOver := holding.handedOver
  invokedOnce := holding.invokedOnce
  invokedFreed := holding.invokedFreed
  postedBecause := holding.postedBecause
  invokedBecause := holding.invokedBecause

/-- Registering a callback counts the timers down and links a fresh node. -/
theorem Holding.waitResponseAsync (holding : Holding because [] world) (now : UInt64)
    (id : UInt32) (cb : Option κ) (timeout : UInt32) (workerThread : Option ω) :
    Accounted because (bhWaitResponseAsync now id cb timeout workerThread world).2 := by
  have counted : Accounted because
      { world with ctx := (chooseId id (bhUpdateTransTimer now world.ctx).2).2 } := by
    refine holding.of_sameList ?_ ?_
    · rw [chooseId_list]
      simp [bhUpdateTransTimer, Function.comp_def, countDown]
    · rw [chooseId_cnt]
      rfl
  exact counted.register _ _ _

variable {node : SyncNode α κ ω}

/-- Unlinking a node by its id: it is held. -/
theorem Holding.remove
    {ctx : SyncCtx α κ ω} (holding : Holding because [] world)
    (removed : removeSyncNode id world.ctx = some (node, ctx)) :
    Holding because [node] { world with ctx := ctx } := by
  obtain ⟨⟨found, rest⟩, unlinked, built⟩ := Option.map_eq_some_iff.mp removed
  cases built
  obtain ⟨-, front, back, split, rfl⟩ := unlinkFirst_some unlinked
  refine { holding with places := ?_, counted := ?_ }
  · refine List.Perm.trans ?_ holding.places
    simp only [World.places, split, map_append, map_cons, map_nil, nil_append,
      cons_append, append_assoc]
    exact perm_middle.symm
  · have counted := holding.counted
    rw [split] at counted
    simp only [length_append, length_cons] at counted ⊢
    rw [counted, ← Nat.add_assoc, UInt32.ofNat_add]
    exact UInt32.add_sub_cancel _ _

/-- Linking a held node again. -/
theorem Holding.relink (holding : Holding because [node] world)
    (data : NodeData α κ ω) :
    Accounted because { world with ctx := addSyncNode { node with data := data } world.ctx } where
  places := holding.places
  counted := by
    simp only [addSyncNode, holding.counted, length_cons, UInt32.ofNat_add]
    rfl
  handedOver := holding.handedOver
  invokedOnce := holding.invokedOnce
  invokedFreed := holding.invokedFreed
  postedBecause := holding.postedBecause
  invokedBecause := holding.invokedBecause

variable {response : Response α}

/-- Posting a held node. -/
theorem Holding.post (holding : Holding because (node :: held) world)
    (cb : Option κ) (workThread : ω) (cause : because node.ptr node.id response) :
    Holding because held (post node cb workThread response world) where
  places := by
    refine List.Perm.trans ?_ holding.places
    have moved := @perm_middle _ node.ptr (held.map (·.ptr) ++ world.ctx.list.map (·.ptr) ++
      world.posted.map (·.transaction.ptr)) world.freed
    simpa only [World.places, Trans.post, map_append, map_cons, map_nil,
      append_assoc, cons_append, nil_append] using moved
  counted := holding.counted
  handedOver := by
    intro callback member
    rcases mem_append.mp member with earlier | last
    · exact holding.handedOver callback earlier
    · rw [mem_singleton.mp last]
      exact ⟨cb, rfl⟩
  invokedOnce := holding.invokedOnce
  invokedFreed := holding.invokedFreed
  postedBecause := by
    intro callback member
    rcases mem_append.mp member with earlier | last
    · exact holding.postedBecause callback earlier
    · rw [mem_singleton.mp last]
      exact cause
  invokedBecause := holding.invokedBecause

/-- A held node is not freed yet. -/
theorem Holding.not_freed
    (holding : Holding because (node :: held) world) : node.ptr ∉ world.freed := by
  have distinct := holding.places.nodup_iff.mpr nodup_range
  simp only [map_cons, cons_append, nodup_cons] at distinct
  intro freed
  exact distinct.1 (by simp [World.places, freed])

/-- Completing a held node: its callback runs, if it has one, and the node is freed. -/
theorem Holding.complete
    (holding : Holding because (node :: held) world) (cb : Option κ)
    (cause : because node.ptr node.id response) :
    Holding because held (freeNode node (invoke node cb response world)) := by
  have fresh : node.ptr ∉ world.invoked.map (·.ptr) := by
    intro member
    obtain ⟨invocation, invoked, same⟩ := mem_map.mp member
    exact holding.not_freed (same ▸ holding.invokedFreed invocation invoked)
  have places : (held.map (·.ptr) ++ (freeNode node world).places).Perm
      (List.range world.nextPtr) := by
    refine List.Perm.trans ?_ holding.places
    simp only [World.places, freeNode, map_cons, cons_append, ← append_assoc]
    exact perm_append_singleton _ _
  cases cb with
  | none =>
    exact { holding with
      places := places
      invokedFreed := fun invocation member =>
        mem_append_left _ (holding.invokedFreed invocation member) }
  | some cb =>
    refine { holding with
      places := places
      invokedOnce := ?_
      invokedFreed := ?_
      invokedBecause := ?_ }
    · simp only [freeNode, invoke, map_append, map_cons, map_nil]
      refine nodup_append.mpr ⟨holding.invokedOnce, by simp, ?_⟩
      intro ptr earlier last isLast same
      rw [mem_singleton.mp isLast] at same
      exact fresh (same ▸ earlier)
    · intro invocation member
      rcases mem_append.mp member with earlier | last
      · exact mem_append_left _ (holding.invokedFreed invocation earlier)
      · rw [mem_singleton.mp last]
        exact mem_append_right _ (mem_singleton.mpr rfl)
    · intro invocation member
      rcases mem_append.mp member with earlier | last
      · exact holding.invokedBecause invocation earlier
      · rw [mem_singleton.mp last]
        exact cause

/-! ## Calls keep the accounting -/

/-- `bh_feed_transaction` on a held node that was handed over: the assertion holds. -/
theorem Holding.feedTransaction (holding : Holding because (node :: held) world)
    (handedOver : ∃ cb, node.data = .cbData cb none)
    (cause : because node.ptr node.id response) :
    ∃ next, bhFeedTransaction node response world = some next ∧ Holding because held next := by
  obtain ⟨cb, data⟩ := handedOver
  exact ⟨_, by rw [bhFeedTransaction, data], holding.complete cb cause⟩

/-- `bh_feed_response` resolves at most the node it unlinks. -/
theorem Holding.feedResponse (holding : Holding because [] world)
    (malloc : UInt32 → Bool) (id : UInt32) (response : Response α)
    (cause : ∀ node ∈ world.ctx.list, node.id = id → because node.ptr node.id response) :
    ∃ next, bhFeedResponse malloc id response world = some next ∧ Accounted because next := by
  unfold bhFeedResponse
  cases removed : removeSyncNode id world.ctx with
  | none => exact ⟨world, rfl, holding⟩
  | some outcome =>
    obtain ⟨node, ctx⟩ := outcome
    have removing := holding.remove removed
    have resolved : because node.ptr node.id response := by
      obtain ⟨⟨found, rest⟩, unlinked, built⟩ := Option.map_eq_some_iff.mp removed
      cases built
      obtain ⟨same, front, back, split, -⟩ := unlinkFirst_some unlinked
      exact cause node (by simp [split]) same
    simp only
    cases data : node.data with
    | syncData response' responseLen pendingDelete responseFmt =>
      cases pendingDelete with
      | true => exact ⟨_, rfl, removing.complete none resolved⟩
      | false => exact ⟨_, rfl, removing.relink _⟩
    | cbData cb workThread =>
      cases workThread with
      | none => exact removing.feedTransaction ⟨cb, data⟩ resolved
      | some workThread => exact ⟨_, rfl, removing.post cb workThread resolved⟩

/-- One expired node after the other is handed on. -/
theorem Holding.handleExpired {expired : List (SyncNode α κ ω)}
    (holding : Holding because expired world)
    (cause : ∀ node ∈ expired, because node.ptr node.id ⟨none, 0, 0⟩) :
    Accounted because (expired.foldl handleExpiredNode world) := by
  induction expired generalizing world with
  | nil => exact holding
  | cons node rest ih =>
    have resolved := cause node mem_cons_self
    rw [foldl_cons]
    refine ih ?_ fun node member => cause node (mem_cons_of_mem _ member)
    unfold handleExpiredNode
    split
    · exact holding.post _ _ resolved
    · exact holding.complete _ resolved
    · exact holding.complete none resolved

/-- The nodes an expiry walk unlinks. -/
theorem removeExpiredTrans_lists (now : UInt64) (ctx : SyncCtx α κ ω) :
    (bhRemoveExpiredTrans now ctx).2.2.list =
        (ctx.list.filter (·.stays (bhGetElpasedMs now ctx.lastCheck).1)).map
          (·.aged (bhGetElpasedMs now ctx.lastCheck).1) ∧
      (bhRemoveExpiredTrans now ctx).2.1 =
        ((ctx.list.filter (!·.stays (bhGetElpasedMs now ctx.lastCheck).1)).map
          ({ · with timeout := 0 })).reverse := by
  obtain ⟨kept, gone⟩ :=
    expireFrom_lists (bhGetElpasedMs now ctx.lastCheck).1 ctx.list [] 0xFFFFFFFF
  exact ⟨kept, gone.trans (append_nil _)⟩

/-- The expired nodes and the remaining ones are the nodes there were. -/
theorem removeExpiredTrans_perm (now : UInt64) (ctx : SyncCtx α κ ω) :
    ((bhRemoveExpiredTrans now ctx).2.1.map (·.ptr) ++ (bhRemoveExpiredTrans now ctx).2.2.list.map
      (·.ptr)).Perm (ctx.list.map (·.ptr)) := by
  obtain ⟨kept, gone⟩ := removeExpiredTrans_lists now ctx
  have split := filter_append_perm (·.stays (bhGetElpasedMs now ctx.lastCheck).1) ctx.list
  rw [kept, gone, map_reverse, map_map, map_map]
  refine List.Perm.trans ?_ (split.map (·.ptr))
  rw [map_append]
  have unaged : SyncNode.ptr ∘ SyncNode.aged (bhGetElpasedMs now ctx.lastCheck).1 =
      (SyncNode.ptr : SyncNode α κ ω → Nat) := by
    funext node
    exact node.aged_ptr _
  rw [unaged]
  exact (perm_append_comm).trans (List.Perm.append_left _ (reverse_perm _))

/-- Unlinking the expired nodes: they are held. -/
theorem Holding.removeExpired (holding : Holding because [] world) (now : UInt64) :
    Holding because (bhRemoveExpiredTrans now world.ctx).2.1
      { world with ctx := (bhRemoveExpiredTrans now world.ctx).2.2 } := by
  have split := removeExpiredTrans_perm now world.ctx
  refine { holding with places := ?_, counted := ?_ }
  · refine List.Perm.trans ?_ holding.places
    simp only [World.places, map_nil, nil_append, ← append_assoc]
    exact (split.append_right _).append_right _
  · have sizes := split.length_eq
    simp only [length_append, length_map] at sizes
    have counted := holding.counted
    rw [← sizes, UInt32.ofNat_add] at counted
    simp only
    rw [show (bhRemoveExpiredTrans now world.ctx).2.2.cnt = world.ctx.cnt -
      UInt32.ofNat (bhRemoveExpiredTrans now world.ctx).2.1.length from rfl, counted]
    rw [UInt32.add_comm, UInt32.add_sub_cancel]

/-- `bh_handle_expired_trans` resolves exactly the async nodes whose timer ran out. -/
theorem Holding.handleExpiredTrans (holding : Holding because [] world) (now : UInt64)
    (cause : ∀ node ∈ world.ctx.list, node.stays (bhGetElpasedMs now world.ctx.lastCheck).1 =
      false → because node.ptr node.id ⟨none, 0, 0⟩) :
    Accounted because (bhHandleExpiredTrans now world).2 := by
  refine (holding.removeExpired now).handleExpired ?_
  intro node member
  rw [(removeExpiredTrans_lists now world.ctx).2, mem_reverse] at member
  obtain ⟨original, expired, rfl⟩ := mem_map.mp member
  obtain ⟨listed, goes⟩ := mem_filter.mp expired
  exact cause original listed (by simpa using goes)

/-- `execute_callback_node` completes the node of one posted callback. -/
theorem Holding.executeCallbackNode (holding : Holding because [] world)
    (index : Nat) :
    ∃ next, executeCallbackNode index world = some next ∧ Accounted because next := by
  unfold Trans.executeCallbackNode
  cases found : world.posted[index]? with
  | none => exact ⟨world, rfl, holding⟩
  | some callback =>
    obtain ⟨bound, here⟩ := List.getElem?_eq_some_iff.mp found
    have member : callback ∈ world.posted := mem_of_getElem? found
    have erased : (callback :: world.posted.eraseIdx index).Perm world.posted := by
      rw [← here]
      exact getElem_cons_eraseIdx_perm bound
    have holdingIt : Holding because [callback.transaction]
        { world with posted := world.posted.eraseIdx index } := by
      refine { holding with
        places := ?_
        handedOver := fun other left => holding.handedOver other (mem_of_mem_eraseIdx left)
        postedBecause := fun other left =>
          holding.postedBecause other (mem_of_mem_eraseIdx left) }
      refine List.Perm.trans ?_ holding.places
      have posted := erased.map (·.transaction.ptr)
      simp only [World.places, map_cons, map_nil, nil_append, append_assoc,
        cons_append] at posted ⊢
      refine (perm_middle).symm.trans ?_
      exact List.Perm.append_left _ (posted.append_right _)
    exact holdingIt.feedTransaction (holding.handedOver callback member)
      (holding.postedBecause callback member)

/-! ## What a call does to other nodes -/

/-- Everything a world says about the node at one address. -/
def World.about (world : World α κ ω) (ptr : Nat) :
    List (SyncNode α κ ω) × List (CallbackT α κ ω) × List (Invocation α κ) × List Nat :=
  (world.ctx.list.filter (·.ptr = ptr), world.posted.filter (·.transaction.ptr = ptr),
    world.invoked.filter (·.ptr = ptr), world.freed.filter (· = ptr))

variable {ptr : Nat}

theorem about_post (other : node.ptr ≠ ptr) (cb : Option κ)
    (workThread : ω) (response : Response α) (world : World α κ ω) :
    (post node cb workThread response world).about ptr = world.about ptr := by
  simp [World.about, post, filter_append, other]

theorem about_complete (other : node.ptr ≠ ptr) (cb : Option κ)
    (response : Response α) (world : World α κ ω) :
    (freeNode node (invoke node cb response world)).about ptr = world.about ptr := by
  cases cb with
  | none => simp [World.about, freeNode, invoke, filter_append, other]
  | some cb => simp [World.about, freeNode, invoke, filter_append, other]

variable {malloc : UInt32 → Bool}

/-- Feeding a response leaves every node but the unlinked one as it was. -/
theorem about_feedResponse
    {world next : World α κ ω} (fed : bhFeedResponse malloc id response world = some next)
    (other : ∀ node rest, unlinkFirst id world.ctx.list = some (node, rest) → node.ptr ≠ ptr) :
    next.about ptr = world.about ptr := by
  unfold bhFeedResponse at fed
  cases unlinked : unlinkFirst id world.ctx.list with
  | none =>
    rw [show removeSyncNode id world.ctx = none by simp [removeSyncNode, unlinked]] at fed
    cases fed
    rfl
  | some outcome =>
    obtain ⟨node, rest⟩ := outcome
    have apart := other node rest unlinked
    obtain ⟨-, front, back, split, rfl⟩ := unlinkFirst_some unlinked
    have kept : World.about { world with ctx := { world.ctx with
        list := front ++ back, cnt := world.ctx.cnt - 1 } } ptr = world.about ptr := by
      simp [World.about, split, filter_append, apart]
    rw [← kept]
    rw [show removeSyncNode id world.ctx =
      some (node, { world.ctx with list := front ++ back, cnt := world.ctx.cnt - 1 }) by
        simp [removeSyncNode, unlinked]] at fed
    simp only at fed
    split at fed
    · split at fed
      · cases fed
        exact about_complete apart none response _
      · cases fed
        simp [World.about, addSyncNode, apart]
    · cases fed
      exact about_post apart _ _ _ _
    · rename_i cb data
      rw [bhFeedTransaction, data] at fed
      cases fed
      exact about_complete apart _ _ _

theorem about_handleExpired {expired : List (SyncNode α κ ω)}
    (others : ∀ node ∈ expired, node.ptr ≠ ptr) (world : World α κ ω) :
    (expired.foldl handleExpiredNode world).about ptr = world.about ptr := by
  induction expired generalizing world with
  | nil => rfl
  | cons node rest ih =>
    have apart := others node mem_cons_self
    rw [foldl_cons,
      ih fun node member => others node (mem_cons_of_mem _ member)]
    unfold handleExpiredNode
    split
    · exact about_post apart _ _ _ _
    · exact about_complete apart _ _ _
    · exact about_complete apart none ⟨none, 0, 0⟩ _

/-- The world with its timers advanced and nothing else. -/
def World.aged (elpasedMs : UInt32) (world : World α κ ω) : World α κ ω :=
  { world with ctx := { world.ctx with list := world.ctx.list.map (·.aged elpasedMs) } }

/-- An expiry only advances the timer of a node that stays. -/
theorem about_handleExpiredTrans {now : UInt64}
    (stays : ∀ node ∈ world.ctx.list, node.ptr = ptr →
      node.stays (bhGetElpasedMs now world.ctx.lastCheck).1 = true) :
    (bhHandleExpiredTrans now world).2.about ptr =
      (world.aged (bhGetElpasedMs now world.ctx.lastCheck).1).about ptr := by
  obtain ⟨kept, gone⟩ := removeExpiredTrans_lists now world.ctx
  have others : ∀ node ∈ (bhRemoveExpiredTrans now world.ctx).2.1, node.ptr ≠ ptr := by
    intro node member same
    rw [gone, mem_reverse] at member
    obtain ⟨original, expired, rfl⟩ := mem_map.mp member
    obtain ⟨listed, goes⟩ := mem_filter.mp expired
    simp [stays original listed same] at goes
  have handled : (bhHandleExpiredTrans now world).2 =
      (bhRemoveExpiredTrans now world.ctx).2.1.foldl handleExpiredNode
        { world with ctx := (bhRemoveExpiredTrans now world.ctx).2.2 } := rfl
  rw [handled, about_handleExpired others]
  have sameNodes : ∀ nodes : List (SyncNode α κ ω), (∀ node ∈ nodes, node.ptr = ptr →
      node.stays (bhGetElpasedMs now world.ctx.lastCheck).1 = true) →
      ((nodes.filter (·.stays (bhGetElpasedMs now world.ctx.lastCheck).1)).map
        (·.aged (bhGetElpasedMs now world.ctx.lastCheck).1)).filter (·.ptr = ptr) =
      (nodes.map (·.aged (bhGetElpasedMs now world.ctx.lastCheck).1)).filter (·.ptr = ptr) := by
    intro nodes staying
    simp only [filter_map, filter_filter]
    congr 1
    refine filter_congr fun node member => ?_
    by_cases same : node.ptr = ptr
    · simp [same, staying node member same]
    · simp [same]
  simp only [World.about, World.aged, kept, sameNodes world.ctx.list stays]

/-! ## Whole runs -/

/-- A response reached a node because, at some point of the run, the node was in
the list and the response was fed for its id, or its timer ran out. -/
def Resolved (malloc : UInt32 → Bool) (created : UInt64) (past : List (Nat × Call α κ ω))
    (ptr : Nat) (id : UInt32) (response : Response α) : Prop :=
  ∃ before time call after world, past = before ++ (time, call) :: after ∧
    runAll (perform malloc) before (World.start created) = some world ∧
    ∃ node ∈ world.ctx.list, node.ptr = ptr ∧ node.id = id ∧
      (call = .feedResponse id response ∨
        call = .handleExpiredTrans ∧ response = ⟨none, 0, 0⟩ ∧
          node.stays (bhGetElpasedMs (UInt64.ofNat time) world.ctx.lastCheck).1 = false)

theorem Resolved.later {created : UInt64} {past : List (Nat × Call α κ ω)}
    (resolved : Resolved malloc created past ptr id response) (event : Nat × Call α κ ω) :
    Resolved malloc created (past ++ [event]) ptr id response := by
  obtain ⟨before, time, call, after, world, rfl, ran, node, rest⟩ := resolved
  exact ⟨before, time, call, after ++ [event], world, by simp, ran, node, rest⟩

/-- One call keeps the accounting, and explains what it resolves. -/
theorem perform_accounted {created : UInt64} {past : List (Nat × Call α κ ω)}
    (ran : runAll (perform malloc) past (World.start created) = some world)
    (accounted : Accounted (Resolved malloc created past) world) (event : Nat × Call α κ ω) :
    ∃ next, perform malloc event world = some next ∧
    Accounted (Resolved malloc created (past ++ [event])) next := by
  have carried : Accounted (Resolved malloc created (past ++ [event])) world :=
    accounted.weaken fun ptr id response resolved => resolved.later event
  have now : ∀ (time : Nat) (call : Call α κ ω), event = (time, call) → ∀ node ∈ world.ctx.list,
      ∀ response, (call = .feedResponse node.id response ∨
        call = .handleExpiredTrans ∧ response = ⟨none, 0, 0⟩ ∧
          node.stays (bhGetElpasedMs (UInt64.ofNat time) world.ctx.lastCheck).1 = false) →
      Resolved malloc created (past ++ [event]) node.ptr node.id response := by
    rintro time call rfl node listed response cause
    exact ⟨past, time, call, [], world, rfl, ran, node, listed, rfl, rfl, cause⟩
  obtain ⟨time, call⟩ := event
  cases call with
  | waitResponse id =>
    refine ⟨_, rfl, ?_⟩
    have chosen : Accounted (Resolved malloc created (past ++ [(time, .waitResponse id)]))
        { world with ctx := (chooseId id world.ctx).2 } :=
      carried.of_sameList (by rw [chooseId_list]) (by rw [chooseId_cnt])
    exact chosen.register _ _ _
  | waitResponseAsync id cb timeout workerThread =>
    exact ⟨_, rfl, carried.waitResponseAsync _ id cb timeout workerThread⟩
  | feedResponse id response =>
    exact carried.feedResponse malloc id response
      fun node listed same => now time _ rfl node listed response (.inl (by rw [same]))
  | updateTransTimer =>
    refine ⟨_, rfl, carried.of_sameList ?_ rfl⟩
    simp [bhUpdateTransTimer, Function.comp_def, countDown]
  | handleExpiredTrans =>
    exact ⟨_, rfl, carried.handleExpiredTrans _
      fun node listed goes => now time _ rfl node listed _ (.inr ⟨rfl, rfl, goes⟩)⟩
  | executeCallbackNode index => exact carried.executeCallbackNode index

theorem run_accounted (malloc : UInt32 → Bool) (created : UInt64)
    (calls : List (Nat × Call α κ ω)) :
    ∃ world, runAll (perform malloc) calls (World.start created) = some world ∧
    Accounted (Resolved malloc created calls) world := by
  obtain ⟨world, ran, -, accounted⟩ := runAll_safe
    (fun past world => runAll (perform malloc) past (World.start created) = some world ∧
      Accounted (Resolved malloc created past) world)
    (fun _ => True) ⟨rfl, accounted_start created⟩ (fun _ _ _ => trivial)
    (fun past event world _ holds => by
      obtain ⟨next, performed, kept⟩ := perform_accounted holds.1 holds.2 event
      exact ⟨next, performed, by rw [runAll_concat, holds.1, Option.bind_some, performed], kept⟩)
    calls trivial
  exact ⟨world, ran, accounted⟩

/-- Over every run: each node is in one place, each callback ran at most once and
because of what resolved its own node, no assertion fails, and a feed or an expiry
leaves the other nodes alone. -/
theorem run_completesOnce (malloc : UInt32 → Bool) (created : UInt64)
    (calls : List (Nat × Call α κ ω)) :
    ∃ world, runAll (perform malloc) calls (World.start created) = some world ∧
    Accounted (Resolved malloc created calls) world ∧
    (∀ id response, ∃ next, bhFeedResponse malloc id response world = some next ∧
      ∀ ptr, (∀ node rest, unlinkFirst id world.ctx.list = some (node, rest) → node.ptr ≠ ptr) →
      next.about ptr = world.about ptr) ∧ (∀ now ptr, (∀ node ∈ world.ctx.list, node.ptr = ptr →
      node.stays (bhGetElpasedMs now world.ctx.lastCheck).1 = true) →
        (bhHandleExpiredTrans now world).2.about ptr =
          (world.aged (bhGetElpasedMs now world.ctx.lastCheck).1).about ptr) := by
  obtain ⟨world, ran, accounted⟩ := run_accounted malloc created calls
  refine ⟨world, ran, accounted, ?_, fun now ptr stays => about_handleExpiredTrans stays⟩
  intro id response
  have anyhow : Accounted (fun _ _ _ => True) world := accounted.weaken fun _ _ _ _ => trivial
  obtain ⟨next, fed, -⟩ := anyhow.feedResponse malloc id response (fun _ _ _ => trivial)
  exact ⟨next, fed, fun ptr other => about_feedResponse fed other⟩

end Completion

end Idrm.Trans
