import Mathlib.Data.List.Nodup
import Idrm.Trans.Completion
import Idrm.Trans.Suited

/-!
# Every transaction has a callback of its own

Where every request is registered with a callback, a node that is freed has had its callback
called, and a callback is called for the node it was registered with. `owns` says which
callback belongs to which node and id.
-/

namespace Idrm.Trans

open Option List

section Owned

variable {α κ ω : Type}

/-- All nodes have their own callback, and nothing is freed without calling it. -/
structure Owned (owns : Nat → UInt32 → κ → Prop) (world : World α κ ω) : Prop where
  listed : ∀ node ∈ world.ctx.list, ∃ cb ∈ node.callback, owns node.ptr node.id cb
  posted : ∀ callback ∈ world.posted, ∃ cb ∈ callback.transaction.callback,
    owns callback.transaction.ptr callback.transaction.id cb
  invoked : ∀ invocation ∈ world.invoked, owns invocation.ptr invocation.id invocation.cb
  freed : ∀ ptr ∈ world.freed, ∃ invocation ∈ world.invoked, invocation.ptr = ptr

variable {owns : Nat → UInt32 → κ → Prop} {world next : World α κ ω} {node : SyncNode α κ ω}
  {response : Response α}

theorem owned_start (now : UInt64) : Owned owns (World.start now : World α κ ω) where
  listed _ member := absurd member not_mem_nil
  posted _ member := absurd member not_mem_nil
  invoked _ member := absurd member not_mem_nil
  freed _ member := absurd member not_mem_nil

/-- Who owns what can be said more loosely. -/
theorem Owned.weaken {owns' : Nat → UInt32 → κ → Prop} (owned : Owned owns world)
    (weaker : ∀ ptr id cb, owns ptr id cb → owns' ptr id cb) : Owned owns' world where
  listed node member := (owned.listed node member).imp fun _ own => ⟨own.1, weaker _ _ _ own.2⟩
  posted callback member :=
    (owned.posted callback member).imp fun _ own => ⟨own.1, weaker _ _ _ own.2⟩
  invoked invocation member := weaker _ _ _ (owned.invoked invocation member)
  freed := owned.freed

/-- Another list of nodes, each with its callback. -/
theorem Owned.relist {ctx : SyncCtx α κ ω} (owned : Owned owns world)
    (listed : ∀ node ∈ ctx.list, ∃ cb ∈ node.callback, owns node.ptr node.id cb) :
    Owned owns { world with ctx := ctx } :=
  ⟨listed, owned.posted, owned.invoked, owned.freed⟩

/-- A registered callback belongs to its node. -/
theorem Owned.waitResponseAsync (owned : Owned owns world) {now : UInt64} {id timeout : UInt32}
    {cb : κ} {workerThread : Option ω}
    (own : owns world.nextPtr (chooseId id (bhUpdateTransTimer now world.ctx).2).1 cb) :
    Owned owns (bhWaitResponseAsync now id (some cb) timeout workerThread world).2 := by
  refine ⟨fun node member => ?_, owned.posted, owned.invoked, owned.freed⟩
  have member : node ∈ _ :: (chooseId id (bhUpdateTransTimer now world.ctx).2).2.list := member
  rcases mem_cons.mp member with rfl | member
  · exact ⟨cb, rfl, own⟩
  · rw [chooseId_list] at member
    obtain ⟨original, listed, rfl⟩ := List.mem_map.mp member
    exact owned.listed original listed

theorem Owned.complete (owned : Owned owns world) {cb : κ} (own : owns node.ptr node.id cb) :
    Owned owns (freeNode node (invoke node (some cb) response world)) := by
  refine ⟨owned.listed, owned.posted, fun invocation member => ?_, fun ptr member => ?_⟩
  · rcases mem_append.mp member with before | new
    · exact owned.invoked invocation before
    · rw [mem_singleton.mp new]
      exact own
  · rcases mem_append.mp member with before | new
    · obtain ⟨invocation, invoked, same⟩ := owned.freed ptr before
      exact ⟨invocation, mem_append_left _ invoked, same⟩
    · rw [mem_singleton.mp new]
      exact ⟨_, mem_append_right _ mem_cons_self, rfl⟩

theorem Owned.post (owned : Owned owns world) {cb : κ}
    {workThread : ω} (own : owns node.ptr node.id cb) :
    Owned owns (post node (some cb) workThread response world) := by
  refine ⟨owned.listed, fun callback member => ?_, owned.invoked, owned.freed⟩
  rcases mem_append.mp member with before | new
  · exact owned.posted callback before
  · rw [mem_singleton.mp new]
    exact ⟨cb, rfl, own⟩

/-- `bh_feed_transaction` calls the node's callback. -/
theorem Owned.feedTransaction (owned : Owned owns world)
    (own : ∃ cb ∈ node.callback, owns node.ptr node.id cb)
    (fed : bhFeedTransaction node response world = some next) : Owned owns next := by
  obtain ⟨cb, isCallback, own⟩ := own
  unfold bhFeedTransaction at fed
  unfold SyncNode.callback at isCallback
  split at fed
  · rename_i data
    rw [data] at isCallback
    obtain rfl := some.inj fed
    cases isCallback
    exact owned.complete own
  · cases fed
  · rename_i data
    rw [data] at isCallback
    cases isCallback

theorem Owned.feedResponse (owned : Owned owns world) {malloc : UInt32 → Bool} {id : UInt32}
    (fed : bhFeedResponse malloc id response world = some next) : Owned owns next := by
  unfold bhFeedResponse at fed
  split at fed
  · obtain rfl := some.inj fed
    exact owned
  · rename_i node ctx removed
    obtain ⟨⟨found, rest⟩, unlinked, built⟩ := map_eq_some_iff.mp removed
    cases built
    obtain ⟨-, front, back, split, rfl⟩ := unlinkFirst_some unlinked
    have own := owned.listed node (by rw [split]; exact mem_append_right _ mem_cons_self)
    have unlinkedOwned : Owned owns
        { world with
          ctx := { world.ctx with list := front ++ back, cnt := world.ctx.cnt - 1 } } := by
      refine owned.relist fun other member => owned.listed other ?_
      rw [split]
      exact ((sublist_cons_self node back).append_left front).subset member
    dsimp only at fed
    split at fed
    · rename_i data
      obtain ⟨cb, isCallback, -⟩ := own
      rw [SyncNode.callback, data] at isCallback
      cases isCallback
    · rename_i data
      obtain ⟨cb, isCallback, own⟩ := own
      rw [SyncNode.callback, data] at isCallback
      obtain rfl := some.inj fed
      cases isCallback
      exact unlinkedOwned.post own
    · exact unlinkedOwned.feedTransaction own fed

/-- A check that finds no node whose timer ran out only counts down. -/
theorem handleExpiredTrans_of_stays {now : UInt64} (stays : ∀ node ∈ world.ctx.list,
      node.stays (bhGetElpasedMs now world.ctx.lastCheck).1 = true) :
    (bhHandleExpiredTrans now world).2 =
      { world with ctx := (bhRemoveExpiredTrans now world.ctx).2.2 } := by
  have none_ : (bhRemoveExpiredTrans now world.ctx).2.1 = [] := by
    have gone : world.ctx.list.filter (!·.stays (bhGetElpasedMs now world.ctx.lastCheck).1) = [] :=
      filter_eq_nil_iff.mpr fun node member => by simp [stays node member]
    rw [(removeExpiredTrans_lists now world.ctx).2, gone]
    rfl
  have handled : (bhHandleExpiredTrans now world).2 = (bhRemoveExpiredTrans now world.ctx).2.1.foldl
    handleExpiredNode { world with ctx := (bhRemoveExpiredTrans now world.ctx).2.2 } := rfl
  rw [handled, none_]
  rfl

theorem SyncNode.aged_callback (elpasedMs : UInt32) (node : SyncNode α κ ω) :
    (node.aged elpasedMs).callback = node.callback := by
  unfold SyncNode.aged
  split
  · rfl
  · rfl

theorem SyncNode.aged_id (elpasedMs : UInt32) (node : SyncNode α κ ω) :
    (node.aged elpasedMs).id = node.id := by
  unfold SyncNode.aged
  split
  · rfl
  · rfl

theorem Owned.removeExpired (owned : Owned owns world) (now : UInt64) :
    Owned owns { world with ctx := (bhRemoveExpiredTrans now world.ctx).2.2 } := by
  refine owned.relist fun node member => ?_
  rw [(removeExpiredTrans_lists now world.ctx).1] at member
  obtain ⟨original, stays, rfl⟩ := List.mem_map.mp member
  rw [SyncNode.aged_callback, SyncNode.aged_ptr, SyncNode.aged_id]
  exact owned.listed original (mem_of_mem_filter stays)

theorem Owned.executeCallbackNode (owned : Owned owns world) {index : Nat}
    (executed : executeCallbackNode index world = some next) : Owned owns next := by
  unfold Trans.executeCallbackNode at executed
  split at executed
  · obtain rfl := some.inj executed
    exact owned
  · rename_i callback found
    have remaining : Owned owns { world with posted := world.posted.eraseIdx index } :=
      ⟨owned.listed, fun other left => owned.posted other (mem_of_mem_eraseIdx left),
        owned.invoked, owned.freed⟩
    exact remaining.feedTransaction (owned.posted callback (mem_of_getElem? found)) executed

/-! ## Addresses -/

theorem bhGenId_ne (ctx : SyncCtx α κ ω) : (bhGenId ctx).1 ≠ 0xFFFFFFFF := by
  unfold bhGenId
  simp only
  split
  · decide
  · assumption

/-- A listed node was registered. -/
theorem listed_lt {because : Nat → UInt32 → Response α → Prop} {world : World α κ ω}
    (accounted : Accounted because world) {node : SyncNode α κ ω} (member : node ∈ world.ctx.list) :
    node.ptr < world.nextPtr := by
  refine mem_range.mp (accounted.places.subset ?_)
  have listed : node.ptr ∈ world.ctx.list.map (·.ptr) := List.mem_map_of_mem member
  exact mem_append_right _ (mem_append_left _ (mem_append_left _ listed))

theorem feedTransaction_nextPtr {node : SyncNode α κ ω} {response : Response α}
    {world after : World α κ ω} (fed : bhFeedTransaction node response world = some after) :
    after.nextPtr = world.nextPtr := by
  unfold bhFeedTransaction at fed
  split at fed
  · rename_i cb data
    obtain rfl := some.inj fed
    cases cb with
    | none => rfl
    | some cb => rfl
  · cases fed
  · obtain rfl := some.inj fed
    rfl

theorem feedResponse_nextPtr {malloc : UInt32 → Bool} {id : UInt32} {response : Response α}
    {world after : World α κ ω} (fed : bhFeedResponse malloc id response world = some after) :
    after.nextPtr = world.nextPtr := by
  unfold bhFeedResponse at fed
  split at fed
  · obtain rfl := some.inj fed
    rfl
  · dsimp only at fed
    split at fed
    · split at fed
      · obtain rfl := some.inj fed
        rfl
      · obtain rfl := some.inj fed
        rfl
    · obtain rfl := some.inj fed
      rfl
    · exact (feedTransaction_nextPtr fed).trans rfl

theorem executeCallbackNode_nextPtr {index : Nat} {world after : World α κ ω}
    (executed : executeCallbackNode index world = some after) : after.nextPtr = world.nextPtr := by
  unfold Trans.executeCallbackNode at executed
  split at executed
  · obtain rfl := some.inj executed
    rfl
  · exact (feedTransaction_nextPtr executed).trans rfl

/-- In a list without repetition, one address belongs to one invocation. -/
theorem filter_ptr_of_nodup {invocations : List (Invocation α κ)}
    (distinct : (invocations.map (·.ptr)).Nodup)
    {invocation : Invocation α κ} (member : invocation ∈ invocations) :
    invocations.filter (·.ptr = invocation.ptr) = [invocation] := by
  obtain ⟨front, back, rfl⟩ := append_of_mem member
  rw [map_append, map_cons] at distinct
  have apart := nodup_middle.mp distinct
  have others : ∀ other ∈ front ++ back, other.ptr ≠ invocation.ptr := by
    intro other among same
    refine (nodup_cons.mp apart).1 ?_
    rw [← map_append, ← same]
    exact List.mem_map_of_mem among
  have frontNone : front.filter (·.ptr = invocation.ptr) = [] :=
    filter_eq_nil_iff.mpr fun other among => by simpa using others other (mem_append_left _ among)
  have backNone : back.filter (·.ptr = invocation.ptr) = [] :=
    filter_eq_nil_iff.mpr fun other among => by simpa using others other (mem_append_right _ among)
  rw [filter_append, filter_cons_of_pos (by simp), frontNone, backNone, nil_append]

theorem handleExpired_nextPtr (expired : List (SyncNode α κ ω)) (world : World α κ ω) :
    (expired.foldl handleExpiredNode world).nextPtr = world.nextPtr := by
  induction expired generalizing world with
  | nil => rfl
  | cons node rest ih =>
    rw [foldl_cons, ih]
    unfold handleExpiredNode
    split
    · rfl
    · rename_i cb data
      cases cb with
      | none => rfl
      | some cb => rfl
    · rfl

/-- Nodes whose timers ran out are completed or posted, each with its own callback. -/
theorem Owned.handleExpired {expired : List (SyncNode α κ ω)} (owned : Owned owns world)
    (own : ∀ node ∈ expired, ∃ cb ∈ node.callback, owns node.ptr node.id cb) :
    Owned owns (expired.foldl handleExpiredNode world) := by
  induction expired generalizing world with
  | nil => exact owned
  | cons node rest ih =>
    rw [foldl_cons]
    refine ih ?_ fun other member => own other (mem_cons_of_mem _ member)
    obtain ⟨cb, isCallback, owns⟩ := own node mem_cons_self
    unfold SyncNode.callback at isCallback
    unfold handleExpiredNode
    split
    · rename_i data
      rw [data] at isCallback
      cases isCallback
      exact owned.post owns
    · rename_i data
      rw [data] at isCallback
      cases isCallback
      exact owned.complete owns
    · rename_i data
      rw [data] at isCallback
      cases isCallback

theorem Owned.handleExpiredTrans (owned : Owned owns world) (now : UInt64) :
    Owned owns (bhHandleExpiredTrans now world).2 := by
  refine (owned.removeExpired now).handleExpired fun node member => ?_
  have isExpired : node ∈ (bhRemoveExpiredTrans now world.ctx).2.1 := member
  rw [(removeExpiredTrans_lists now world.ctx).2, mem_reverse] at isExpired
  obtain ⟨original, expired, rfl⟩ := List.mem_map.mp isExpired
  exact owned.listed original (mem_of_mem_filter expired)

end Owned

end Idrm.Trans
