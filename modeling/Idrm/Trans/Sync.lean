import Idrm.Lib.Run

/-!
# Outstanding transactions

`sync_ctx_t` keeps the list of requests that wait for a response. A node leaves
the list when its response is fed or when its timer ran out; an asynchronous node
then has its callback called, at once or in the thread its poster hands it to.

A node is a value with the address it was allocated at, so that two nodes with one
id stay apart. The world around the context records what the calls did outside
it: the callback objects posted and not yet executed, the callbacks invoked, in
order, and the nodes freed. A call that trips an assertion has no result.
-/

namespace Idrm.Trans

open Idrm.Lib

/-- `T_Empty` -/
def tEmpty : UInt8 := 0

/-- What a response consists of: a pointer with what it points to (`NULL` is
`none`), its length and its format. A copy has the same contents. -/
structure Response (α : Type) where
  data : Option α
  len : UInt32
  format : UInt8
deriving DecidableEq

/-- The union of a node, by `sync_type`: a waiting thread, or a callback with its
context and the poster of the thread it runs in. -/
inductive NodeData (α κ ω : Type) where
  | syncData (response : Option α) (responseLen : UInt32) (pendingDelete : Bool)
      (responseFmt : UInt8)
  | cbData (cb : Option κ) (workThread : Option ω)
deriving DecidableEq

/-- `sync_node_t`, with the address it lives at. -/
structure SyncNode (α κ ω : Type) where
  ptr : Nat
  id : UInt32
  timeout : UInt32
  data : NodeData α κ ω
deriving DecidableEq

/-- `sync_ctx_t` -/
structure SyncCtx (α κ ω : Type) where
  list : List (SyncNode α κ ω)
  cnt : UInt32
  lastCheck : UInt32
  newId : UInt32
deriving DecidableEq

/-- `callback_t`, with the poster it went to. -/
structure CallbackT (α κ ω : Type) where
  workThread : ω
  response : Response α
  transaction : SyncNode α κ ω
deriving DecidableEq

/-- One call of a node's callback. -/
structure Invocation (α κ : Type) where
  ptr : Nat
  id : UInt32
  cb : κ
  response : Response α
deriving DecidableEq

/-- The context and what its calls did outside of it. -/
structure World (α κ ω : Type) where
  ctx : SyncCtx α κ ω
  posted : List (CallbackT α κ ω)
  invoked : List (Invocation α κ)
  freed : List Nat
  nextPtr : Nat
deriving DecidableEq

/-! ## The list -/

section Calls

variable {α κ ω : Type}

/-- A node that has a callback, as opposed to a waiting thread. -/
def SyncNode.isAsync (node : SyncNode α κ ω) : Bool :=
  match node.data with
  | .syncData .. => false
  | .cbData .. => true

/-- `add_sync_node` -/
def addSyncNode (node : SyncNode α κ ω) (ctx : SyncCtx α κ ω) : SyncCtx α κ ω :=
  { ctx with list := node :: ctx.list, cnt := ctx.cnt + 1 }

/-- The walk of `remove_sync_node`: unlink the first node with the id. -/
def unlinkFirst (id : UInt32) : List (SyncNode α κ ω) →
    Option (SyncNode α κ ω × List (SyncNode α κ ω))
  | [] => none
  | current :: next =>
    if id = current.id then some (current, next)
    else (unlinkFirst id next).map fun (found, rest) => (found, current :: rest)

/-- `remove_sync_node` -/
def removeSyncNode (id : UInt32) (ctx : SyncCtx α κ ω) : Option (SyncNode α κ ω × SyncCtx α κ ω) :=
  (unlinkFirst id ctx.list).map fun (found, rest) =>
    (found, { ctx with list := rest, cnt := ctx.cnt - 1 })

/-- `bh_gen_id`, which skips the id that asks for a generated one. -/
def bhGenId (ctx : SyncCtx α κ ω) : UInt32 × SyncCtx α κ ω :=
  let newId := if ctx.newId = 0xFFFFFFFF then 0 else ctx.newId
  (newId, { ctx with newId := newId + 1 })

/-- The id a registration uses: its own, or a generated one for `-1`. -/
def chooseId (id : UInt32) (ctx : SyncCtx α κ ω) : UInt32 × SyncCtx α κ ω :=
  if id = 0xFFFFFFFF then bhGenId ctx else (id, ctx)

@[simp] theorem chooseId_list (id : UInt32) (ctx : SyncCtx α κ ω) :
    (chooseId id ctx).2.list = ctx.list := by
  unfold chooseId bhGenId
  split <;> rfl

@[simp] theorem chooseId_cnt (id : UInt32) (ctx : SyncCtx α κ ω) :
    (chooseId id ctx).2.cnt = ctx.cnt := by
  unfold chooseId bhGenId
  split <;> rfl

/-! ## Timers -/

/-- `bh_get_elpased_ms`: the time since the stamp, and the new stamp. -/
def bhGetElpasedMs (now : UInt64) (lastSystemClock : UInt32) : UInt32 × UInt32 :=
  (if now < lastSystemClock.toUInt64 then
      (now + (0xFFFFFFFF - lastSystemClock).toUInt64 + 1).toUInt32
    else (now - lastSystemClock.toUInt64).toUInt32,
    now.toUInt32)

/-- One node of the walk of `bh_update_trans_timer`. -/
def countDown (elpasedMs : UInt32) (node : SyncNode α κ ω) : SyncNode α κ ω :=
  { node with timeout := if node.timeout > elpasedMs then node.timeout - elpasedMs else 0 }

/-- `bh_update_trans_timer` -/
def bhUpdateTransTimer (now : UInt64) (ctx : SyncCtx α κ ω) : Bool × SyncCtx α κ ω :=
  let (elpasedMs, stamp) := bhGetElpasedMs now ctx.lastCheck
  (ctx.list.any fun node => !decide (node.timeout > elpasedMs),
    { ctx with list := ctx.list.map (countDown elpasedMs), lastCheck := stamp })

/-- What the walk of `bh_remove_expired_trans` leaves: the list, the private list
of expired nodes and the nearest timeout. -/
structure Expiry (α κ ω : Type) where
  list : List (SyncNode α κ ω)
  expired : List (SyncNode α κ ω)
  nearest : UInt32

/-- The walk of `bh_remove_expired_trans` from `current` on. -/
def expireFrom (elpasedMs : UInt32) : List (SyncNode α κ ω) → List (SyncNode α κ ω) → UInt32 →
    Expiry α κ ω
  | [], expired, nearest => ⟨[], expired, nearest⟩
  | current :: next, expired, nearest =>
    if current.timeout > elpasedMs then
      let current := { current with timeout := current.timeout - elpasedMs }
      let nearest :=
        if nearest = 0xFFFFFFFF then current.timeout
        else if nearest > current.timeout then current.timeout
        else nearest
      let later := expireFrom elpasedMs next expired nearest
      { later with list := current :: later.list }
    else if !current.isAsync then
      let later := expireFrom elpasedMs next expired nearest
      { later with list := current :: later.list }
    else expireFrom elpasedMs next ({ current with timeout := 0 } :: expired) nearest

/-- `bh_remove_expired_trans`: the nearest timeout, the expired nodes and the context. -/
def bhRemoveExpiredTrans (now : UInt64) (ctx : SyncCtx α κ ω) :
    UInt32 × List (SyncNode α κ ω) × SyncCtx α κ ω :=
  let (elpasedMs, stamp) := bhGetElpasedMs now ctx.lastCheck
  let expiry := expireFrom elpasedMs ctx.list [] 0xFFFFFFFF
  (expiry.nearest, expiry.expired,
    { ctx with
      list := expiry.list
      cnt := ctx.cnt - UInt32.ofNat expiry.expired.length
      lastCheck := stamp })

/-! ## Calls -/

/-- `create_sync_ctx` -/
def createSyncCtx (now : UInt64) : SyncCtx α κ ω where
  list := []
  cnt := 0
  lastCheck := now.toUInt32
  newId := 0

/-- A fresh context and nothing done yet. -/
def World.start (now : UInt64) : World α κ ω where
  ctx := createSyncCtx now
  posted := []
  invoked := []
  freed := []
  nextPtr := 0

/-- The part of `bh_wait_response` before the thread waits: its node is registered. -/
def bhWaitResponse (id : UInt32) (world : World α κ ω) : World α κ ω :=
  let (id, ctx) := chooseId id world.ctx
  { world with
    ctx := addSyncNode ⟨world.nextPtr, id, 0, .syncData none 0 false 0⟩ ctx
    nextPtr := world.nextPtr + 1 }

/-- `bh_wait_response_async`, with the id it returns. -/
def bhWaitResponseAsync (now : UInt64) (id : UInt32) (cb : Option κ) (timeout : UInt32)
    (workerThread : Option ω) (world : World α κ ω) : UInt32 × World α κ ω :=
  let (_, ctx) := bhUpdateTransTimer now world.ctx
  let (id, ctx) := chooseId id ctx
  (id, { world with
    ctx := addSyncNode ⟨world.nextPtr, id, timeout, .cbData cb workerThread⟩ ctx
    nextPtr := world.nextPtr + 1 })

/-- Call a node's callback, if it has one. -/
def invoke (node : SyncNode α κ ω) (cb : Option κ) (response : Response α) (world : World α κ ω) :
    World α κ ω :=
  match cb with
  | none => world
  | some cb => { world with invoked := world.invoked ++ [⟨node.ptr, node.id, cb, response⟩] }

/-- `free (node)` -/
def freeNode (node : SyncNode α κ ω) (world : World α κ ω) : World α κ ω :=
  { world with freed := world.freed ++ [node.ptr] }

/-- Hand a node to its poster, which it no longer refers to. -/
def post (node : SyncNode α κ ω) (cb : Option κ) (workThread : ω) (response : Response α)
    (world : World α κ ω) : World α κ ω :=
  { world with
    posted := world.posted ++ [⟨workThread, response, { node with data := .cbData cb none }⟩] }

/-- `bh_feed_transaction`. The assertion: a node that still has a poster is not fed here. -/
def bhFeedTransaction (node : SyncNode α κ ω) (response : Response α) (world : World α κ ω) :
    Option (World α κ ω) :=
  match node.data with
  | .cbData cb none => some (freeNode node (invoke node cb response world))
  | .cbData _ (some _) => none
  | .syncData .. => some (freeNode node world)

/-- `bh_feed_response`. A waiting thread's node is filled and linked again; `malloc`
tells whether its copy of the data could be allocated. -/
def bhFeedResponse (malloc : UInt32 → Bool) (id : UInt32) (response : Response α)
    (world : World α κ ω) : Option (World α κ ω) :=
  match removeSyncNode id world.ctx with
  | none => some world
  | some (node, ctx) =>
    let world : World α κ ω := { world with ctx := ctx }
    match node.data with
    | .syncData held _ pendingDelete _ =>
      if pendingDelete then some (freeNode node world)
      else
        let copied := decide (response.len ≠ 0) && malloc response.len
        let filled : NodeData α κ ω := .syncData
          (if response.len = 0 then held else if copied then response.data else none)
          (if copied then response.len else 0) false response.format
        some { world with ctx := addSyncNode { node with data := filled } world.ctx }
    | .cbData cb (some workThread) => some (post node cb workThread response world)
    | .cbData _ none => bhFeedTransaction node response world

/-- What `bh_handle_expired_trans` does with one expired node. -/
def handleExpiredNode (world : World α κ ω) (node : SyncNode α κ ω) : World α κ ω :=
  match node.data with
  | .cbData cb (some workThread) => post node cb workThread ⟨none, 0, tEmpty⟩ world
  | .cbData cb none => freeNode node (invoke node cb ⟨none, 0, 0⟩ world)
  | .syncData .. => freeNode node world

/-- `bh_handle_expired_trans`, with the time to the nearest timeout it returns. -/
def bhHandleExpiredTrans (now : UInt64) (world : World α κ ω) : UInt32 × World α κ ω :=
  let (timeout, expired, ctx) := bhRemoveExpiredTrans now world.ctx
  (timeout, expired.foldl handleExpiredNode { world with ctx := ctx })

/-- `execute_callback_node` on the posted callback at an index, which is consumed.
There is no call for an index that holds none. -/
def executeCallbackNode (index : Nat) (world : World α κ ω) : Option (World α κ ω) :=
  match world.posted[index]? with
  | none => some world
  | some callback =>
    bhFeedTransaction callback.transaction callback.response
      { world with posted := world.posted.eraseIdx index }

/-- The calls on one context. -/
inductive Call (α κ ω : Type) where
  | waitResponse (id : UInt32)
  | waitResponseAsync (id : UInt32) (cb : Option κ) (timeout : UInt32) (workerThread : Option ω)
  | feedResponse (id : UInt32) (response : Response α)
  | updateTransTimer
  | handleExpiredTrans
  | executeCallbackNode (index : Nat)
deriving DecidableEq

/-- One call, at a time in milliseconds. -/
def perform (malloc : UInt32 → Bool) : Nat × Call α κ ω → World α κ ω → Option (World α κ ω)
  | (_, .waitResponse id), world => some (bhWaitResponse id world)
  | (time, .waitResponseAsync id cb timeout workerThread), world =>
    some (bhWaitResponseAsync (UInt64.ofNat time) id cb timeout workerThread world).2
  | (_, .feedResponse id response), world => bhFeedResponse malloc id response world
  | (time, .updateTransTimer), world =>
    some { world with ctx := (bhUpdateTransTimer (UInt64.ofNat time) world.ctx).2 }
  | (time, .handleExpiredTrans), world =>
    some (bhHandleExpiredTrans (UInt64.ofNat time) world).2
  | (_, .executeCallbackNode index), world => executeCallbackNode index world

end Calls

end Idrm.Trans
