import Mathlib.Algebra.Group.Nat.Defs
import Mathlib.Data.List.Nodup
import Idrm.Trans.Completion

/-!
# Transaction timers

A node stores what is left of its timeout; every call that reads the clock brings
all nodes up to date against one shared 32-bit stamp. `Timed` says what that
amounts to: a node's remainder is its timeout less the time between its
registration and the last reading.

The stamp only tells readings apart when they are less than `2 ^ 32` milliseconds
apart, and a fed response does not read the clock.
-/

namespace Idrm.Trans

open Idrm.Lib List

section Timers

variable {α κ ω : Type}

/-! ## The clock -/

/-- The elapsed time is exact between readings less than `2 ^ 32` apart, also when
the stamp wraps between them. -/
theorem bhGetElpasedMs_exact {last now : Nat} (ordered : last ≤ now) (near : now - last < 2 ^ 32) :
    (bhGetElpasedMs (UInt64.ofNat now) (UInt32.ofNat last)).1.toNat = now - last := by
  have stamp : (UInt32.ofNat last).toNat = last % 2 ^ 32 := UInt32.toNat_ofNat'
  have tick : (UInt64.ofNat now).toNat = now % 2 ^ 64 := UInt64.toNat_ofNat'
  have bound := (UInt32.ofNat last).toNat_lt
  unfold bhGetElpasedMs
  simp only
  split
  · rename_i wrapped
    rw [UInt64.lt_iff_toNat_lt, UInt32.toNat_toUInt64, stamp, tick] at wrapped
    have rest : (0xFFFFFFFF - UInt32.ofNat last).toNat = 0xFFFFFFFF - last % 2 ^ 32 := by
      rw [UInt32.toNat_sub_of_le, stamp]
      · rfl
      · rw [UInt32.le_iff_toNat_le, stamp]
        simp only [UInt32.reduceToNat]
        omega
    rw [UInt64.toNat_toUInt32, UInt64.toNat_add, UInt64.toNat_add,
      UInt32.toNat_toUInt64, rest, tick]
    simp only [UInt64.reduceToNat]
    omega
  · rename_i straight
    rw [UInt64.lt_iff_toNat_lt, UInt32.toNat_toUInt64, stamp, tick] at straight
    rw [UInt64.toNat_toUInt32, UInt64.toNat_sub_of_le, UInt32.toNat_toUInt64, stamp, tick]
    · omega
    · rw [UInt64.le_iff_toNat_le, UInt32.toNat_toUInt64, stamp, tick]
      omega

/-- The calls that read the clock. -/
def Call.readsClock : Call α κ ω → Bool
  | .waitResponseAsync .. => true
  | .updateTransTimer => true
  | .handleExpiredTrans => true
  | .waitResponse _ => false
  | .feedResponse .. => false
  | .executeCallbackNode _ => false

/-- The time of the last clock reading of a run. -/
def lastReading (created : Nat) (calls : List (Nat × Call α κ ω)) : Nat :=
  calls.foldl (fun last event => if event.2.readsClock then event.1 else last) created

/-- The registrations of a run, in order, with their time and timeout. The address
of a node is its place in this list. -/
def registrations (calls : List (Nat × Call α κ ω)) : List (Nat × UInt32) :=
  calls.filterMap fun
    | (time, .waitResponse _) => some (time, 0)
    | (time, .waitResponseAsync _ _ timeout _) => some (time, timeout)
    | _ => none

/-- A run at non-decreasing times whose clock readings are less than `2 ^ 32`
milliseconds apart. -/
structure Paced (created : Nat) (calls : List (Nat × Call α κ ω)) : Prop where
  ordered : (created :: calls.map (·.1)).Pairwise (· ≤ ·)
  readings : ∀ before event after, calls = before ++ event :: after → event.2.readsClock = true →
    event.1 - lastReading created before < 2 ^ 32

variable {past : List (Nat × Call α κ ω)} {created : Nat} {event : Nat × Call α κ ω}

theorem Paced.shorter
    (paced : Paced created (past ++ [event])) : Paced created past where
  ordered := by
    have ordered := paced.ordered
    rw [map_append, ← cons_append] at ordered
    exact (pairwise_append.mp ordered).1
  readings := by
    intro before reading after split
    exact paced.readings before reading (after ++ [event]) (by simp [split])

theorem lastReading_concat (created : Nat) (past : List (Nat × Call α κ ω)) (time : Nat)
    (call : Call α κ ω) :
    lastReading created (past ++ [(time, call)]) =
      if call.readsClock then time else lastReading created past := by
  simp [lastReading]

/-- The last reading is one of the times of the run. -/
theorem lastReading_mem (created : Nat) (calls : List (Nat × Call α κ ω)) :
    lastReading created calls ∈ created :: calls.map (·.1) := by
  induction calls using List.reverseRecOn with
  | nil => simp [lastReading]
  | append_singleton past event ih =>
    obtain ⟨time, call⟩ := event
    rw [lastReading_concat]
    split
    · simp
    · rw [map_append, ← cons_append]
      exact mem_append_left _ ih

/-- A run that is over before the stamp can wrap twice is paced. -/
theorem paced_of_span {calls : List (Nat × Call α κ ω)}
    (ordered : (created :: calls.map (·.1)).Pairwise (· ≤ ·))
    (span : ∀ event ∈ calls, event.1 < created + 2 ^ 32) : Paced created calls where
  ordered := ordered
  readings := by
    intro before event after split reads
    have within := span event (by simp [split])
    have notBefore : created ≤ lastReading created before := by
      rcases mem_cons.mp (lastReading_mem created before) with atStart | later
      · exact Nat.le_of_eq atStart.symm
      · refine (pairwise_cons.mp ordered).1 _ ?_
        rw [split, map_append]
        exact mem_append_left _ later
    omega

/-- The last reading of a paced run is not after its next call. -/
theorem Paced.reading_le
    (paced : Paced created (past ++ [event])) : lastReading created past ≤ event.1 := by
  have ordered := paced.ordered
  rw [map_append, ← cons_append] at ordered
  exact (pairwise_append.mp ordered).2.2 _ (lastReading_mem created past) _ (by simp)

/-! ## Remainders -/

/-- The stamp is that of the last reading, a callback's remainder is its timeout
less the time since its registration, and a waiting thread's node has none. -/
structure Timed (created : Nat) (past : List (Nat × Call α κ ω)) (world : World α κ ω) : Prop where
  stamp : world.ctx.lastCheck = UInt32.ofNat (lastReading created past)
  addresses : world.nextPtr = (registrations past).length
  timers : ∀ node ∈ world.ctx.list, node.isAsync = true →
    ∃ time timeout, (registrations past)[node.ptr]? = some (time, timeout) ∧
      time ≤ lastReading created past ∧
      node.timeout.toNat = timeout.toNat - (lastReading created past - time)
  threads : ∀ node ∈ world.ctx.list, node.isAsync = false → node.timeout = 0

theorem timed_start (created : Nat) :
    Timed created [] (World.start (UInt64.ofNat created) : World α κ ω) where
  stamp := by
    apply UInt32.toNat_inj.mp
    simp only [World.start, createSyncCtx, lastReading, foldl_nil, UInt64.toNat_toUInt32,
      UInt64.toNat_ofNat', UInt32.toNat_ofNat']
    omega
  addresses := rfl
  timers := by simp [World.start, createSyncCtx]
  threads := by simp [World.start, createSyncCtx]

/-- The timeout a call registers, if it registers a node. -/
def Call.registers : Call α κ ω → Option UInt32
  | .waitResponse _ => some 0
  | .waitResponseAsync _ _ timeout _ => some timeout
  | _ => none

theorem registrations_concat (past : List (Nat × Call α κ ω)) (time : Nat) (call : Call α κ ω) :
    registrations (past ++ [(time, call)]) =
      registrations past ++ (call.registers.map fun timeout => (time, timeout)).toList := by
  rw [registrations, filterMap_append]
  cases call <;> rfl

/-- How a node of the list after a call came there: it was there, with `elapsed`
more milliseconds on its timer, or the call registered it. -/
inductive Comes (elapsed : Nat) (world : World α κ ω) (call : Call α κ ω)
    (node : SyncNode α κ ω) : Prop where
  | stayed (old : SyncNode α κ ω) (listed : old ∈ world.ctx.list) (samePtr : node.ptr = old.ptr)
      (sameKind : node.isAsync = old.isAsync)
      (ran : node.timeout.toNat = old.timeout.toNat - elapsed)
  | fresh (isNext : node.ptr = world.nextPtr) (timeout : call.registers = some node.timeout)
      (reads : node.isAsync = true → call.readsClock = true)
      (thread : node.isAsync = false → node.timeout = 0)

variable {world next : World α κ ω} {call : Call α κ ω}

/-- A call that brings the stamp up to date, allocates what it registers and treats
every node as `Comes` says keeps the timers. -/
theorem Timed.advance {time : Nat} (timed : Timed created past world)
    (paced : Paced created (past ++ [(time, call)])) (stamp :
      next.ctx.lastCheck = if call.readsClock then UInt32.ofNat time else world.ctx.lastCheck)
    (addresses : next.nextPtr = world.nextPtr + call.registers.toList.length)
    (comes : ∀ node ∈ next.ctx.list,
      Comes (if call.readsClock then time - lastReading created past else 0) world call node) :
    Timed created (past ++ [(time, call)]) next := by
  have reading := lastReading_concat created past time call
  have ordered : lastReading created past ≤ time := paced.reading_le
  have earlier : ∀ {ptr : Nat} {entry : Nat × UInt32}, (registrations past)[ptr]? = some entry →
      (registrations (past ++ [(time, call)]))[ptr]? = some entry := by
    intro ptr entry found
    obtain ⟨bound, -⟩ := List.getElem?_eq_some_iff.mp found
    rw [registrations_concat, List.getElem?_append_left bound, found]
  refine ⟨?_, ?_, ?_, ?_⟩
  · rw [stamp, reading, timed.stamp]
    split <;> rfl
  · rw [addresses, timed.addresses, registrations_concat, length_append]
    cases call.registers <;> rfl
  · intro node listed async
    cases comes node listed with
    | stayed old oldListed samePtr sameKind ran =>
      obtain ⟨registered, timeout, found, before, remainder⟩ :=
        timed.timers old oldListed (sameKind ▸ async)
      refine ⟨registered, timeout, by rw [samePtr]; exact earlier found, ?_, ?_⟩
      · rw [reading]
        split <;> omega
      · rw [ran, remainder, reading]
        split <;> omega
    | fresh isNext timeout reads thread =>
      have now : lastReading created (past ++ [(time, call)]) = time := by
        rw [reading, if_pos (reads async)]
      refine ⟨time, node.timeout, ?_, Nat.le_of_eq now.symm, by rw [now]; omega⟩
      rw [registrations_concat, isNext, timed.addresses, timeout]
      simp
  · intro node listed isThread
    cases comes node listed with
    | stayed old oldListed samePtr sameKind ran =>
      rw [timed.threads old oldListed (sameKind ▸ isThread)] at ran
      apply UInt32.toNat_inj.mp
      simpa using ran
    | fresh isNext timeout reads thread => exact thread isThread

/-- The elapsed time a clock-reading call of a paced run computes. -/
theorem Timed.elapsed {world : World α κ ω}
    {time : Nat} (timed : Timed created past world)
    (paced : Paced created (past ++ [(time, call)])) (reads : call.readsClock = true) :
    (bhGetElpasedMs (UInt64.ofNat time) world.ctx.lastCheck).1.toNat =
      time - lastReading created past := by
  rw [timed.stamp]
  exact bhGetElpasedMs_exact paced.reading_le (paced.readings past _ [] rfl reads)

theorem bhGetElpasedMs_stamp (time : Nat) (last : UInt32) :
    (bhGetElpasedMs (UInt64.ofNat time) last).2 = UInt32.ofNat time := by
  apply UInt32.toNat_inj.mp
  simp only [bhGetElpasedMs, UInt64.toNat_toUInt32, UInt64.toNat_ofNat', UInt32.toNat_ofNat']
  omega

theorem countDown_timeout (elpasedMs : UInt32) (node : SyncNode α κ ω) :
    (countDown elpasedMs node).timeout.toNat = node.timeout.toNat - elpasedMs.toNat := by
  unfold countDown
  split
  · rename_i running
    rw [gt_iff_lt, UInt32.lt_iff_toNat_lt] at running
    rw [UInt32.toNat_sub_of_le _ _ (UInt32.le_iff_toNat_le.mpr (by omega))]
  · rename_i ranOut
    rw [gt_iff_lt, UInt32.lt_iff_toNat_lt] at ranOut
    simp only [UInt32.toNat_zero]
    omega

variable {node : SyncNode α κ ω}

theorem aged_timeout {elpasedMs : UInt32}
    (thread : node.isAsync = false → node.timeout = 0) (stays : node.stays elpasedMs = true) :
    (node.aged elpasedMs).timeout.toNat = node.timeout.toNat - elpasedMs.toNat := by
  unfold SyncNode.aged
  split
  · rename_i running
    rw [gt_iff_lt, UInt32.lt_iff_toNat_lt] at running
    rw [UInt32.toNat_sub_of_le _ _ (UInt32.le_iff_toNat_le.mpr (by omega))]
  · rename_i ranOut
    have isThread : node.isAsync = false := by simpa [SyncNode.stays, ranOut] using stays
    rw [thread isThread]
    simp

@[simp] theorem SyncNode.aged_isAsync (elpasedMs : UInt32) (node : SyncNode α κ ω) :
    (node.aged elpasedMs).isAsync = node.isAsync := by
  unfold SyncNode.aged
  split <;> rfl

/-- Handing nodes on changes neither the context nor the allocator. -/
theorem handleExpired_frame (expired : List (SyncNode α κ ω)) (world : World α κ ω) :
    (expired.foldl handleExpiredNode world).ctx = world.ctx ∧
      (expired.foldl handleExpiredNode world).nextPtr = world.nextPtr := by
  induction expired generalizing world with
  | nil => exact ⟨rfl, rfl⟩
  | cons node rest ih =>
    obtain ⟨sameCtx, samePtr⟩ := ih (handleExpiredNode world node)
    rw [foldl_cons, sameCtx, samePtr]
    unfold handleExpiredNode
    split
    · exact ⟨rfl, rfl⟩
    · unfold freeNode invoke
      split <;> exact ⟨rfl, rfl⟩
    · exact ⟨rfl, rfl⟩

theorem handleExpiredTrans_frame (now : UInt64) (world : World α κ ω) :
    (bhHandleExpiredTrans now world).2.ctx = (bhRemoveExpiredTrans now world.ctx).2.2 ∧
      (bhHandleExpiredTrans now world).2.nextPtr = world.nextPtr :=
  handleExpired_frame (bhRemoveExpiredTrans now world.ctx).2.1
    { world with ctx := (bhRemoveExpiredTrans now world.ctx).2.2 }

theorem feedTransaction_frame {response : Response α}
    (fed : bhFeedTransaction node response world = some next) :
    next.ctx = world.ctx ∧ next.nextPtr = world.nextPtr := by
  unfold bhFeedTransaction at fed
  split at fed
  · cases fed
    unfold freeNode invoke
    split <;> exact ⟨rfl, rfl⟩
  · cases fed
  · cases fed
    exact ⟨rfl, rfl⟩

/-- Feeding takes at most one node out and puts none in that was not there. -/
theorem feedResponse_frame {malloc : UInt32 → Bool} {id : UInt32}
    {response : Response α} (fed : bhFeedResponse malloc id response world = some next) :
    next.ctx.lastCheck = world.ctx.lastCheck ∧ next.nextPtr = world.nextPtr ∧
    ∀ node ∈ next.ctx.list, ∃ old ∈ world.ctx.list, node.ptr = old.ptr ∧
    node.isAsync = old.isAsync ∧ node.timeout = old.timeout := by
  unfold bhFeedResponse at fed
  cases removed : removeSyncNode id world.ctx with
  | none =>
    rw [removed] at fed
    cases fed
    exact ⟨rfl, rfl, fun node listed => ⟨node, listed, rfl, rfl, rfl⟩⟩
  | some outcome =>
    obtain ⟨node, ctx⟩ := outcome
    rw [removed] at fed
    obtain ⟨⟨found, rest⟩, unlinked, built⟩ := Option.map_eq_some_iff.mp removed
    cases built
    obtain ⟨-, front, back, split, rfl⟩ := unlinkFirst_some unlinked
    have kept : ∀ node ∈ front ++ back, node ∈ world.ctx.list := by
      intro node member
      rw [split]
      rcases mem_append.mp member with inFront | inBack
      · exact mem_append_left _ inFront
      · exact mem_append_right _ (mem_cons_of_mem _ inBack)
    have found : node ∈ world.ctx.list := by simp [split]
    have others : ∀ other ∈ front ++ back, ∃ old ∈ world.ctx.list, other.ptr = old.ptr ∧
        other.isAsync = old.isAsync ∧ other.timeout = old.timeout :=
      fun other member => ⟨other, kept other member, rfl, rfl, rfl⟩
    simp only at fed
    split at fed
    · rename_i data
      split at fed
      · cases fed
        exact ⟨rfl, rfl, others⟩
      · cases fed
        refine ⟨rfl, rfl, fun other member => ?_⟩
        rcases mem_cons.mp member with rfl | linked
        · exact ⟨node, found, rfl, by simp [SyncNode.isAsync, data], rfl⟩
        · exact others other linked
    · cases fed
      exact ⟨rfl, rfl, others⟩
    · obtain ⟨sameCtx, samePtr⟩ := feedTransaction_frame fed
      rw [sameCtx, samePtr]
      exact ⟨rfl, rfl, others⟩

@[simp] theorem chooseId_lastCheck (id : UInt32) (ctx : SyncCtx α κ ω) :
    (chooseId id ctx).2.lastCheck = ctx.lastCheck := by
  unfold chooseId bhGenId
  split <;> rfl

/-- A counted-down node is the old one with the elapsed time on its timer. -/
theorem comes_countDown {elpasedMs : UInt32}
    {world : World α κ ω} (listed : node ∈ world.ctx.list.map (countDown elpasedMs)) :
    Comes elpasedMs.toNat world call node := by
  obtain ⟨old, oldListed, rfl⟩ := mem_map.mp listed
  exact .stayed old oldListed rfl rfl (countDown_timeout elpasedMs old)

/-- Every call of a paced run keeps the timers. -/
theorem perform_timed {malloc : UInt32 → Bool} (timed : Timed created past world)
    (paced : Paced created (past ++ [event])) (performed : perform malloc event world = some next) :
    Timed created (past ++ [event]) next := by
  obtain ⟨time, call⟩ := event
  cases call with
  | waitResponse id =>
    cases performed
    refine timed.advance paced (by simp [bhWaitResponse, addSyncNode, Call.readsClock]) rfl ?_
    intro node listed
    simp only [bhWaitResponse, addSyncNode, chooseId_list, mem_cons] at listed
    rcases listed with rfl | stayed
    · exact .fresh rfl rfl (fun async => by cases async) (fun _ => rfl)
    · exact .stayed node stayed rfl rfl rfl
  | waitResponseAsync id cb timeout workerThread =>
    cases performed
    have elapsed := timed.elapsed paced rfl
    refine timed.advance paced ?_ rfl ?_
    · simp [bhWaitResponseAsync, addSyncNode, bhUpdateTransTimer, bhGetElpasedMs_stamp,
        Call.readsClock]
    · intro node listed
      simp only [bhWaitResponseAsync, addSyncNode, chooseId_list, mem_cons] at listed
      rcases listed with rfl | counted
      · exact .fresh rfl rfl (fun _ => rfl) (fun thread => by cases thread)
      · rw [show Call.readsClock _ = true from rfl, if_pos rfl, ← elapsed]
        exact comes_countDown counted
  | feedResponse id response =>
    obtain ⟨sameStamp, samePtr, nodes⟩ := feedResponse_frame performed
    refine timed.advance paced sameStamp samePtr ?_
    intro node listed
    obtain ⟨old, oldListed, samePtr, sameKind, sameTimeout⟩ := nodes node listed
    exact .stayed old oldListed samePtr sameKind (by rw [sameTimeout]; rfl)
  | updateTransTimer =>
    cases performed
    have elapsed := timed.elapsed paced rfl
    refine timed.advance paced ?_ rfl ?_
    · simp [bhUpdateTransTimer, bhGetElpasedMs_stamp, Call.readsClock]
    · intro node listed
      rw [show Call.readsClock _ = true from rfl, if_pos rfl, ← elapsed]
      exact comes_countDown listed
  | handleExpiredTrans =>
    cases performed
    have elapsed := timed.elapsed paced rfl
    obtain ⟨sameCtx, samePtr⟩ := handleExpiredTrans_frame (UInt64.ofNat time) world
    refine timed.advance paced ?_ samePtr ?_
    · rw [sameCtx]
      exact bhGetElpasedMs_stamp time world.ctx.lastCheck
    · intro node listed
      rw [sameCtx, (removeExpiredTrans_lists _ _).1] at listed
      obtain ⟨old, stayed, rfl⟩ := mem_map.mp listed
      obtain ⟨oldListed, stays⟩ := mem_filter.mp stayed
      rw [show Call.readsClock _ = true from rfl, if_pos rfl, ← elapsed]
      exact .stayed old oldListed (by simp) (by simp)
        (aged_timeout (timed.threads old oldListed) stays)
  | executeCallbackNode index =>
    have same : next.ctx = world.ctx ∧ next.nextPtr = world.nextPtr := by
      simp only [perform, executeCallbackNode] at performed
      split at performed
      · cases performed
        exact ⟨rfl, rfl⟩
      · obtain ⟨sameCtx, samePtr⟩ := feedTransaction_frame performed
        exact ⟨sameCtx, samePtr⟩
    refine timed.advance paced (congrArg SyncCtx.lastCheck same.1) same.2 ?_
    intro node listed
    rw [same.1] at listed
    exact .stayed node listed rfl rfl rfl

/-! ## The nearest timeout -/

/-- The walk keeps the smaller of the timeouts it has seen; its start value stands
for none. -/
theorem expireFrom_nearest (elpasedMs : UInt32) (list expired : List (SyncNode α κ ω))
    (nearest : UInt32) :
    (expireFrom elpasedMs list expired nearest).nearest.toNat =
      (list.filter (·.timeout > elpasedMs)).foldl
        (fun least node => min least (node.timeout.toNat - elpasedMs.toNat)) nearest.toNat := by
  induction list generalizing expired nearest with
  | nil => rfl
  | cons current next ih =>
    unfold expireFrom
    by_cases running : current.timeout > elpasedMs
    · have left : (current.timeout - elpasedMs).toNat = current.timeout.toNat -
          elpasedMs.toNat := by
        rw [gt_iff_lt, UInt32.lt_iff_toNat_lt] at running
        rw [UInt32.toNat_sub_of_le _ _ (UInt32.le_iff_toNat_le.mpr (by omega))]
      have smaller : (if nearest = 0xFFFFFFFF then current.timeout - elpasedMs
          else if nearest > current.timeout - elpasedMs then current.timeout - elpasedMs
          else nearest).toNat = min nearest.toNat (current.timeout.toNat - elpasedMs.toNat) := by
        have bound := (current.timeout - elpasedMs).toNat_lt
        split
        · rename_i none
          rw [none, left]
          simp only [UInt32.reduceToNat]
          omega
        · split
          · rename_i greater
            rw [gt_iff_lt, UInt32.lt_iff_toNat_lt] at greater
            omega
          · rename_i notGreater
            rw [gt_iff_lt, UInt32.lt_iff_toNat_lt] at notGreater
            omega
      simp only [running, if_true]
      rw [ih, smaller, filter_cons_of_pos (by simpa using running),
        foldl_cons]
    · simp only [running, if_false]
      rw [filter_cons_of_neg (by simpa using running)]
      cases async : current.isAsync with
      | false =>
        simp only [Bool.not_false, if_true]
        exact ih expired nearest
      | true =>
        simp only [Bool.not_true, Bool.false_eq_true, if_false]
        exact ih _ nearest

/-- A running minimum is attained and is a lower bound. -/
theorem foldl_min_spec {β : Type} (value : β → Nat) (items : List β) (start : Nat) :
    (items.foldl (fun least item => min least (value item)) start = start ∨
        ∃ item ∈ items, items.foldl (fun least item => min least (value item)) start = value item) ∧
      items.foldl (fun least item => min least (value item)) start ≤ start ∧
      ∀ item ∈ items,
      items.foldl (fun least item => min least (value item)) start ≤ value item := by
  induction items generalizing start with
  | nil => simp
  | cons head rest ih =>
    obtain ⟨attained, below, bound⟩ := ih (min start (value head))
    simp only [foldl_cons, mem_cons, forall_eq_or_imp, exists_eq_or_imp]
    refine ⟨?_, by omega, by omega, bound⟩
    rcases attained with atStart | ⟨item, member, atItem⟩
    · rw [atStart]
      omega
    · exact .inr (.inr ⟨item, member, atItem⟩)

/-! ## Whole runs -/

/-- What is left at a time of the timeout a node was registered with. -/
def remainingMs (calls : List (Nat × Call α κ ω)) (time : Nat) (node : SyncNode α κ ω) : Nat :=
  match (registrations calls)[node.ptr]? with
  | some (registered, timeout) => timeout.toNat - (time - registered)
  | none => 0

/-- The timeouts a run asks for leave room for the value that stands for none. -/
def ShortTimeouts (calls : List (Nat × Call α κ ω)) : Prop :=
  ∀ entry ∈ registrations calls, entry.2.toNat < 2 ^ 32 - 1

instance (calls : List (Nat × Call α κ ω)) : Decidable (ShortTimeouts calls) :=
  inferInstanceAs (Decidable (∀ entry ∈ registrations calls, entry.2.toNat < 2 ^ 32 - 1))

theorem run_timed (malloc : UInt32 → Bool) {calls : List (Nat × Call α κ ω)}
    (paced : Paced created calls) :
    ∃ world, runAll (perform malloc) calls (World.start (UInt64.ofNat created)) = some world ∧
    Accounted (Resolved malloc (UInt64.ofNat created) calls) world ∧ Timed created calls world := by
  obtain ⟨world, ran, -, accounted, timed⟩ := runAll_safe
    (fun past world =>
      runAll (perform malloc) past (World.start (UInt64.ofNat created)) = some world ∧
      Accounted (Resolved malloc (UInt64.ofNat created) past) world ∧ Timed created past world)
    (Paced created) ⟨rfl, accounted_start _, timed_start created⟩ (fun _ _ => Paced.shorter)
    (fun past event world paced holds => by
      obtain ⟨ran, accounted, timed⟩ := holds
      obtain ⟨next, performed, kept⟩ := perform_accounted ran accounted event
      exact ⟨next, performed, by rw [runAll_concat, ran, Option.bind_some, performed], kept,
        perform_timed timed paced performed⟩)
    calls paced
  exact ⟨world, ran, accounted, timed⟩

/-- A node with its timer cleared: everything but the running timeout. -/
def SyncNode.stopped (node : SyncNode α κ ω) : SyncNode α κ ω := { node with timeout := 0 }

@[simp] theorem SyncNode.stopped_aged (elpasedMs : UInt32) (node : SyncNode α κ ω) :
    (node.aged elpasedMs).stopped = node.stopped := by
  unfold SyncNode.aged
  split <;> rfl

/-- Two nodes of a list have two addresses. -/
theorem Holding.sameNode {because : Nat → UInt32 → Response α → Prop} {world : World α κ ω}
    (accounted : Holding because [] world)
    {one other : SyncNode α κ ω} (oneListed : one ∈ world.ctx.list)
    (otherListed : other ∈ world.ctx.list) (samePtr : one.ptr = other.ptr) : one = other := by
  have distinct := accounted.places.nodup_iff.mpr nodup_range
  simp only [World.places, map_nil, nil_append, append_assoc] at distinct
  exact inj_on_of_nodup_map (nodup_append.mp distinct).1 oneListed otherListed samePtr

section Expiry

variable {created time : Nat} {calls : List (Nat × Call α κ ω)} {world : World α κ ω}

variable {node : SyncNode α κ ω}

/-- A callback's node stays in an expiry exactly when its timeout is not over. -/
theorem Timed.stays_iff (timed : Timed created calls world)
    (paced : Paced created (calls ++ [(time, .handleExpiredTrans)]))
    (listed : node ∈ world.ctx.list) (async : node.isAsync = true) :
    ∃ registered timeout, (registrations calls)[node.ptr]? = some (registered, timeout) ∧
      (node.stays (bhGetElpasedMs (UInt64.ofNat time) world.ctx.lastCheck).1 = true ↔
        time - registered < timeout.toNat) := by
  obtain ⟨registered, timeout, found, before, remainder⟩ := timed.timers node listed async
  have elapsed := timed.elapsed paced rfl
  have ordered : lastReading created calls ≤ time := paced.reading_le
  refine ⟨registered, timeout, found, ?_⟩
  simp only [SyncNode.stays, async, Bool.not_true, Bool.or_false, decide_eq_true_eq, gt_iff_lt,
    UInt32.lt_iff_toNat_lt, elapsed, remainder]
  omega

/-- What an expiry leaves on the timer of a callback's node that stays. -/
theorem Timed.remaining (timed : Timed created calls world)
    (paced : Paced created (calls ++ [(time, .handleExpiredTrans)]))
    (listed : node ∈ world.ctx.list) (async : node.isAsync = true) :
    node.timeout.toNat - (bhGetElpasedMs (UInt64.ofNat time) world.ctx.lastCheck).1.toNat =
      remainingMs calls time node := by
  obtain ⟨registered, timeout, found, before, remainder⟩ := timed.timers node listed async
  have elapsed := timed.elapsed paced rfl
  have ordered : lastReading created calls ≤ time := paced.reading_le
  rw [remainingMs, found, elapsed, remainder]
  simp only
  omega

/-- The nodes that a timer keeps in the list are those of callbacks. -/
theorem Timed.isAsync_of_running (timed : Timed created calls world)
    {elpasedMs : UInt32} (listed : node ∈ world.ctx.list) (running : node.timeout > elpasedMs) :
    node.isAsync = true := by
  cases async : node.isAsync with
  | true => rfl
  | false =>
    rw [timed.threads node listed async, gt_iff_lt, UInt32.lt_iff_toNat_lt] at running
    simp at running

theorem remainingMs_aged (calls : List (Nat × Call α κ ω)) (time : Nat) (elpasedMs : UInt32)
    (node : SyncNode α κ ω) :
    remainingMs calls time (node.aged elpasedMs) = remainingMs calls time node := by
  simp [remainingMs]

end Expiry

/-- What an expiry at a time owes the registrations of the run before it. -/
structure ExactExpiry (calls : List (Nat × Call α κ ω)) (time : Nat)
    (world : World α κ ω) : Prop where
  /-- Exactly the callbacks whose timeout is over leave the list. -/
  removes : ∀ node ∈ world.ctx.list, node.isAsync = true →
    ∃ registered timeout, (registrations calls)[node.ptr]? = some (registered, timeout) ∧
      (node.ptr ∉ (bhHandleExpiredTrans (UInt64.ofNat time) world).2.ctx.list.map (·.ptr) ↔
        timeout.toNat ≤ time - registered)
  /-- The returned time is not above any remaining timeout. -/
  lowerBound : ∀ node ∈ (bhHandleExpiredTrans (UInt64.ofNat time) world).2.ctx.list,
    node.isAsync = true →
      (bhHandleExpiredTrans (UInt64.ofNat time) world).1.toNat ≤ remainingMs calls time node
  /-- It is one of them, or stands for none. -/
  attained : (∃ node ∈ (bhHandleExpiredTrans (UInt64.ofNat time) world).2.ctx.list,
      node.isAsync = true ∧
        (bhHandleExpiredTrans (UInt64.ofNat time) world).1.toNat = remainingMs calls time node) ∨
    (∀ node ∈ (bhHandleExpiredTrans (UInt64.ofNat time) world).2.ctx.list, node.isAsync = false) ∧
      (bhHandleExpiredTrans (UInt64.ofNat time) world).1 = 0xFFFFFFFF
  /-- The remaining and the expired nodes are the nodes there were. -/
  conserves : (((bhHandleExpiredTrans (UInt64.ofNat time) world).2.ctx.list ++
      (bhRemoveExpiredTrans (UInt64.ofNat time) world.ctx).2.1).map (·.stopped)).Perm
    (world.ctx.list.map (·.stopped))

section Expiry

variable {created time : Nat} {calls : List (Nat × Call α κ ω)} {world : World α κ ω}

theorem handleExpiredTrans_list (now : UInt64) (world : World α κ ω) :
    (bhHandleExpiredTrans now world).2.ctx.list =
      (world.ctx.list.filter (·.stays (bhGetElpasedMs now world.ctx.lastCheck).1)).map
        (·.aged (bhGetElpasedMs now world.ctx.lastCheck).1) := by
  rw [(handleExpiredTrans_frame now world).1, (removeExpiredTrans_lists now world.ctx).1]

variable {node : SyncNode α κ ω}

/-- A callback's node left by an expiry was in the list, with its timer running. -/
theorem mem_remaining_async {now : UInt64}
    (member : node ∈ (bhHandleExpiredTrans now world).2.ctx.list) (async : node.isAsync = true) :
    ∃ old ∈ world.ctx.list, old.timeout > (bhGetElpasedMs now world.ctx.lastCheck).1 ∧
      old.isAsync = true ∧ node = old.aged (bhGetElpasedMs now world.ctx.lastCheck).1 := by
  rw [handleExpiredTrans_list] at member
  obtain ⟨old, staying, rfl⟩ := mem_map.mp member
  obtain ⟨listed, stays⟩ := mem_filter.mp staying
  rw [SyncNode.aged_isAsync] at async
  exact ⟨old, listed, by simpa [SyncNode.stays, async] using stays, async, rfl⟩

theorem Timed.removes_iff (timed : Timed created calls world)
    {because : Nat → UInt32 → Response α → Prop} (accounted : Holding because [] world)
    (paced : Paced created (calls ++ [(time, .handleExpiredTrans)]))
    (listed : node ∈ world.ctx.list) (async : node.isAsync = true) :
    ∃ registered timeout, (registrations calls)[node.ptr]? = some (registered, timeout) ∧
      (node.ptr ∉ (bhHandleExpiredTrans (UInt64.ofNat time) world).2.ctx.list.map (·.ptr) ↔
        timeout.toNat ≤ time - registered) := by
  obtain ⟨registered, timeout, found, stays⟩ := timed.stays_iff paced listed async
  refine ⟨registered, timeout, found, ?_⟩
  rw [← Nat.not_lt, ← stays, handleExpiredTrans_list, not_iff_not]
  constructor
  · intro member
    obtain ⟨aged, agedListed, samePtr⟩ := mem_map.mp member
    obtain ⟨other, staying, rfl⟩ := mem_map.mp agedListed
    obtain ⟨otherListed, otherStays⟩ := mem_filter.mp staying
    rw [SyncNode.aged_ptr] at samePtr
    rw [← accounted.sameNode otherListed listed samePtr]
    exact otherStays
  · intro nodeStays
    refine mem_map.mpr
      ⟨node.aged (bhGetElpasedMs (UInt64.ofNat time) world.ctx.lastCheck).1, ?_, by simp⟩
    exact mem_map.mpr ⟨node, mem_filter.mpr ⟨listed, nodeStays⟩, rfl⟩

/-- The returned time as a minimum over the nodes whose timer runs on. -/
theorem Timed.nearest (timed : Timed created calls world)
    (paced : Paced created (calls ++ [(time, .handleExpiredTrans)])) :
    (bhHandleExpiredTrans (UInt64.ofNat time) world).1.toNat =
      (world.ctx.list.filter
        (·.timeout > (bhGetElpasedMs (UInt64.ofNat time) world.ctx.lastCheck).1)).foldl
        (fun least node => min least (remainingMs calls time node)) 0xFFFFFFFF := by
  have walked := expireFrom_nearest (bhGetElpasedMs (UInt64.ofNat time) world.ctx.lastCheck).1
    world.ctx.list [] 0xFFFFFFFF
  refine Eq.trans walked (foldl_ext _ _ _ fun least node member => ?_)
  obtain ⟨listed, running⟩ := mem_filter.mp member
  have async := timed.isAsync_of_running listed (by simpa using running)
  rw [timed.remaining paced listed async]

/-- A timeout of a run is below the value that stands for none. -/
theorem remainingMs_lt (timed : Timed created calls world) (short : ShortTimeouts calls)
    (listed : node ∈ world.ctx.list) (async : node.isAsync = true) (time : Nat) :
    remainingMs calls time node < 0xFFFFFFFF := by
  obtain ⟨registered, timeout, found, -⟩ := timed.timers node listed async
  have bound := short (registered, timeout) (mem_of_getElem? found)
  rw [remainingMs, found]
  simp only at bound ⊢
  omega

theorem handleExpiredTrans_conserves (now : UInt64) (world : World α κ ω) :
    (((bhHandleExpiredTrans now world).2.ctx.list ++ (bhRemoveExpiredTrans now world.ctx).2.1).map
      (·.stopped)).Perm (world.ctx.list.map (·.stopped)) := by
  have split := filter_append_perm (·.stays (bhGetElpasedMs now world.ctx.lastCheck).1)
    world.ctx.list
  rw [handleExpiredTrans_list, (removeExpiredTrans_lists now world.ctx).2]
  refine List.Perm.trans ?_ (split.map SyncNode.stopped)
  simp only [map_append, map_reverse, map_map, Function.comp_def, SyncNode.stopped_aged]
  exact List.Perm.append_left _ (reverse_perm _)

end Expiry

/-- Over every paced run, an expiry removes exactly the callbacks whose timeout is
over, reports the least remaining one, and loses no node. -/
theorem handleExpiredTrans_exact (malloc : UInt32 → Bool) (created : Nat)
    (calls : List (Nat × Call α κ ω)) (time : Nat)
    (paced : Paced created (calls ++ [(time, .handleExpiredTrans)])) (short : ShortTimeouts calls) :
    ∃ world, runAll (perform malloc) calls (World.start (UInt64.ofNat created)) = some world ∧
      ExactExpiry calls time world := by
  obtain ⟨world, ran, accounted, timed⟩ := run_timed malloc paced.shorter
  obtain ⟨attained, -, bound⟩ := foldl_min_spec (remainingMs calls time)
    (world.ctx.list.filter (·.timeout > (bhGetElpasedMs (UInt64.ofNat time) world.ctx.lastCheck).1))
    0xFFFFFFFF
  rw [← timed.nearest paced] at attained bound
  refine ⟨world, ran, ?_, ?_, ?_, handleExpiredTrans_conserves _ world⟩
  · exact fun node listed async => timed.removes_iff accounted paced listed async
  · intro node member async
    obtain ⟨old, listed, running, -, rfl⟩ := mem_remaining_async member async
    rw [remainingMs_aged]
    exact bound old (mem_filter.mpr ⟨listed, by simpa using running⟩)
  · rcases attained with none | ⟨node, member, atNode⟩
    · right
      refine ⟨fun node member => ?_, UInt32.toNat_inj.mp none⟩
      -- A remaining callback would have brought the minimum below its start value.
      cases async : node.isAsync with
      | false => rfl
      | true =>
        obtain ⟨old, listed, running, oldAsync, rfl⟩ := mem_remaining_async member async
        have below := bound old (mem_filter.mpr ⟨listed, by simpa using running⟩)
        have small := remainingMs_lt timed short listed oldAsync time
        omega
    · left
      obtain ⟨listed, running⟩ := mem_filter.mp member
      have async := timed.isAsync_of_running listed (by simpa using running)
      refine ⟨node.aged (bhGetElpasedMs (UInt64.ofNat time) world.ctx.lastCheck).1,
        ?_, by simpa using async, by rw [remainingMs_aged]; exact atNode⟩
      rw [handleExpiredTrans_list]
      refine mem_map.mpr ⟨node, mem_filter.mpr ⟨listed, ?_⟩, rfl⟩
      simp only [SyncNode.stays, Bool.or_eq_true]
      exact .inl (by simpa using running)

end Timers

/-- A callback of 100 ms, and a response for another id half a stamp range later. -/
def fedBetween : List (Nat × Call Unit Unit Unit) :=
  [(0, .waitResponseAsync 1 (some ()) 100 none), (2 ^ 31, .feedResponse 2 ⟨none, 0, 0⟩)]

/-- With no reading between them, an expiry a whole stamp range later takes the
callback to be 50 ms old. -/
theorem fedBetween_kept :
    ∃ world, runAll (perform fun _ => true) fedBetween (World.start 0) = some world ∧
      (registrations fedBetween)[0]? = some (0, 100) ∧ 100 ≤ (2 ^ 32 + 50) - 0 ∧
      (2 ^ 31 - 0 < 2 ^ 32 ∧ (2 ^ 32 + 50) - 2 ^ 31 < 2 ^ 32) ∧
      (bhHandleExpiredTrans (UInt64.ofNat (2 ^ 32 + 50)) world).2.ctx.list.map (·.ptr) = [0] :=
  ⟨_, rfl, by decide, by decide, by decide, by decide⟩

/-- Two callbacks, a reading after the stamp wrapped, and an expiry of the first. -/
def wrappingRun : List (Nat × Call Unit Unit Unit) :=
  [(2 ^ 32 - 50, .waitResponseAsync 0xFFFFFFFF (some ()) 100 none),
    (2 ^ 32 - 20, .waitResponseAsync 0xFFFFFFFF (some ()) 500 (some ())),
    (2 ^ 32 + 10, .updateTransTimer)]

theorem handleExpiredTrans_exact_wrapping :
    ∃ world, runAll (perform fun _ => true) wrappingRun (World.start (UInt64.ofNat (2 ^ 32 - 60))) =
        some world ∧
      ExactExpiry wrappingRun (2 ^ 32 + 80) world :=
  handleExpiredTrans_exact (fun _ => true) (2 ^ 32 - 60) wrappingRun (2 ^ 32 + 80)
    (paced_of_span (by decide) (by decide)) (by decide)

end Idrm.Trans
