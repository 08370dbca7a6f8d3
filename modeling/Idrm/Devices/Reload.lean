import Idrm.Devices.Cancelling

/-!
# Reloading a configuration

The points of a device are flagged, those that the new configuration asks for are asked for again,
which clears the flag, and the monitors of the others go with `RemoveAllFlagged`. Its walk over the
active list removes them; its walk over the waiting list steps forward twice in each round.
-/

namespace Idrm.Devices

open Idrm.Lib Function Option List

namespace Refresher

/-- What the configuration asks for. -/
structure Asking where
  agentId : Option CString
  directory : Directory
  device : CString
  resource : CString
  para : RefresherPoint.FresherPara

/-- A point is asked for. -/
def ask (asking : Asking) (refresher : Refresher) : Option Refresher :=
  refresher.newRefresherPoint asking.agentId asking.directory asking.device
    asking.resource asking.para

/-- The point that is asked for. -/
def Asking.For (asking : Asking) (point : RefresherPoint) : Prop :=
  point.clientId = Directory.tryUseLocalId asking.agentId asking.device ∧
    point.resourceUrl = asking.resource

/-- A point was flagged, before or by `MarkAllFlagged`, and is not asked for again. -/
def Stale (before : Refresher) (device : Option CString) (askings : List Asking)
    (id : Nat) : Prop :=
  ∃ point, before.points id = some point ∧
    (point.flagged = true ∨ device.all (point.clientId = ·) = true) ∧
    ∀ asking ∈ askings, ¬asking.For point

/-- Stale points have lost their monitor for a publish point, and are gone where it was their only
one; everything else is as it was, and no flag is set. -/
structure Reloaded (stale : Nat → Prop) (purl : CString) (asked next : Refresher) : Prop where
  removed : ∀ id point, next.points id = some point → stale id → ∀ monitor ∈ point.monitors,
    monitor.publishPoint ≠ purl
  gone : ∀ id point, asked.points id = some point → stale id →
    (∀ monitor ∈ point.monitors, monitor.publishPoint = purl) → next.points id = none
  kept : ∀ id, ¬stale id → next.points id = asked.points id
  others : ∀ id point, asked.points id = some point → stale id → ∀ monitor ∈ point.monitors,
    monitor.publishPoint ≠ purl → ∃ left, next.points id = some left ∧ monitor ∈ left.monitors
  expired : next.expiredResList = asked.expiredResList.filter fun id => (next.points id).isSome
  waiting : next.waitingList = asked.waitingList.filter fun id => (next.points id).isSome
  unflagged : ∀ id point, next.points id = some point → point.flagged = false

/-- The number of waiting points is even, and every stale one stands at an even place, counted from
0, and has a monitor for another publish point. -/
def Sparing (stale : Nat → Prop) (purl : CString) (asked : Refresher) : Prop :=
  asked.waitingList.length % 2 = 0 ∧ ∀ index id point, asked.waitingList[index]? = some id →
    asked.points id = some point → stale id →
    index % 2 = 0 ∧ ∃ monitor ∈ point.monitors, monitor.publishPoint ≠ purl

/-- No point has two monitors for one publish point. -/
def Apart (refresher : Refresher) : Prop :=
  ∀ id point, refresher.points id = some point → (point.monitors.map (·.publishPoint)).Nodup

/-! ## Flags -/

section Flags

variable {refresher marked before : Refresher} {id : Nat} {point : RefresherPoint}
  {device : Option CString} {done rest : List Asking}

/-- A point of the device gets its flag. -/
def flagFor (device : Option CString) (point : RefresherPoint) : RefresherPoint :=
  if device.all (point.clientId = ·) then { point with flagged := true } else point

theorem flagFor_idem (device : Option CString) (point : RefresherPoint) :
    flagFor device (flagFor device point) = flagFor device point := by
  unfold flagFor
  by_cases here : device.all (point.clientId = ·)
  · simp only [if_pos here]
  · simp only [if_neg here]

theorem flagPoint_eq (live : refresher.points id = some point) :
    flagPoint device refresher id = some (setPoint id (flagFor device point) refresher) := by
  rw [flagPoint, live]
  simp only [bind_eq_bind, bind_some, flagFor]
  split
  · rfl
  · rw [setPoint, ← live, update_eq_self]

/-- One walk of `MarkAllFlagged` -/
theorem flagPoints_total (device : Option CString) {list : List Nat}
    (lives : ∀ id ∈ list, ∃ point, refresher.points id = some point) :
    ∃ marked, list.foldlM (flagPoint device) refresher = some marked ∧
    marked.expiredResList = refresher.expiredResList ∧ marked.waitingList = refresher.waitingList ∧
    ∀ id, marked.points id = if id ∈ list then (refresher.points id).map (flagFor device)
    else refresher.points id := by
  induction list generalizing refresher with
  | nil => exact ⟨refresher, rfl, rfl, rfl, fun id => (if_neg not_mem_nil).symm⟩
  | cons first rest ih =>
    obtain ⟨point, live⟩ := lives first mem_cons_self
    let written := setPoint first (flagFor device point) refresher
    have livesRest : ∀ id ∈ rest, ∃ point, written.points id = some point := by
      intro id member
      by_cases here : id = first
      · exact here ▸ ⟨_, setPoint_here⟩
      · obtain ⟨content, isContent⟩ := lives id (mem_cons_of_mem _ member)
        exact ⟨content, (update_of_ne here ..).trans isContent⟩
    obtain ⟨marked, walked, expired, waiting, points⟩ := ih livesRest
    refine ⟨marked, ?_, expired, waiting, fun id => ?_⟩
    · rw [foldlM_cons, flagPoint_eq live]
      exact walked
    · rw [points]
      by_cases here : id = first
      · subst here
        rw [if_pos mem_cons_self,
          show written.points id = some (flagFor device point) from setPoint_here, live]
        split
        · exact congrArg some (flagFor_idem device point)
        · rfl
      · have other : written.points id = refresher.points id := update_of_ne here ..
        rw [other]
        simp only [mem_cons, here, false_or]

/-- `MarkAllFlagged` flags the points of the device in both lists. -/
theorem markAllFlagged_points (partition : Partition before) (device : Option CString) :
    ∃ marked, before.markAllFlagged device = some marked ∧ ∀ id,
    marked.points id = (before.points id).map (flagFor device) := by
  obtain ⟨midway, active, sameExpired, sameWaiting, points⟩ :=
    flagPoints_total device partition.lives
  have livesWaiting : ∀ id ∈ before.waitingList, ∃ point, midway.points id = some point := by
    intro id member
    obtain ⟨point, live⟩ := partition.livesWaiting id member
    rw [points, live]
    split
    · exact ⟨_, rfl⟩
    · exact ⟨_, rfl⟩
  obtain ⟨marked, waiting, -, -, last⟩ := flagPoints_total device livesWaiting
  refine ⟨marked, ?_, fun id => ?_⟩
  · rw [markAllFlagged, active]
    show midway.waitingList.foldlM (flagPoint device) midway = some marked
    rw [sameWaiting]
    exact waiting
  · rw [last, points]
    cases live : before.points id with
    | none => simp
    | some point =>
      cases waits : point.waiting with
      | false =>
        have notWaiting : id ∉ before.waitingList := by
          rw [partition.mem_waiting live, waits]
          exact Bool.false_ne_true
        rw [if_neg notWaiting, if_pos ((partition.mem_expired live).mpr waits)]
      | true =>
        have notActive : id ∉ before.expiredResList := by
          rw [partition.mem_expired live, waits]
          exact Bool.true_eq_false.mp
        rw [if_pos ((partition.mem_waiting live).mpr waits), if_neg notActive]

/-- While points are asked for: those that are flagged are the stale ones. -/
structure Remaining (before : Refresher) (device : Option CString) (done : List Asking)
    (state : Refresher) : Prop where
  partition : Partition state
  apart : Apart state
  same : ∀ id old, before.points id = some old → ∃ point,
    state.points id = some point ∧ SameKey old point
  flagged : ∀ id point, state.points id = some point →
    (point.flagged = true ↔ Stale before device done id)

theorem flagFor_alike (device : Option CString) (point : RefresherPoint) :
    Alike point (flagFor device point) := by
  unfold flagFor
  split
  · exact ⟨⟨rfl, rfl⟩, rfl, rfl⟩
  · exact .refl point

theorem Remaining.start (partition : Partition before)
    (apart : Apart before) (device : Option CString) :
    ∃ marked, before.markAllFlagged device = some marked ∧ Remaining before device [] marked := by
  obtain ⟨marked, isMarked, points⟩ := markAllFlagged_points partition device
  refine ⟨marked, isMarked, partition.markAllFlagged isMarked, ?_, ?_, ?_⟩
  · intro id point live
    rw [points] at live
    obtain ⟨old, isOld, rfl⟩ := map_eq_some_iff.mp live
    have monitors : (flagFor device old).monitors = old.monitors := by
      unfold flagFor
      split
      · rfl
      · rfl
    rw [monitors]
    exact apart id old isOld
  · intro id old isOld
    exact ⟨flagFor device old, by rw [points, isOld]; rfl, (flagFor_alike device old).key⟩
  · intro id point live
    rw [points] at live
    obtain ⟨old, isOld, rfl⟩ := map_eq_some_iff.mp live
    have flag : (flagFor device old).flagged = true ↔ old.flagged = true ∨
        device.all (old.clientId = ·) = true := by
      unfold flagFor
      split
      · rename_i here
        exact iff_of_true rfl (.inr here)
      · rename_i other
        exact (or_iff_left other).symm
    rw [flag]
    constructor
    · exact fun flagged => ⟨old, isOld, flagged, fun asking member => absurd member not_mem_nil⟩
    · rintro ⟨content, isContent, flagged, -⟩
      obtain rfl := some.inj (isOld.symm.trans isContent)
      exact flagged

/-- `AddMonitor` keeps one monitor for each publish point. -/
theorem addMonitor_once (once : (point.monitors.map (·.publishPoint)).Nodup) (number : UInt32)
    (para : RefresherPoint.FresherPara) :
    ((point.addMonitor number para).monitors.map (·.publishPoint)).Nodup := by
  rw [RefresherPoint.addMonitor_monitors, RefresherPoint.removeMonitor_monitors,
    RefresherPoint.eraseP_eq_filter once]
  rw [((RefresherPoint.insertMonitor_perm ..).map _).nodup_iff, map_cons, nodup_cons]
  constructor
  · intro again
    obtain ⟨other, member, same⟩ := List.mem_map.mp again
    exact of_decide_eq_true (mem_filter.mp member).2 same
  · exact once.sublist (filter_sublist.map _)

theorem stale_concat_iff {asking : Asking} :
    Stale before device (done ++ [asking]) id ↔
      Stale before device done id ∧ ∀ old, before.points id = some old → ¬asking.For old := by
  constructor
  · rintro ⟨point, live, flagged, others⟩
    refine ⟨⟨point, live, flagged, fun other member => others other (mem_append_left _ member)⟩,
      fun old isOld => ?_⟩
    obtain rfl := some.inj (live.symm.trans isOld)
    exact others asking (mem_append_right _ mem_cons_self)
  · rintro ⟨⟨point, live, flagged, others⟩, last⟩
    refine ⟨point, live, flagged, fun other member => ?_⟩
    rcases mem_append.mp member with member | member
    · exact others other member
    · obtain rfl := mem_singleton.mp member
      exact last point live

/-- A point that is asked for is not stale any longer, and no other one changes. -/
theorem Remaining.ask (remaining : Remaining before device done refresher) (asking : Asking) :
    ∃ next, ask asking refresher = some next ∧ Remaining before device (done ++ [asking]) next := by
  obtain ⟨partition, apart, same, flagged⟩ := remaining
  obtain ⟨made, id, point, number, isMade, points, clientId, resourceUrl, makes⟩ :=
    newRefresherPoint_made partition asking.agentId asking.directory asking.device
      asking.resource asking.para
  have partitionMade := partition.newRefresherPoint isMade
  have here : made.points id = some (point.addMonitor number asking.para) := by
    rw [points, update_self]
  have key := (addMonitor_alike number asking.para point).key
  have others : ∀ other, other ≠ id → made.points other = refresher.points other := by
    intro other different
    rw [points, update_of_ne different]
  have onlyHere : ∀ other content, made.points other = some content → asking.For content →
      other = id := by
    intro other content isContent asked
    exact partitionMade.distinct other id content _ isContent here
      (asked.1.trans (key.clientId.trans clientId).symm)
      (asked.2.trans (key.resourceUrl.trans resourceUrl).symm)
  have kept : ∀ other old, before.points other = some old → ∃ content,
      made.points other = some content ∧ SameKey old content := by
    intro other old isOld
    obtain ⟨content, isContent, sameKey⟩ := same other old isOld
    by_cases hit : other = id
    · subst hit
      refine ⟨_, here, ?_⟩
      cases makes with
      | found live =>
        obtain rfl := some.inj (live.symm.trans isContent)
        exact ⟨key.clientId.trans sameKey.clientId, key.resourceUrl.trans sameKey.resourceUrl⟩
      | active _ _ absent =>
        rw [absent] at isContent
        cases isContent
      | waits _ _ absent =>
        rw [absent] at isContent
        cases isContent
    · exact ⟨content, (others other hit).trans isContent, sameKey⟩
  refine ⟨made, isMade, partitionMade, ?_, kept, ?_⟩
  · intro other content isContent
    by_cases hit : other = id
    · subst hit
      obtain rfl := some.inj (here.symm.trans isContent)
      refine addMonitor_once ?_ number asking.para
      cases makes with
      | found live => exact apart other point live
      | active _ _ _ bare =>
        rw [bare]
        exact nodup_nil
      | waits _ _ _ bare =>
        rw [bare]
        exact nodup_nil
    · rw [others other hit] at isContent
      exact apart other content isContent
  · intro other content isContent
    rw [stale_concat_iff]
    by_cases hit : other = id
    · subst hit
      obtain rfl := some.inj (here.symm.trans isContent)
      refine iff_of_false (fun flag => Bool.false_ne_true flag) ?_
      rintro ⟨⟨old, isOld, -⟩, last⟩
      obtain ⟨content, isContent, sameKey⟩ := kept other old isOld
      obtain rfl := some.inj (here.symm.trans isContent)
      apply last old isOld
      exact ⟨sameKey.clientId.symm.trans (key.clientId.trans clientId),
        sameKey.resourceUrl.symm.trans (key.resourceUrl.trans resourceUrl)⟩
    · rw [flagged other content ((others other hit).symm.trans isContent)]
      refine (and_iff_left ?_).symm
      intro old isOld asked
      obtain ⟨found, isFound, sameKey⟩ := kept other old isOld
      exact hit (onlyHere other found isFound ⟨sameKey.clientId.trans asked.1,
        sameKey.resourceUrl.trans asked.2⟩)

theorem Remaining.askAll (remaining : Remaining before device done refresher) (rest : List Asking) :
    ∃ asked, runAll Refresher.ask rest refresher = some asked ∧
    Remaining before device (done ++ rest) asked := by
  induction rest generalizing done refresher with
  | nil => exact ⟨refresher, rfl, by rwa [append_nil]⟩
  | cons asking rest ih =>
    obtain ⟨next, asks, onward⟩ := remaining.ask asking
    obtain ⟨asked, ran, reached⟩ := ih onward
    refine ⟨asked, ?_, ?_⟩
    · rw [runAll, asks]
      exact ran
    · rwa [append_assoc] at reached

end Flags

/-! ## Removing -/

section Removing

variable {refresher next before asked : Refresher} {id : Nat} {point left : RefresherPoint}
  {purl : CString} {device : Option CString}
  {askings : List Asking}

/-- What `RemoveAllFlagged` is to leave of a point. -/
def purge (purl : CString) (point : RefresherPoint) : Option RefresherPoint :=
  if point.flagged then if (unflag purl point).monitors = [] then none
    else some (unflag purl point) else some point

theorem unflag_monitors (once : (point.monitors.map (·.publishPoint)).Nodup) :
    (unflag purl point).monitors = point.monitors.filter (·.publishPoint ≠ purl) := by
  rw [unflag, RefresherPoint.removeMonitor_monitors]
  exact RefresherPoint.eraseP_eq_filter once

theorem unflag_flagged (purl : CString) (point : RefresherPoint) :
    (unflag purl point).flagged = false := by
  rw [unflag, RefresherPoint.removeMonitor]
  split
  · rfl
  · rfl

theorem purge_flagged (purged : purge purl point = some left) : left.flagged = false := by
  unfold purge at purged
  split at purged
  · split at purged
    · cases purged
    · rw [← some.inj purged]
      exact unflag_flagged purl point
  · rename_i unflagged
    rw [← some.inj purged]
    exact Bool.not_eq_true _ ▸ unflagged

/-- A point stays exactly where it is not flagged or has a monitor for another publish point. -/
theorem purge_isSome_iff (once : (point.monitors.map (·.publishPoint)).Nodup) :
    (purge purl point).isSome ↔
    (point.flagged = true → ∃ monitor ∈ point.monitors, monitor.publishPoint ≠ purl) := by
  unfold purge
  rw [unflag_monitors once]
  split
  · rename_i flagged
    rw [forall_prop_of_true flagged]
    split
    · rename_i empty
      refine iff_of_false Bool.false_ne_true ?_
      rintro ⟨monitor, member, other⟩
      exact filter_eq_nil_iff.mp empty monitor member (decide_eq_true other)
    · rename_i nonempty
      refine iff_of_true rfl ?_
      obtain ⟨monitor, member⟩ := exists_mem_of_ne_nil _ nonempty
      obtain ⟨member, other⟩ := mem_filter.mp member
      exact ⟨monitor, member, of_decide_eq_true other⟩
  · rename_i unflagged
    exact iff_of_true rfl fun flagged => absurd flagged unflagged

/-- One round over the active list. -/
theorem removeFlagged_some (once : refresher.expiredResList.Nodup)
    (live : refresher.points id = some point)
    (removed : removeFlagged purl refresher id = some next) :
    next.points = update refresher.points id (purge purl point) ∧
    next.expiredResList = if (purge purl point).isSome then refresher.expiredResList
    else refresher.expiredResList.erase id := by
  rw [removeFlagged_eq purl once live] at removed
  obtain rfl := some.inj removed
  unfold purge
  by_cases flagged : point.flagged = true
  · rw [if_pos flagged, if_pos flagged]
    by_cases empty : (unflag purl point).monitors = []
    · rw [if_pos empty, if_pos empty]
      exact ⟨rfl, rfl⟩
    · rw [if_neg empty, if_neg empty]
      exact ⟨rfl, rfl⟩
  · rw [if_neg flagged, if_neg flagged]
    refine ⟨?_, rfl⟩
    rw [← live, update_eq_self]

/-- The walk over the active list, with the points still to come. -/
structure Purging (purl : CString) (before : Refresher) (rest : List Nat)
    (state : Refresher) : Prop where
  walks : Walks expiredResList rest state
  waiting : state.waitingList = before.waitingList
  points : ∀ id, state.points id = if id ∈ before.expiredResList ∧ id ∉ rest then
    (before.points id).bind (purge purl) else before.points id
  inside : ∀ id ∈ rest, id ∈ before.expiredResList
  expired : state.expiredResList = before.expiredResList.filter fun id => (state.points id).isSome

theorem Purging.step {rest : List Nat} (purging : Purging purl before (id :: rest) refresher)
    (once : before.expiredResList.Nodup) :
    ∃ next, removeFlagged purl refresher id = some next ∧ Purging purl before rest next := by
  obtain ⟨walks, waiting, points, inside, expired⟩ := purging
  obtain ⟨next, removed, onward, sameWaiting, others⟩ := removeFlagged_walks purl walks
  obtain ⟨point, live, -⟩ := (walks.partition.expired id).mp (walks.listed id mem_cons_self)
  obtain ⟨here, list⟩ := removeFlagged_some walks.partition.expiredOnce live removed
  have fresh : id ∉ rest := (nodup_cons.mp walks.once).1
  have old : before.points id = some point := by
    rw [points, if_neg (fun far => far.2 mem_cons_self)] at live
    exact live
  have isHere : next.points id = purge purl point := by rw [here, update_self]
  refine ⟨next, removed, onward, sameWaiting.trans waiting, fun other => ?_,
    fun other member => inside other (mem_cons_of_mem _ member), ?_⟩
  · by_cases same : other = id
    · rw [same, isHere, if_pos ⟨inside id mem_cons_self, fresh⟩, old, bind_some]
    · rw [others other same, points]
      simp only [mem_cons, same, false_or]
  · rw [list, expired]
    cases purged : purge purl point with
    | some left =>
      refine filter_congr fun other _ => ?_
      by_cases same : other = id
      · rw [same, live, isHere, purged]
        rfl
      · rw [others other same]
    | none =>
      show (before.expiredResList.filter fun id => (refresher.points id).isSome).erase id = _
      rw [← filter_ne_eq_erase (once.filter _), List.filter_filter]
      refine filter_congr fun other _ => ?_
      by_cases same : other = id
      · rw [same, isHere, purged]
        simp
      · rw [others other same]
        simp [same]

/-- The walk over the active list does its work. -/
theorem purging_total (partition : Partition asked) (purl : CString) :
    ∃ midway, asked.expiredResList.foldlM (removeFlagged purl) asked = some midway ∧
    Purging purl asked [] midway := by
  refine foldlM_total (Purging purl asked) (fun purging => purging.step partition.expiredOnce) ?_
  refine ⟨⟨partition, partition.expiredOnce, fun _ member => member⟩, rfl, fun id => ?_,
    fun _ member => member, ?_⟩
  · exact (if_neg fun far => far.2 far.1).symm
  · symm
    apply filter_eq_self.mpr
    intro id member
    obtain ⟨point, live⟩ := partition.lives id member
    rw [live]
    rfl

/-- What the walk over the waiting list does where it has a result: it visits every other point. -/
structure WaitingWalk (purl : CString) (list : List Nat) (refresher next : Refresher) : Prop where
  even : list.length % 2 = 0
  expired : next.expiredResList = refresher.expiredResList
  waiting : next.waitingList = refresher.waitingList
  others : ∀ id, id ∉ list → next.points id = refresher.points id
  visited : ∀ index id, index % 2 = 0 → list[index]? = some id →
    next.points id = (refresher.points id).bind (purge purl) ∧ (next.points id).isSome
  skipped : ∀ index id, index % 2 = 1 → list[index]? = some id →
    next.points id = refresher.points id

/-- One round over the waiting list. -/
theorem removeFlaggedWaiting_cons {skipped : Nat} {rest : List Nat}
    (removed : removeFlaggedWaiting purl (id :: skipped :: rest) refresher = some next) :
    ∃ point left, refresher.points id = some point ∧ purge purl point = some left ∧
      removeFlaggedWaiting purl rest (setPoint id left refresher) = some next := by
  obtain ⟨point, live, removed⟩ := bind_eq_some_iff.mp removed
  unfold purge
  split at removed
  · rename_i flagged
    simp only at removed
    split at removed
    · cases removed
    · rename_i nonempty
      exact ⟨point, unflag purl point, live, by rw [if_pos flagged, if_neg nonempty], removed⟩
  · rename_i unflagged
    refine ⟨point, point, live, if_neg unflagged, ?_⟩
    rwa [setPoint, ← live, update_eq_self]

theorem waitingWalk_of_some : ∀ {list : List Nat} {refresher : Refresher}, list.Nodup →
    removeFlaggedWaiting purl list refresher = some next → WaitingWalk purl list refresher next
  | [], refresher, _, removed => by
      obtain rfl := some.inj removed
      refine ⟨rfl, rfl, rfl, fun _ _ => rfl, ?_, ?_⟩
      · intro index id _ listed
        cases listed
      · intro index id _ listed
        cases listed
  | [_], _, _, removed => by cases removed
  | first :: second :: rest, refresher, once, removed => by
      obtain ⟨point, left, live, purged, removed⟩ := removeFlaggedWaiting_cons removed
      obtain ⟨firstAlone, once⟩ := nodup_cons.mp once
      obtain ⟨secondAlone, once⟩ := nodup_cons.mp once
      obtain ⟨firstSecond, firstRest⟩ := not_or.mp (mem_cons.not.mp firstAlone)
      have later := waitingWalk_of_some once removed
      have same : ∀ id, id ≠ first →
          (setPoint first left refresher).points id = refresher.points id :=
        fun id different => update_of_ne different ..
      have inRest : ∀ {index id : Nat}, rest[index]? = some id → id ≠ first := by
        rintro index id listed rfl
        exact firstRest (mem_of_getElem? listed)
      refine ⟨by have even := later.even; simp only [length_cons]; omega, later.expired,
        later.waiting, ?_, ?_, ?_⟩
      · intro id outside
        obtain ⟨notFirst, outside⟩ := not_or.mp (mem_cons.not.mp outside)
        rw [later.others id fun member => outside (mem_cons_of_mem _ member), same id notFirst]
      · intro index id even listed
        rcases index with _ | _ | index
        · obtain rfl := some.inj listed
          rw [later.others first firstRest, setPoint_here, live, bind_some, purged]
          exact ⟨rfl, rfl⟩
        · cases even
        · obtain ⟨points, stays⟩ := later.visited index id (by omega) listed
          exact ⟨by rw [points, same id (inRest listed)], stays⟩
      · intro index id odd listed
        rcases index with _ | _ | index
        · cases odd
        · obtain rfl := some.inj listed
          rw [later.others second secondAlone, same second (Ne.symm firstSecond)]
        · rw [later.skipped index id (by omega) listed, same id (inRest listed)]

/-- Both walks, point by point. -/
theorem removeAllFlagged_some (partition : Partition asked)
    (removed : asked.removeAllFlagged purl = some next) :
    ∃ midway, Purging purl asked [] midway ∧ WaitingWalk purl asked.waitingList midway next ∧
    (∀ id ∈ asked.waitingList, midway.points id = asked.points id) ∧
    ∀ id ∈ asked.expiredResList, next.points id = (asked.points id).bind (purge purl) := by
  obtain ⟨midway, walked, purging⟩ := purging_total partition purl
  rw [removeAllFlagged, walked] at removed
  have removed : removeFlaggedWaiting purl midway.waitingList midway = some next := removed
  rw [purging.waiting] at removed
  have walk := waitingWalk_of_some partition.waitingOnce removed
  have disjoint : ∀ id ∈ asked.expiredResList, id ∉ asked.waitingList := by
    intro id active waits
    obtain ⟨point, live, awake⟩ := (partition.expired id).mp active
    rw [partition.mem_waiting live, awake] at waits
    cases waits
  refine ⟨midway, purging, walk, fun id waits => ?_, fun id active => ?_⟩
  · rw [purging.points, if_neg fun far => disjoint id far.1 waits]
  · rw [walk.others id (disjoint id active), purging.points, if_pos ⟨active, not_mem_nil⟩]

/-- Where no flagged point is skipped, every point is purged. -/
theorem purged_of_sparing (partition : Partition asked)
    (removed : asked.removeAllFlagged purl = some next) (unskipped : ∀ index id point,
      index % 2 = 1 → asked.waitingList[index]? = some id → asked.points id = some point →
      point.flagged = false) (id : Nat) : next.points id = (asked.points id).bind (purge purl) := by
  obtain ⟨midway, purging, walk, waits, actives⟩ := removeAllFlagged_some partition removed
  cases live : asked.points id with
  | none =>
    have outside : id ∉ asked.waitingList := by
      rw [partition.waiting, live, exists_none_iff]
      exact not_false
    have inactive : id ∉ asked.expiredResList := by
      rw [partition.expired, live, exists_none_iff]
      exact not_false
    rw [walk.others id outside, purging.points, if_neg fun far => inactive far.1, live]
    rfl
  | some point =>
    rw [← live]
    cases state : point.waiting with
    | false => exact actives id ((partition.mem_expired live).mpr state)
    | true =>
      have member := (partition.mem_waiting live).mpr state
      obtain ⟨index, listed⟩ := List.getElem?_of_mem member
      rcases Nat.mod_two_eq_zero_or_one index with even | odd
      · rw [(walk.visited index id even listed).1, waits id member]
      · have unflagged := unskipped index id point odd listed live
        rw [walk.skipped index id odd listed, waits id member, live, bind_some, purge,
          if_neg (by rw [unflagged]; exact Bool.false_ne_true)]

/-- `RemoveAllFlagged` removes what is stale exactly where the waiting points are spared. -/
theorem Remaining.reloaded_iff (remaining : Remaining before device askings asked)
    (purl : CString) : (∃ next, asked.removeAllFlagged purl = some next ∧
      Reloaded (Stale before device askings) purl asked next) ↔
    Sparing (Stale before device askings) purl asked := by
  obtain ⟨partition, apart, -, flagged⟩ := remaining
  constructor
  · rintro ⟨next, removed, reloaded⟩
    obtain ⟨midway, purging, walk, waits, -⟩ := removeAllFlagged_some partition removed
    refine ⟨walk.even, fun index id point listed live stale => ?_⟩
    have member := mem_of_getElem? listed
    have flag := (flagged id point live).mpr stale
    rcases Nat.mod_two_eq_zero_or_one index with even | odd
    · obtain ⟨points, stays⟩ := walk.visited index id even listed
      rw [points, waits id member, live, bind_some, purge_isSome_iff (apart id point live)] at stays
      exact ⟨even, stays flag⟩
    · -- A point that was skipped still has its flag.
      have skipped : next.points id = some point := by
        rw [walk.skipped index id odd listed, waits id member, live]
      rw [reloaded.unflagged id point skipped] at flag
      cases flag
  · rintro ⟨even, spared⟩
    have spares : SparesWaiting asked (.removeAllFlagged purl) := by
      refine ⟨even, fun index id point _ listed live flag => ?_⟩
      obtain ⟨-, monitor, member, other⟩ :=
        spared index id point listed live ((flagged id point live).mp flag)
      rw [unflag_monitors (apart id point live)]
      exact ne_nil_of_mem (mem_filter.mpr ⟨member, decide_eq_true other⟩)
    obtain ⟨next, removed⟩ := removeAllFlagged_total partition spares
    have purged := purged_of_sparing partition removed fun index id point odd listed live => by
      by_contra flag
      obtain ⟨even, -⟩ :=
        spared index id point listed live ((flagged id point live).mp (Bool.not_eq_false _ ▸ flag))
      omega
    obtain ⟨midway, purging, walk, waits, actives⟩ := removeAllFlagged_some partition removed
    refine ⟨next, removed, ?_, ?_, ?_, ?_, ?_, ?_, ?_⟩
    · intro id point live stale monitor member
      rw [purged id] at live
      obtain ⟨old, isOld, left⟩ := bind_eq_some_iff.mp live
      rw [purge, if_pos ((flagged id old isOld).mpr stale)] at left
      split at left
      · cases left
      · obtain rfl := some.inj left
        rw [unflag_monitors (apart id old isOld)] at member
        exact of_decide_eq_true (mem_filter.mp member).2
    · intro id point live stale only
      rw [purged id, live, bind_some, purge, if_pos ((flagged id point live).mpr stale), if_pos]
      rw [unflag_monitors (apart id point live)]
      exact filter_eq_nil_iff.mpr fun monitor member other => of_decide_eq_true other
        (only monitor member)
    · intro id fresh
      rw [purged id]
      cases live : asked.points id with
      | none => rfl
      | some point => exact if_neg fun flag => fresh ((flagged id point live).mp flag)
    · intro id point live stale monitor member other
      have stays : monitor ∈ (unflag purl point).monitors := by
        rw [unflag_monitors (apart id point live)]
        exact mem_filter.mpr ⟨member, decide_eq_true other⟩
      refine ⟨unflag purl point, ?_, stays⟩
      rw [purged id, live, bind_some, purge, if_pos ((flagged id point live).mpr stale),
        if_neg (ne_nil_of_mem stays)]
    · rw [walk.expired, purging.expired]
      refine filter_congr fun id member => ?_
      rw [actives id member, purging.points, if_pos ⟨member, not_mem_nil⟩]
    · rw [walk.waiting, purging.waiting]
      symm
      apply filter_eq_self.mpr
      intro id member
      obtain ⟨point, live⟩ := partition.livesWaiting id member
      rw [purged id, live, bind_some, purge_isSome_iff (apart id point live)]
      intro flag
      obtain ⟨index, listed⟩ := List.getElem?_of_mem member
      exact (spared index id point listed live ((flagged id point live).mp flag)).2
    · intro id point live
      rw [purged id] at live
      obtain ⟨old, -, left⟩ := bind_eq_some_iff.mp live
      exact purge_flagged left

end Removing

/-- In every state whose lists divide the live points and whose points have one monitor for each
publish point: whatever is asked for between `MarkAllFlagged` and `RemoveAllFlagged`, the latter
removes what was not asked for, and nothing else, exactly where the number of waiting points is even
and every stale one stands at an even place and has a monitor for another publish point. -/
theorem reloaded_iff_sparing {before : Refresher} (partition : Partition before)
    (apart : Apart before) (device : Option CString) (askings : List Asking) (purl : CString) :
    ∃ marked asked, before.markAllFlagged device = some marked ∧
    runAll ask askings marked = some asked ∧ ((∃ next, asked.removeAllFlagged purl = some next ∧
      Reloaded (Stale before device askings) purl asked next) ↔
      Sparing (Stale before device askings) purl asked) := by
  obtain ⟨marked, isMarked, flagged⟩ := Remaining.start partition apart device
  obtain ⟨asked, ran, remaining⟩ := flagged.askAll askings
  exact ⟨marked, asked, isMarked, ran, remaining.reloaded_iff purl⟩

/-- A resource of the device `"d"` is asked for by a publish point. -/
def askingD (directory : Directory) (resource : CString) (purl : UInt8) : Asking :=
  ⟨none, directory, deviceD, resource, ⟨.ofBytes [purl], 30, false, 0⟩⟩

/-- The device is known; the new configuration asks for one of its two resources. -/
theorem reloaded_iff_sparing_known : ∃ before marked asked next,
    runAll ask [askingD directoryD resourceR 0x70, askingD directoryD resourceS 0x70] start =
      some before ∧ before.markAllFlagged (some deviceD) = some marked ∧
    runAll ask [askingD directoryD resourceR 0x70] marked = some asked ∧
    asked.removeAllFlagged purlP = some next ∧
    Reloaded (Stale before (some deviceD) [askingD directoryD resourceR 0x70]) purlP asked next ∧
    next.expiredResList = [0] := by
  obtain ⟨before, isBefore, partition, apart⟩ : ∃ before,
      runAll ask [askingD directoryD resourceR 0x70,
      askingD directoryD resourceS 0x70] start = some before ∧ Partition before ∧ Apart before := by
    refine ⟨_, rfl, ?_, ?_⟩
    · have ran : runAll ask [askingD directoryD resourceR 0x70,
        askingD directoryD resourceS 0x70] start = some _ := rfl
      exact runAll_keeps Partition.newRefresherPoint ran Partition.start
    · intro id point live
      rcases id with _ | _ | id
      · obtain rfl := some.inj live
        decide
      · obtain rfl := some.inj live
        decide
      · cases live
  obtain ⟨marked, asked, isMarked, ran, sparing⟩ :=
    reloaded_iff_sparing partition apart (some deviceD) [askingD directoryD resourceR 0x70] purlP
  cases isBefore
  cases isMarked
  cases ran
  obtain ⟨next, removed, reloaded⟩ :=
    sparing.mpr ⟨rfl, fun index id point listed => by cases listed⟩
  refine ⟨_, _, _, next, rfl, rfl, rfl, removed, reloaded, ?_⟩
  cases removed
  rfl

/-- The device is not known. With one waiting point the walk runs past the end; with two the second
one keeps its monitor and its flag. -/
theorem reloaded_waiting_fails :
    (∃ before marked, ask (askingD .start resourceR 0x70) start = some before ∧
      before.markAllFlagged (some deviceD) = some marked ∧ marked.removeAllFlagged purlP = none) ∧
    ∃ before marked next point,
    runAll ask [askingD .start resourceR 0x71, askingD .start resourceS 0x70] start = some before ∧
    before.markAllFlagged (some deviceD) = some marked ∧ marked.removeAllFlagged purlP = some next ∧
    next.points 1 = some point ∧ point.flagged = true ∧
    point.monitors.map (·.publishPoint) = [purlP] :=
  ⟨⟨_, _, rfl, rfl, rfl⟩, _, _, _, _, rfl, rfl, rfl, rfl, rfl, rfl⟩

end Refresher

end Idrm.Devices
