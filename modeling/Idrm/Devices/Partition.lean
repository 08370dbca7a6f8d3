import Idrm.Devices.Refresher

/-!
# The two lists of refresher points

Every live point stands in one of the two lists, the one its flag names, and no address in
the lists is that of a destroyed point. The operations keep it so except for two that
destroy waiting points: `DelRefresherPoint` leaves the address in the waiting list, and
`RemoveAllFlagged` takes its iterator for one of the active list.
-/

namespace Idrm.Devices

open Idrm.Lib Function Option List

namespace Refresher

/-- The lists divide the live points, and no two points read one resource of one device. -/
structure Divided (refresher : Refresher) : Prop where
  active : ∀ id point, refresher.points id = some point → point.waiting = false →
    refresher.expiredResList.count id = 1 ∧ refresher.waitingList.count id = 0
  waiting : ∀ id point, refresher.points id = some point → point.waiting = true →
    refresher.expiredResList.count id = 0 ∧ refresher.waitingList.count id = 1
  live : ∀ id ∈ refresher.expiredResList ++ refresher.waitingList, (refresher.points id).isSome
  distinct : ∀ one other onePoint otherPoint, refresher.points one = some onePoint →
    refresher.points other = some otherPoint → onePoint.clientId = otherPoint.clientId →
    onePoint.resourceUrl = otherPoint.resourceUrl → one = other

/-- No waiting point is destroyed: `DelRefresherPoint` does not take the last monitor of
one, and `RemoveAllFlagged` meets a waiting list of even length in which no flagged point
that its walk visits has its last monitor for `purl`. -/
def SparesWaiting (refresher : Refresher) : RefresherEvent → Prop
  | .delRefresherPoint device resource purl => ∀ id point, refresher.points id = some point →
      point.waiting = true → point.clientId = device → point.resourceUrl = resource →
      (point.removeMonitor purl).monitors ≠ []
  | .removeAllFlagged purl => refresher.waitingList.length % 2 = 0 ∧ ∀ index id point,
      index % 2 = 0 → refresher.waitingList[index]? = some id → refresher.points id = some point →
      point.flagged = true → (unflag purl point).monitors ≠ []
  | _ => True

/-- The invariant, with lists as sets of addresses. -/
structure Partition (refresher : Refresher) : Prop where
  expiredOnce : refresher.expiredResList.Nodup
  waitingOnce : refresher.waitingList.Nodup
  expired : ∀ id, id ∈ refresher.expiredResList ↔
    ∃ point, refresher.points id = some point ∧ point.waiting = false
  waiting : ∀ id, id ∈ refresher.waitingList ↔
    ∃ point, refresher.points id = some point ∧ point.waiting = true
  fresh : ∀ id point, refresher.points id = some point → id < refresher.newPoint
  parent : ∀ id point, refresher.points id = some point → point.waiting = false →
    point.hasParent = true
  distinct : ∀ one other onePoint otherPoint, refresher.points one = some onePoint →
    refresher.points other = some otherPoint → onePoint.clientId = otherPoint.clientId →
    onePoint.resourceUrl = otherPoint.resourceUrl → one = other

section Partition

variable {refresher next : Refresher} {id : Nat} {old new : RefresherPoint}

theorem start_points (id : Nat) : Refresher.start.points id = none := rfl

/-- Two empty lists divide no points. -/
theorem Partition.start : Partition Refresher.start := by
  refine ⟨.nil, .nil, ?_, ?_, ?_, ?_, ?_⟩
  · intro id
    simp [Refresher.start]
  · intro id
    simp [Refresher.start]
  · intro id point live
    cases (start_points id).symm.trans live
  · intro id point live
    cases (start_points id).symm.trans live
  · intro one other onePoint otherPoint live
    cases (start_points one).symm.trans live

theorem Partition.divided (partition : Partition refresher) : Divided refresher := by
  refine ⟨?_, ?_, ?_, partition.distinct⟩
  · intro id point live active
    have listed := (partition.expired id).mpr ⟨point, live, active⟩
    refine ⟨count_eq_one_of_mem partition.expiredOnce listed, count_eq_zero.mpr fun waiting => ?_⟩
    obtain ⟨other, otherLive, otherWaiting⟩ := (partition.waiting id).mp waiting
    obtain rfl := some.inj (live.symm.trans otherLive)
    rw [active] at otherWaiting
    cases otherWaiting
  · intro id point live waiting
    have listed := (partition.waiting id).mpr ⟨point, live, waiting⟩
    refine ⟨count_eq_zero.mpr fun active => ?_, count_eq_one_of_mem partition.waitingOnce listed⟩
    obtain ⟨other, otherLive, otherActive⟩ := (partition.expired id).mp active
    obtain rfl := some.inj (live.symm.trans otherLive)
    rw [waiting] at otherActive
    cases otherActive
  · intro id member
    rcases mem_append.mp member with active | waiting
    · obtain ⟨point, live, _⟩ := (partition.expired id).mp active
      rw [live]
      rfl
    · obtain ⟨point, live, _⟩ := (partition.waiting id).mp waiting
      rw [live]
      rfl

/-- Two points of one kind of key are one. -/
structure SameKey (old new : RefresherPoint) : Prop where
  clientId : new.clientId = old.clientId
  resourceUrl : new.resourceUrl = old.resourceUrl

/-- One address gets another content, or none, and the lists follow. -/
theorem Partition.put {content : Option RefresherPoint} (partition : Partition refresher)
    (points : next.points = update refresher.points id content)
    (newPoint : refresher.newPoint ≤ next.newPoint) (inside : content.isSome → id < next.newPoint)
    (expiredOnce : next.expiredResList.Nodup) (waitingOnce : next.waitingList.Nodup)
    (expiredOthers : ∀ other, other ≠ id →
      (other ∈ next.expiredResList ↔ other ∈ refresher.expiredResList)) (waitingOthers : ∀ other,
      other ≠ id → (other ∈ next.waitingList ↔ other ∈ refresher.waitingList))
    (expiredHere : id ∈ next.expiredResList ↔ ∃ point, content = some point ∧ point.waiting = false)
    (waitingHere : id ∈ next.waitingList ↔ ∃ point, content = some point ∧ point.waiting = true)
    (parentHere : ∀ point, content = some point → point.waiting = false → point.hasParent = true)
    (distinctHere : ∀ point other otherPoint, content = some point → other ≠ id →
      refresher.points other = some otherPoint → ¬SameKey otherPoint point) : Partition next := by
  have here : next.points id = content := by rw [points, update_self]
  have others : ∀ other, other ≠ id → next.points other = refresher.points other := by
    intro other different
    rw [points, update_of_ne different]
  refine ⟨expiredOnce, waitingOnce, ?_, ?_, ?_, ?_, ?_⟩
  · intro other
    by_cases same : other = id
    · rw [same, here]
      exact expiredHere
    · rw [others other same, expiredOthers other same]
      exact partition.expired other
  · intro other
    by_cases same : other = id
    · rw [same, here]
      exact waitingHere
    · rw [others other same, waitingOthers other same]
      exact partition.waiting other
  · intro other point live
    by_cases same : other = id
    · rw [same, here] at live
      rw [same]
      exact inside (live ▸ rfl)
    · rw [others other same] at live
      exact (partition.fresh other point live).trans_le newPoint
  · intro other point live active
    by_cases same : other = id
    · rw [same, here] at live
      exact parentHere point live active
    · rw [others other same] at live
      exact partition.parent other point live active
  · intro one other onePoint otherPoint oneLive otherLive clientId resourceUrl
    by_cases oneHere : one = id
    · by_cases otherHere : other = id
      · rw [oneHere, otherHere]
      · rw [oneHere, here] at oneLive
        rw [others other otherHere] at otherLive
        exact absurd ⟨clientId, resourceUrl⟩
          (distinctHere onePoint other otherPoint oneLive otherHere otherLive)
    · rw [others one oneHere] at oneLive
      by_cases otherHere : other = id
      · rw [otherHere, here] at otherLive
        exact absurd ⟨clientId.symm, resourceUrl.symm⟩
          (distinctHere otherPoint one onePoint otherLive oneHere oneLive)
      · rw [others other otherHere] at otherLive
        exact partition.distinct one other onePoint otherPoint oneLive otherLive
          clientId resourceUrl

/-- A point keeps its key; no other point has it. -/
theorem Partition.sameKey (partition : Partition refresher) (live : refresher.points id = some old)
    (key : SameKey old new) : ∀ point other otherPoint, some new = some point → other ≠ id →
      refresher.points other = some otherPoint → ¬SameKey otherPoint point := by
  rintro _ other otherPoint ⟨⟩ different otherLive same
  exact different (partition.distinct other id otherPoint old otherLive live
    (same.clientId.symm.trans key.clientId) (same.resourceUrl.symm.trans key.resourceUrl))

/-- The points that do not wait are in the active list. -/
theorem Partition.mem_expired (partition : Partition refresher)
    (live : refresher.points id = some old) :
    id ∈ refresher.expiredResList ↔ old.waiting = false := by
  rw [partition.expired id, live]
  exact ⟨fun ⟨_, same, active⟩ => some.inj same ▸ active, fun active => ⟨old, rfl, active⟩⟩

/-- The others are in the waiting list. -/
theorem Partition.mem_waiting (partition : Partition refresher)
    (live : refresher.points id = some old) : id ∈ refresher.waitingList ↔ old.waiting = true := by
  rw [partition.waiting id, live]
  exact ⟨fun ⟨_, same, waiting⟩ => some.inj same ▸ waiting, fun waiting => ⟨old, rfl, waiting⟩⟩

theorem exists_some_iff {α : Type} {value : α} {holds : α → Prop} :
    (∃ other, some value = some other ∧ holds other) ↔ holds value :=
  ⟨fun ⟨_, same, holds⟩ => some.inj same ▸ holds, fun holds => ⟨value, rfl, holds⟩⟩

theorem exists_none_iff {α : Type} {holds : α → Prop} :
    (∃ other, none = some other ∧ holds other) ↔ False :=
  iff_false_intro fun ⟨_, absent, _⟩ => nomatch absent

/-- A point changes and stays in its list; the active list may be put in another order. -/
theorem Partition.change (partition : Partition refresher) (live : refresher.points id = some old)
    (points : next.points = update refresher.points id (some new)) (key : SameKey old new)
    (waiting : new.waiting = old.waiting) (parent : new.waiting = false → new.hasParent = true)
    (expired : next.expiredResList.Perm refresher.expiredResList)
    (waitingList : next.waitingList = refresher.waitingList)
    (newPoint : next.newPoint = refresher.newPoint) : Partition next := by
  refine partition.put points newPoint.ge (fun _ => newPoint ▸ partition.fresh id old live)
    (expired.nodup_iff.mpr partition.expiredOnce) (waitingList ▸ partition.waitingOnce)
    (fun _ _ => expired.mem_iff) (fun _ _ => waitingList ▸ Iff.rfl) ?_ ?_ ?_
    (partition.sameKey live key)
  · rw [expired.mem_iff, partition.mem_expired live, exists_some_iff, waiting]
  · rw [waitingList, partition.mem_waiting live, exists_some_iff, waiting]
  · rintro _ ⟨⟩
    exact parent

/-- A waiting point goes to the active list. -/
theorem Partition.wake (partition : Partition refresher) (live : refresher.points id = some old)
    (points : next.points = update refresher.points id (some new)) (key : SameKey old new)
    (waits : old.waiting = true) (wakes : new.waiting = false) (parent : new.hasParent = true)
    (expired : next.expiredResList.Perm (id :: refresher.expiredResList))
    (waitingList : next.waitingList = refresher.waitingList.erase id)
    (newPoint : next.newPoint = refresher.newPoint) : Partition next := by
  have notActive : id ∉ refresher.expiredResList := by
    rw [partition.mem_expired live, waits]
    exact nofun
  refine partition.put points newPoint.ge (fun _ => newPoint ▸ partition.fresh id old live)
    (expired.nodup_iff.mpr (nodup_cons.mpr ⟨notActive, partition.expiredOnce⟩))
    (waitingList ▸ partition.waitingOnce.erase id) ?_ ?_ ?_ ?_ ?_ (partition.sameKey live key)
  · intro other different
    rw [expired.mem_iff, mem_cons, or_iff_right different]
  · intro other different
    rw [waitingList, mem_erase_of_ne different]
  · rw [expired.mem_iff, exists_some_iff]
    exact ⟨fun _ => wakes, fun _ => mem_cons_self⟩
  · rw [waitingList, exists_some_iff, wakes]
    exact ⟨fun member => absurd member partition.waitingOnce.not_mem_erase, nofun⟩
  · rintro _ ⟨⟩ _
    exact parent

/-- An active point goes to the waiting list. -/
theorem Partition.sleep (partition : Partition refresher) (live : refresher.points id = some old)
    (points : next.points = update refresher.points id (some new)) (key : SameKey old new)
    (active : old.waiting = false) (sleeps : new.waiting = true)
    (expired : next.expiredResList = refresher.expiredResList.erase id)
    (waitingList : next.waitingList = refresher.waitingList ++ [id])
    (newPoint : next.newPoint = refresher.newPoint) : Partition next := by
  have notWaiting : id ∉ refresher.waitingList := by
    rw [partition.mem_waiting live, active]
    exact nofun
  refine partition.put points newPoint.ge (fun _ => newPoint ▸ partition.fresh id old live)
    (expired ▸ partition.expiredOnce.erase id) ?_ ?_ ?_ ?_ ?_ ?_ (partition.sameKey live key)
  · rw [waitingList]
    exact (perm_append_singleton id _).nodup_iff.mpr
      (nodup_cons.mpr ⟨notWaiting, partition.waitingOnce⟩)
  · intro other different
    rw [expired, mem_erase_of_ne different]
  · intro other different
    rw [waitingList, mem_append, mem_singleton, or_iff_left different]
  · rw [expired, exists_some_iff, sleeps]
    exact ⟨fun member => absurd member partition.expiredOnce.not_mem_erase, nofun⟩
  · rw [waitingList, exists_some_iff]
    exact ⟨fun _ => sleeps, fun _ => mem_append_right _ mem_cons_self⟩
  · rintro _ ⟨⟩ awake
    rw [sleeps] at awake
    cases awake

/-- An active point is destroyed. -/
theorem Partition.remove (partition : Partition refresher) (live : refresher.points id = some old)
    (active : old.waiting = false) (points : next.points = update refresher.points id none)
    (expired : next.expiredResList = refresher.expiredResList.erase id)
    (waitingList : next.waitingList = refresher.waitingList)
    (newPoint : next.newPoint = refresher.newPoint) : Partition next := by
  have notWaiting : id ∉ refresher.waitingList := by
    rw [partition.mem_waiting live, active]
    exact nofun
  refine partition.put points newPoint.ge (fun live => Bool.noConfusion live)
    (expired ▸ partition.expiredOnce.erase id) (waitingList ▸ partition.waitingOnce) ?_
    (fun _ _ => waitingList ▸ Iff.rfl) ?_ ?_ ?_ ?_
  · intro other different
    rw [expired, mem_erase_of_ne different]
  · rw [expired, exists_none_iff, iff_false]
    exact partition.expiredOnce.not_mem_erase
  · rw [waitingList, exists_none_iff, iff_false]
    exact notWaiting
  · intro point absent
    cases absent
  · intro point other otherPoint absent
    cases absent

/-- A point is made, for a device and a resource that no point has. -/
theorem Partition.create (partition : Partition refresher)
    (points : next.points = update refresher.points id (some new))
    (idIsNew : id = refresher.newPoint) (parent : new.waiting = false → new.hasParent = true)
    (unread : ∀ other point, refresher.points other = some point → ¬SameKey point new)
    (expired : next.expiredResList.Perm (if new.waiting then refresher.expiredResList
      else id :: refresher.expiredResList)) (waitingList : next.waitingList = if new.waiting then
      refresher.waitingList ++ [id] else refresher.waitingList)
    (newPoint : next.newPoint = refresher.newPoint + 1) : Partition next := by
  have unused : refresher.points id = none := by
    cases live : refresher.points id with
    | none => rfl
    | some point =>
      exact absurd (partition.fresh id point live) (by rw [idIsNew]; exact lt_irrefl _)
  have notActive : id ∉ refresher.expiredResList := by
    rw [partition.expired, unused, exists_none_iff]
    exact not_false
  have notWaiting : id ∉ refresher.waitingList := by
    rw [partition.waiting, unused, exists_none_iff]
    exact not_false
  refine partition.put points (newPoint ▸ Nat.le_succ _) (fun _ => ?_) ?_ ?_ ?_ ?_ ?_ ?_ ?_ ?_
  · rw [newPoint, idIsNew]
    exact Nat.lt_succ_self _
  · rw [expired.nodup_iff]
    split
    · exact partition.expiredOnce
    · exact nodup_cons.mpr ⟨notActive, partition.expiredOnce⟩
  · rw [waitingList]
    split
    · exact (perm_append_singleton id _).nodup_iff.mpr
        (nodup_cons.mpr ⟨notWaiting, partition.waitingOnce⟩)
    · exact partition.waitingOnce
  · intro other different
    rw [expired.mem_iff]
    split
    · exact Iff.rfl
    · rw [mem_cons, or_iff_right different]
  · intro other different
    rw [waitingList]
    split
    · rw [mem_append, mem_singleton, or_iff_left different]
    · exact Iff.rfl
  · rw [expired.mem_iff, exists_some_iff]
    split
    · rename_i waits
      exact ⟨fun member => absurd member notActive,
        fun active => absurd (waits.symm.trans active) nofun⟩
    · rename_i active
      exact ⟨fun _ => Bool.not_eq_true _ ▸ active, fun _ => mem_cons_self⟩
  · rw [waitingList, exists_some_iff]
    split
    · rename_i waits
      exact ⟨fun _ => waits, fun _ => mem_append_right _ mem_cons_self⟩
    · rename_i active
      exact ⟨fun member => absurd member notWaiting, fun waits => absurd waits active⟩
  · rintro _ ⟨⟩
    exact parent
  · rintro _ other otherPoint ⟨⟩ _ live
    exact unread other otherPoint live

end Partition

/-! ## Points -/

/-- A point keeps its key, its list and its parent. -/
structure Alike (old new : RefresherPoint) : Prop where
  key : SameKey old new
  waiting : new.waiting = old.waiting
  parent : new.hasParent = old.hasParent

section Points

variable {refresher next : Refresher} {id : Nat} {old new : RefresherPoint} {purl : CString}

theorem Alike.refl (point : RefresherPoint) : Alike point point := ⟨⟨rfl, rfl⟩, rfl, rfl⟩

/-- Monitors say nothing of the lists. -/
theorem removeMonitor_alike (purl : CString) (point : RefresherPoint) :
    Alike point (point.removeMonitor purl) := by
  unfold RefresherPoint.removeMonitor
  split
  · exact ⟨⟨rfl, rfl⟩, rfl, rfl⟩
  · exact .refl point

theorem addMonitor_alike (monitor : UInt32) (para : RefresherPoint.FresherPara)
    (point : RefresherPoint) : Alike point (point.addMonitor monitor para) := by
  obtain ⟨⟨clientId, resourceUrl⟩, waiting, parent⟩ := removeMonitor_alike para.publishPoint point
  unfold RefresherPoint.addMonitor
  simp only
  split
  · exact ⟨⟨clientId, resourceUrl⟩, waiting, parent⟩
  · exact ⟨⟨clientId, resourceUrl⟩, waiting, parent⟩

/-- Only the resource of a point is associated. -/
theorem associate_eq (client : Client) (point : RefresherPoint) : ∃ associated property,
    point.associate client =
      { point with associatedResource := associated, resProperty := property } := by
  unfold RefresherPoint.associate
  split
  · exact ⟨none, point.resProperty, rfl⟩
  · exact ⟨_, _, rfl⟩

theorem associate_alike (client : Client) (point : RefresherPoint) :
    Alike point (point.associate client) := by
  obtain ⟨associated, property, same⟩ := associate_eq client point
  rw [same]
  exact ⟨⟨rfl, rfl⟩, rfl, rfl⟩

theorem unflag_alike (purl : CString) (point : RefresherPoint) :
    Alike point (unflag purl point) := by
  obtain ⟨⟨clientId, resourceUrl⟩, waiting, parent⟩ :=
    removeMonitor_alike purl { point with flagged := false }
  exact ⟨⟨clientId, resourceUrl⟩, waiting, parent⟩

/-- A point is written with its key, list and parent as they were. -/
theorem Partition.setPoint (partition : Partition refresher) (live : refresher.points id = some old)
    (alike : Alike old new) : Partition (setPoint id new refresher) := by
  refine partition.change live rfl alike.key alike.waiting ?_ (.refl _) rfl rfl
  intro active
  rw [alike.parent]
  exact partition.parent id old live (alike.waiting ▸ active)

end Points

/-! ## Lists -/

section Lists

variable {refresher next : Refresher} {id : Nat} {resource device : CString}

/-- Sorting in adds one point. -/
theorem insertOrder_perm {expiry : UInt64} {list ordered : List Nat}
    (inserted : insertOrder refresher expiry id list = some ordered) :
    ordered.Perm (id :: list) := by
  induction list generalizing ordered with
  | nil =>
    obtain rfl := some.inj inserted
    exact .refl _
  | cons other rest ih =>
    rw [insertOrder] at inserted
    obtain ⟨point, _, inserted⟩ := bind_eq_some_iff.mp inserted
    split at inserted
    · obtain rfl := some.inj inserted
      exact .refl _
    · obtain ⟨tail, insertedTail, rfl⟩ := map_eq_some_iff.mp inserted
      exact ((ih insertedTail).cons other).trans (.swap id other rest)

/-- What `AddResOrder` does where it has a result. -/
theorem addResOrder_some (added : refresher.addResOrder id = some next) :
    ∃ point list, refresher.points id = some point ∧ point.waiting = false ∧
    list.Perm (id :: refresher.expiredResList) ∧ next =
      { setPoint id { point with hasParent := true } refresher with expiredResList := list } := by
  obtain ⟨point, live, added⟩ := bind_eq_some_iff.mp added
  split at added
  · cases added
  rename_i active
  obtain ⟨list, inserted, added⟩ := bind_eq_some_iff.mp added
  obtain rfl := some.inj added
  exact ⟨point, list, live, Bool.not_eq_true _ ▸ active, insertOrder_perm inserted, rfl⟩

/-- A point that is found has the url of the device. -/
theorem findRes_some {list : List Nat}
    (found : refresher.findRes resource device list = some (some id)) : id ∈ list ∧ ∃ point,
    refresher.points id = some point ∧ point.clientId = device ∧ point.resourceUrl = resource := by
  induction list with
  | nil => cases found
  | cons other rest ih =>
    rw [findRes] at found
    obtain ⟨point, live, found⟩ := bind_eq_some_iff.mp found
    split at found
    · rename_i same
      obtain rfl := some.inj (some.inj found)
      exact ⟨mem_cons_self, point, live, same⟩
    · obtain ⟨member, known⟩ := ih found
      exact ⟨mem_cons_of_mem _ member, known⟩

/-- Where none is found there is none. -/
theorem findRes_none {list : List Nat}
    (missed : refresher.findRes resource device list = some none) :
    ∀ other ∈ list, ∀ point, refresher.points other = some point →
    ¬(point.clientId = device ∧ point.resourceUrl = resource) := by
  induction list with
  | nil => exact fun other member => absurd member not_mem_nil
  | cons first rest ih =>
    rw [findRes] at missed
    obtain ⟨firstPoint, firstLive, missed⟩ := bind_eq_some_iff.mp missed
    split at missed
    · cases missed
    rename_i different
    intro other member point live
    rcases mem_cons.mp member with rfl | member
    · obtain rfl := some.inj (firstLive.symm.trans live)
      exact different
    · exact ih missed other member point live

/-- Both lists are searched. -/
theorem findPoint_some (found : refresher.findPoint resource device = some (some id)) : ∃ point,
    refresher.points id = some point ∧ point.clientId = device ∧ point.resourceUrl = resource := by
  obtain ⟨active, searched, found⟩ := bind_eq_some_iff.mp found
  cases active with
  | some other =>
    obtain rfl := some.inj (some.inj found)
    exact (findRes_some searched).2
  | none => exact (findRes_some found).2

/-- No live point is missed. -/
theorem findPoint_none (partition : Partition refresher)
    (missed : refresher.findPoint resource device = some none) :
    ∀ other point, refresher.points other = some point →
    ¬(point.clientId = device ∧ point.resourceUrl = resource) := by
  obtain ⟨active, searched, missed⟩ := bind_eq_some_iff.mp missed
  cases active with
  | some other => cases missed
  | none =>
    intro other point live
    cases waits : point.waiting with
    | false => exact findRes_none searched other ((partition.mem_expired live).mpr waits) point live
    | true => exact findRes_none missed other ((partition.mem_waiting live).mpr waits) point live

end Lists

/-! ## Operations -/

section Operations

variable {refresher next : Refresher} {id : Nat} {point : RefresherPoint}

theorem setPoint_here : (setPoint id point refresher).points id = some point := update_self ..

theorem filter_ne_eq_erase {list : List Nat} (once : list.Nodup) (id : Nat) :
    list.filter (· ≠ id) = list.erase id := by
  rw [once.erase_eq_filter]
  exact filter_congr fun other _ => decide_not

variable {now : UInt64}

/-- A point leaves the active list and comes back in its new place. -/
theorem Partition.setExpiryTo {timeout : Int32} (partition : Partition refresher)
    (set : refresher.setExpiryTo timeout now id = some next) : Partition next := by
  obtain ⟨point, live, set⟩ := bind_eq_some_iff.mp set
  simp only at set
  split at set
  · cases set
  rename_i awake
  have active : point.waiting = false := Bool.not_eq_true _ ▸ awake
  rw [if_pos (partition.parent id point live active)] at set
  obtain ⟨removed, isRemoved, added⟩ := bind_eq_some_iff.mp set
  obtain ⟨dated, isDated, isRemoved⟩ := bind_eq_some_iff.mp isRemoved
  obtain rfl := some.inj (setPoint_here.symm.trans isDated)
  obtain rfl := some.inj isRemoved
  obtain ⟨detached, list, isDetached, _, perm, rfl⟩ := addResOrder_some added
  obtain rfl := some.inj (setPoint_here.symm.trans isDetached)
  generalize (if timeout = -1 then point.nextExpiry now
    else now + timeout.toInt64.toUInt64) = expiry
  have points : update
    (update (update refresher.points id (some { point with valExpiry := expiry })) id
    (some { point with valExpiry := expiry, hasParent := false })) id
    (some { point with valExpiry := expiry, hasParent := true }) =
      update refresher.points id (some { point with valExpiry := expiry, hasParent := true }) := by
    rw [update_idem, update_idem]
  refine partition.change live points ⟨rfl, rfl⟩ rfl (fun _ => rfl) ?_ rfl rfl
  · have listed := (partition.mem_expired live).mpr active
    have perm : list.Perm (id :: refresher.expiredResList.erase id) :=
      filter_ne_eq_erase partition.expiredOnce id ▸ perm
    exact perm.trans (perm_cons_erase listed).symm

/-- A new expiry keeps the lists divided. -/
theorem Partition.setExpiry (partition : Partition refresher)
    (set : refresher.setExpiry now id = some next) : Partition next :=
  partition.setExpiryTo ((setExpiryTo_default now id refresher).trans set)

theorem Partition.refreshPoint {silent : Nat → Bool} {read : Nat → Int32}
    {state after : List Nat × Refresher} (partition : Partition state.2)
    (refreshed : refreshPoint now silent read state id = some after) : Partition after.2 := by
  obtain ⟨point, live, refreshed⟩ := bind_eq_some_iff.mp refreshed
  split at refreshed
  · split at refreshed
    · cases refreshed
    · obtain rfl := some.inj refreshed
      exact partition.setPoint live ⟨⟨rfl, rfl⟩, rfl, rfl⟩
  · obtain rfl := some.inj refreshed
    exact partition

/-- So does the timer. -/
theorem Partition.runRefresh {silent : Nat → Bool} {read : Nat → Int32}
    (partition : Partition refresher) (ran : refresher.runRefresh now silent read = some next) :
    Partition next := by
  obtain ⟨⟨due, refreshed⟩, walked, set⟩ := bind_eq_some_iff.mp ran
  have midway : Partition refreshed :=
    foldlM_walk (fun _ state => Partition state.2) (fun kept => kept.refreshPoint) walked partition
  exact foldlM_walk (fun _ state => Partition state) (fun kept => kept.setExpiry) set midway

/-- A walk over a list that the walk itself takes items from. -/
structure Walks (list : Refresher → List Nat) (rest : List Nat) (refresher : Refresher) : Prop where
  partition : Partition refresher
  once : rest.Nodup
  listed : ∀ id ∈ rest, id ∈ list refresher

variable {rest : List Nat}

/-- The items still to come stay listed while others are taken. -/
theorem Walks.onward {list : Refresher → List Nat} (walks : Walks list (id :: rest) refresher)
    (partition : Partition next)
    (listed : ∀ other, other ≠ id → other ∈ list refresher → other ∈ list next) :
    Walks list rest next := by
  obtain ⟨fresh, once⟩ := nodup_cons.mp walks.once
  refine ⟨partition, once,
    fun other member => listed other ?_ (walks.listed other (mem_cons_of_mem _ member))⟩
  rintro rfl
  exact fresh member

/-- A point that goes online leaves the waiting list. -/
theorem goOnline_walks {client : Client} (walks : Walks waitingList (id :: rest) refresher)
    (went : goOnline client refresher id = some next) : Walks waitingList rest next := by
  have partition := walks.partition
  obtain ⟨point, live, went⟩ := bind_eq_some_iff.mp went
  split at went
  · obtain ⟨placed, list, isPlaced, active, perm, rfl⟩ := addResOrder_some went
    obtain rfl := some.inj (setPoint_here.symm.trans isPlaced)
    have alike := associate_alike client { point with valExpiry := 0, waiting := false }
    have waits := (partition.mem_waiting live).mp (walks.listed id mem_cons_self)
    have points := update_idem
      (some (RefresherPoint.associate client { point with valExpiry := 0, waiting := false }))
      (some { RefresherPoint.associate client
      { point with valExpiry := 0, waiting := false } with hasParent := true })
      refresher.points (a := id)
    refine walks.onward (partition.wake live points ⟨alike.key.clientId, alike.key.resourceUrl⟩
      waits active rfl perm rfl rfl) ?_
    exact fun other different member => (mem_erase_of_ne different).mpr member
  · obtain rfl := some.inj went
    exact walks.onward partition fun _ _ member => member

/-- One that goes offline leaves the active list. -/
theorem goOffline_walks {client : Client} (walks : Walks expiredResList (id :: rest) refresher)
    (went : goOffline client refresher id = some next) : Walks expiredResList rest next := by
  have partition := walks.partition
  obtain ⟨point, live, went⟩ := bind_eq_some_iff.mp went
  split at went
  · obtain rfl := some.inj went
    have active := (partition.mem_expired live).mp (walks.listed id mem_cons_self)
    refine walks.onward (partition.sleep live rfl ⟨rfl, rfl⟩ active rfl rfl rfl rfl) ?_
    exact fun other different member => (mem_erase_of_ne different).mpr member
  · obtain rfl := some.inj went
    exact walks.onward partition fun _ _ member => member

/-- A change of the status keeps the lists divided. -/
theorem Partition.handleClientStatus {client : Client}
    {online : Bool} (partition : Partition refresher)
    (handled : refresher.handleClientStatus client online = some next) : Partition next := by
  unfold Refresher.handleClientStatus at handled
  split at handled
  · have walks : Walks waitingList refresher.waitingList refresher :=
      ⟨partition, partition.waitingOnce, fun _ member => member⟩
    exact (foldlM_walk (Walks waitingList) goOnline_walks handled walks).partition
  · have walks : Walks expiredResList refresher.expiredResList refresher :=
      ⟨partition, partition.expiredOnce, fun _ member => member⟩
    exact (foldlM_walk (Walks expiredResList) goOffline_walks handled walks).partition

theorem Partition.flagPoint {device : Option CString} (partition : Partition refresher)
    (flagged : flagPoint device refresher id = some next) : Partition next := by
  obtain ⟨point, live, flagged⟩ := bind_eq_some_iff.mp flagged
  obtain rfl := some.inj flagged
  split
  · exact partition.setPoint live ⟨⟨rfl, rfl⟩, rfl, rfl⟩
  · exact partition

theorem Partition.markAllFlagged {device : Option CString} (partition : Partition refresher)
    (marked : refresher.markAllFlagged device = some next) : Partition next := by
  obtain ⟨midway, active, waiting⟩ := bind_eq_some_iff.mp marked
  have between :=
    foldlM_walk (fun _ state => Partition state) (fun kept => kept.flagPoint) active partition
  exact foldlM_walk (fun _ state => Partition state) (fun kept => kept.flagPoint) waiting between

/-- So does data. -/
theorem Partition.onDataPoint {notified : UInt32} {device uri : CString} {payloadLen : Nat}
    (partition : Partition refresher)
    (got : refresher.onDataPoint now notified device uri payloadLen = some next) :
    Partition next := by
  obtain ⟨found, searched, got⟩ := bind_eq_some_iff.mp got
  cases found with
  | none =>
    obtain rfl := some.inj got
    exact partition
  | some id =>
    obtain ⟨point, live, got⟩ := bind_eq_some_iff.mp got
    refine (partition.setPoint live ?_).setExpiry got
    split
    · exact .refl point
    · exact ⟨⟨rfl, rfl⟩, rfl, rfl⟩

theorem Partition.addMonitor {para : RefresherPoint.FresherPara} (partition : Partition refresher)
    (added : refresher.addMonitor para id = some next) : Partition next := by
  obtain ⟨point, live, added⟩ := bind_eq_some_iff.mp added
  obtain rfl := some.inj added
  have kept := partition.setPoint live (addMonitor_alike refresher.newMonitor para point)
  exact ⟨kept.expiredOnce, kept.waitingOnce, kept.expired, kept.waiting, kept.fresh,
    kept.parent, kept.distinct⟩

theorem Partition.createPoint {directory : Directory} {device resource : CString}
    (partition : Partition refresher) (unread : ∀ other point, refresher.points other = some point →
      ¬(point.clientId = device ∧ point.resourceUrl = resource))
    (created : refresher.createPoint directory device resource = some (id, next)) :
    Partition next := by
  unfold Refresher.createPoint at created
  simp only at created
  split at created
  · rename_i client _
    obtain ⟨placed, added, same⟩ := map_eq_some_iff.mp created
    obtain ⟨rfl, rfl⟩ := Prod.mk.inj same
    obtain ⟨new, list, isNew, _, perm, rfl⟩ := addResOrder_some added
    obtain rfl := some.inj (setPoint_here.symm.trans isNew)
    have alike := associate_alike client (RefresherPoint.new device resource)
    have points := update_idem
      (some { (RefresherPoint.new device resource).associate client with waiting := false }) (some
      { (RefresherPoint.new device resource).associate client with
        waiting := false
        hasParent := true })
      refresher.points (a := refresher.newPoint)
    refine partition.create points rfl (fun _ => rfl) ?_ perm rfl rfl
    intro other point live same
    exact unread other point live ⟨same.clientId.symm.trans alike.key.clientId,
      same.resourceUrl.symm.trans alike.key.resourceUrl⟩
  · obtain ⟨rfl, rfl⟩ := Prod.mk.inj (some.inj created)
    refine partition.create rfl rfl nofun ?_ (.refl _) rfl rfl
    intro other point live same
    exact unread other point live ⟨same.clientId.symm, same.resourceUrl.symm⟩

/-- So does a new point. -/
theorem Partition.newRefresherPoint {agentId : Option CString}
    {directory : Directory} {device resource : CString}
    {para : RefresherPoint.FresherPara} (partition : Partition refresher)
    (made : refresher.newRefresherPoint agentId directory device resource para = some next) :
    Partition next := by
  obtain ⟨found, searched, made⟩ := bind_eq_some_iff.mp made
  cases found with
  | some id => exact partition.addMonitor made
  | none =>
    obtain ⟨⟨id, created⟩, isCreated, added⟩ := bind_eq_some_iff.mp made
    exact (partition.createPoint (findPoint_none partition searched) isCreated).addMonitor added

/-- A point that loses its last monitor is destroyed; it must be an active one. -/
theorem Partition.delRefresherPoint {device resource purl : CString}
    (partition : Partition refresher)
    (spares : SparesWaiting refresher (.delRefresherPoint device resource purl))
    (deleted : refresher.delRefresherPoint device resource purl = some next) : Partition next := by
  obtain ⟨found, searched, deleted⟩ := bind_eq_some_iff.mp deleted
  cases found with
  | none =>
    obtain rfl := some.inj deleted
    exact partition
  | some id =>
    obtain ⟨point, live, deleted⟩ := bind_eq_some_iff.mp deleted
    obtain ⟨known, knownLive, clientId, resourceUrl⟩ := findPoint_some searched
    obtain rfl := some.inj (live.symm.trans knownLive)
    have alike := removeMonitor_alike purl point
    simp only at deleted
    split at deleted
    · rename_i empty
      have active : point.waiting = false := by
        rw [← Bool.not_eq_true]
        exact fun waits => spares id point live waits clientId resourceUrl empty
      obtain ⟨removed, isRemoved, destroyed⟩ := bind_eq_some_iff.mp deleted
      obtain ⟨left, isLeft, isRemoved⟩ := bind_eq_some_iff.mp isRemoved
      obtain rfl := some.inj isRemoved
      obtain ⟨orphan, isOrphan, destroyed⟩ := bind_eq_some_iff.mp destroyed
      obtain rfl := some.inj (setPoint_here.symm.trans isOrphan)
      obtain rfl := some.inj destroyed
      refine partition.remove live active ?_ ?_ rfl rfl
      · simp only [Refresher.setPoint, update_idem]
      · exact filter_ne_eq_erase partition.expiredOnce id
    · obtain rfl := some.inj deleted
      exact partition.setPoint live alike

/-- One round over the active list: a flagged point loses its monitor, and is destroyed with its
last one. -/
theorem removeFlagged_eq {point : RefresherPoint} (purl : CString)
    (once : refresher.expiredResList.Nodup) (live : refresher.points id = some point) :
    removeFlagged purl refresher id = some (if point.flagged = true then
      if (unflag purl point).monitors = [] then
        { refresher with
          points := update refresher.points id none
          expiredResList := refresher.expiredResList.erase id }
      else setPoint id (unflag purl point) refresher
    else refresher) := by
  simp only [removeFlagged, live, bind_eq_bind, bind_some]
  split
  · split
    · have filtered : (refresher.expiredResList.erase id).filter (· ≠ id) =
          refresher.expiredResList.erase id := by
        rw [filter_ne_eq_erase (once.erase id), erase_of_not_mem once.not_mem_erase]
      simp only [destroy, Refresher.setPoint, update_self, update_idem, bind_eq_bind, bind_some,
        filtered, ite_self]
    · rfl
  · rfl

/-- A flagged point of the active list is visited; the waiting points are left alone. -/
theorem removeFlagged_walks (purl : CString) (walks : Walks expiredResList (id :: rest) refresher) :
    ∃ next, removeFlagged purl refresher id = some next ∧ Walks expiredResList rest next ∧
    next.waitingList = refresher.waitingList ∧ ∀ other, other ≠ id →
    next.points other = refresher.points other := by
  have partition := walks.partition
  obtain ⟨point, live, active⟩ := (partition.expired id).mp (walks.listed id mem_cons_self)
  refine ⟨_, removeFlagged_eq purl partition.expiredOnce live, ?_⟩
  split
  · split
    · refine ⟨walks.onward (partition.remove live active rfl rfl rfl rfl) ?_, rfl, ?_⟩
      · exact fun other different member => (mem_erase_of_ne different).mpr member
      · exact fun other different => update_of_ne different ..
    · refine ⟨walks.onward (partition.setPoint live (unflag_alike purl point)) fun _ _ member =>
        member, rfl, ?_⟩
      exact fun other different => update_of_ne different ..
  · exact ⟨walks.onward partition fun _ _ member => member, rfl, fun _ _ => rfl⟩

/-- The walk over the active list has a result, and leaves the waiting points alone. -/
theorem removeFlagged_total (purl : CString) (partition : Partition refresher) :
    ∃ midway, refresher.expiredResList.foldlM (removeFlagged purl) refresher = some midway ∧
    Partition midway ∧ midway.waitingList = refresher.waitingList ∧
    ∀ id ∈ refresher.waitingList, midway.points id = refresher.points id := by
  have walks : Walks expiredResList refresher.expiredResList refresher :=
    ⟨partition, partition.expiredOnce, fun _ member => member⟩
  obtain ⟨midway, walked, kept, waitingList, points⟩ := foldlM_total
    (fun rest state => Walks expiredResList rest state ∧ state.waitingList = refresher.waitingList ∧
      ∀ id ∈ refresher.waitingList, state.points id = refresher.points id)
    (fun {item rest state} ⟨walks, waitingList, points⟩ => by
      obtain ⟨next, removed, onward, sameList, others⟩ := removeFlagged_walks purl walks
      refine ⟨next, removed, onward, sameList.trans waitingList, fun id waits => ?_⟩
      rw [← points id waits]
      refine others id ?_
      rintro rfl
      obtain ⟨point, live, active⟩ :=
        (walks.partition.expired id).mp (walks.listed id mem_cons_self)
      have waiting := (walks.partition.mem_waiting live).mp (waitingList ▸ waits)
      exact absurd (active.symm.trans waiting) nofun)
    ⟨walks, rfl, fun _ _ => rfl⟩
  exact ⟨midway, walked, kept.partition, waitingList, points⟩

variable {purl : CString}

theorem Partition.removeFlaggedWaiting : ∀ {list : List Nat} {refresher : Refresher},
    Partition refresher → removeFlaggedWaiting purl list refresher = some next → Partition next
  | [], refresher, partition, removed => some.inj removed ▸ partition
  | [_], _, _, removed => nomatch removed
  | id :: _ :: rest, refresher, partition, removed => by
      obtain ⟨point, live, removed⟩ := bind_eq_some_iff.mp removed
      split at removed
      · simp only at removed
        split at removed
        · cases removed
        · exact Partition.removeFlaggedWaiting
            (partition.setPoint live (unflag_alike purl point)) removed
      · exact Partition.removeFlaggedWaiting partition removed

/-- So does the end of a reload, where it has a result. -/
theorem Partition.removeAllFlagged (partition : Partition refresher)
    (removed : refresher.removeAllFlagged purl = some next) : Partition next := by
  obtain ⟨midway, active, waiting⟩ := bind_eq_some_iff.mp removed
  obtain ⟨reached, walked, kept, _⟩ := removeFlagged_total purl partition
  obtain rfl := some.inj (walked.symm.trans active)
  exact kept.removeFlaggedWaiting waiting

/-- The walk over the waiting list stays inside and erases nothing. -/
theorem removeFlaggedWaiting_total : ∀ {list : List Nat} {refresher : Refresher}, list.Nodup →
    (∀ id ∈ list, ∃ point, refresher.points id = some point) → list.length % 2 = 0 →
    (∀ index id point, index % 2 = 0 → list[index]? = some id → refresher.points id = some point →
      point.flagged = true → (unflag purl point).monitors ≠ []) →
    ∃ next, removeFlaggedWaiting purl list refresher = some next
  | [], refresher, _, _, _, _ => ⟨refresher, rfl⟩
  | [_], _, _, _, even, _ => absurd even (by simp)
  | id :: skipped :: rest, refresher, once, live, even, spares => by
      obtain ⟨point, isLive⟩ := live id mem_cons_self
      obtain ⟨outside, once⟩ := nodup_cons.mp once
      have restOnce : rest.Nodup := (nodup_cons.mp once).2
      have restEven : rest.length % 2 = 0 := by
        simp only [length_cons] at even
        omega
      have later : ∀ other ∈ rest, other ≠ id := by
        rintro other member rfl
        exact outside (mem_cons_of_mem _ member)
      have restSpares : ∀ index other otherPoint, index % 2 = 0 → rest[index]? = some other →
          refresher.points other = some otherPoint → otherPoint.flagged = true →
          (unflag purl otherPoint).monitors ≠ [] := by
        intro index other otherPoint evenIndex listed
        exact spares (index + 2) other otherPoint (by omega) listed
      simp only [Refresher.removeFlaggedWaiting, isLive, bind_eq_bind, bind_some]
      split
      · rename_i flagged
        rw [if_neg (spares 0 id point rfl rfl isLive flagged)]
        refine removeFlaggedWaiting_total restOnce ?_ restEven ?_
        · intro other member
          obtain ⟨otherPoint, otherLive⟩ :=
            live other (mem_cons_of_mem _ (mem_cons_of_mem _ member))
          exact ⟨otherPoint, (update_of_ne (later other member) ..).trans otherLive⟩
        · intro index other otherPoint evenIndex listed otherLive
          have different := later other (mem_of_getElem? listed)
          refine restSpares index other otherPoint evenIndex listed ?_
          exact (update_of_ne different ..).symm.trans otherLive
      · refine removeFlaggedWaiting_total restOnce ?_ restEven restSpares
        exact fun other member => live other (mem_cons_of_mem _ (mem_cons_of_mem _ member))

/-- Where waiting points are spared, `RemoveAllFlagged` has a result. -/
theorem removeAllFlagged_total (partition : Partition refresher)
    (spares : SparesWaiting refresher (.removeAllFlagged purl)) :
    ∃ next, refresher.removeAllFlagged purl = some next := by
  obtain ⟨midway, walked, kept, waitingList, points⟩ := removeFlagged_total purl partition
  obtain ⟨next, removed⟩ :
      ∃ next, removeFlaggedWaiting purl midway.waitingList midway = some next := by
    refine removeFlaggedWaiting_total kept.waitingOnce ?_ ?_ ?_
    · intro id member
      obtain ⟨point, live, _⟩ := (kept.waiting id).mp member
      exact ⟨point, live⟩
    · rw [waitingList]
      exact spares.1
    · intro index id point even listed live
      rw [waitingList] at listed
      rw [points id (mem_of_getElem? listed)] at live
      exact spares.2 index id point even listed live
  exact ⟨next, by rw [Refresher.removeAllFlagged, walked]; exact removed⟩

/-- So does every event that spares the waiting points. -/
theorem Partition.step {event : RefresherEvent} (partition : Partition refresher)
    (spares : SparesWaiting refresher event) (performed : perform event refresher = some next) :
    Partition next := by
  cases event with
  | newRefresherPoint => exact partition.newRefresherPoint performed
  | delRefresherPoint => exact partition.delRefresherPoint spares performed
  | markAllFlagged => exact partition.markAllFlagged performed
  | removeAllFlagged => exact partition.removeAllFlagged performed
  | handleClientStatus => exact partition.handleClientStatus performed
  | onDataPoint => exact partition.onDataPoint performed
  | runRefresh => exact partition.runRefresh performed

end Operations

/-- In every run that spares the waiting points, the lists divide the live points, and
`RemoveAllFlagged` is defined wherever it spares them. -/
theorem divided_of_sparesWaiting {events : List RefresherEvent} {final : Refresher}
    (runs : RunsUnder perform SparesWaiting start events final) :
    Divided final ∧ ∀ purl, SparesWaiting final (.removeAllFlagged purl) → ∃ next,
    final.removeAllFlagged purl = some next := by
  have partition : Partition final := by
    refine runs.keeps (fun partition spares performed => ?_) Partition.start
    exact partition.step spares performed
  exact ⟨partition.divided, fun purl => removeAllFlagged_total partition⟩

/-- The device `"d"`. -/
def deviceD : CString := .ofBytes [0x64]
/-- Its resource `"/r"`. -/
def resourceR : CString := .ofBytes [0x2F, 0x72]
/-- The publish point `"p"`. -/
def purlP : CString := .ofBytes [0x70]

/-- A point on the resource is asked for before the device has registered. -/
def asked : RefresherEvent := .newRefresherPoint none .start deviceD resourceR ⟨purlP, 30, false, 0⟩

/-- The device registers, its point is read, and nobody asks for it any longer. -/
def askedAndRead : List RefresherEvent :=
  [asked, .handleClientStatus (Client.new 0 deviceD) true,
    .runRefresh 100 (fun _ => false) (fun _ => 0), .delRefresherPoint deviceD resourceR purlP]

/-- The lists are divided at the end of this run. -/
theorem divided_askedAndRead :
    ∃ final, runAll perform askedAndRead start = some final ∧ Divided final := by
  refine ⟨_, rfl, (@divided_of_sparesWaiting askedAndRead _ ?_).1⟩
  refine .call trivial rfl (.call trivial rfl (.call trivial rfl (.call ?_ rfl (.done _))))
  intro id point live waits
  cases id with
  | zero =>
    cases live
    cases waits
  | succ other => cases live

/-- Nobody asks for a point any longer while its device is still unknown. -/
def askedInVain : List RefresherEvent := [asked, .delRefresherPoint deviceD resourceR purlP]

/-- The address of the destroyed point stays in the waiting list. -/
theorem divided_askedInVain_fails : ∃ final, runAll perform askedInVain start = some final ∧
    ¬Divided final := by
  refine ⟨_, rfl, fun divided => ?_⟩
  have live := divided.live 0 (by decide)
  cases live

end Refresher

end Idrm.Devices
