import Idrm.Devices.Monitors
import Idrm.Devices.Schedule

/-!
# Cancelling a monitor

`DelRefresherPoint` takes back what `NewRefresherPoint` did for the same device, resource and
publish point. It looks for the device by the id it is given, while `NewRefresherPoint` takes the
local id first; a point that it destroys while the device is unknown stays in the waiting list.
-/

namespace Idrm.Devices

open Idrm.Lib Function Option List

namespace RefresherPoint

section Undo

variable {point : RefresherPoint} {monitors : List RefresherPara} {monitor : RefresherPara}
  {purl : CString}

/-- What is inserted is taken out again. -/
theorem eraseP_insertMonitor (here : monitor.publishPoint = purl)
    (absent : ∀ other ∈ monitors, other.publishPoint ≠ purl) :
    (insertMonitor monitor monitors).eraseP (·.publishPoint = purl) = monitors := by
  induction monitors with
  | nil => rw [insertMonitor, eraseP_cons_of_pos (by simpa using here)]
  | cons first rest ih =>
    obtain ⟨different, absent⟩ := forall_mem_cons.mp absent
    rw [insertMonitor]
    split
    · rw [eraseP_cons_of_pos (by simpa using here)]
    · rw [eraseP_cons_of_neg (by simpa using different), ih absent]

theorem removeMonitor_of_absent (absent : ∀ other ∈ point.monitors, other.publishPoint ≠ purl) :
    point.removeMonitor purl = point := by
  unfold removeMonitor
  rw [if_neg]
  intro found
  obtain ⟨other, member, same⟩ := List.any_eq_true.mp found
  exact absent other member (of_decide_eq_true same)

/-- A monitor that is added and removed leaves the least duration of the others, and no mark. -/
theorem removeMonitor_addMonitor {para : FresherPara}
    (absent : ∀ other ∈ point.monitors, other.publishPoint ≠ para.publishPoint)
    (id : UInt32) : (point.addMonitor id para).removeMonitor para.publishPoint =
      { point with valueLifetime := leastDuration point.monitors, flagged := false } := by
  let monitor : RefresherPara :=
    ⟨id, 0, 0, para.sequence, para.process, para.minDuration, para.publishPoint⟩
  have added : (point.addMonitor id para).monitors = insertMonitor monitor point.monitors := by
    rw [addMonitor_monitors, removeMonitor_of_absent absent]
  have found : (point.addMonitor id para).monitors.any (·.publishPoint = para.publishPoint) := by
    rw [added, List.any_eq_true]
    exact ⟨monitor, (insertMonitor_perm ..).mem_iff.mpr mem_cons_self, decide_eq_true rfl⟩
  have rest : (point.addMonitor id para).monitors.eraseP (·.publishPoint = para.publishPoint) =
      point.monitors := by
    rw [added]
    exact eraseP_insertMonitor rfl absent
  rw [removeMonitor, if_pos found, rest, addMonitor, removeMonitor_of_absent absent]
  simp only
  split
  · rfl
  · rfl

end Undo

end RefresherPoint

namespace Refresher

/-- `DelRefresherPoint`, with the value it returns. -/
def delRefresherPointResult (device resource purl : CString) (refresher : Refresher) :
    Option (Bool × Refresher) := do
  match ← refresher.findPoint resource device with
  | none => some (false, refresher)
  | some id =>
    let point ← refresher.points id
    let point := point.removeMonitor purl
    let refresher := setPoint id point refresher
    if point.monitors = [] then ((← refresher.removeRes id).destroy id).map (true, ·)
      else some (true, refresher)

/-- A publish point monitors a resource of a device. -/
def Monitored (device resource purl : CString) (refresher : Refresher) : Prop :=
  ∃ id point, refresher.points id = some point ∧ point.clientId = device ∧
    point.resourceUrl = resource ∧ ∃ monitor ∈ point.monitors, monitor.publishPoint = purl

/-- The same points with the same monitors and lifetimes, in the same lists; the mark of a reload,
which `AddMonitor` clears, is left out. -/
structure SamePoints (before after : Refresher) : Prop where
  expiredResList : after.expiredResList = before.expiredResList
  waitingList : after.waitingList = before.waitingList
  points : ∀ id, (after.points id).map (fun point => { point with flagged := false }) =
    (before.points id).map fun point => { point with flagged := false }

/-- What `NewRefresherPoint` did, `DelRefresherPoint` undoes. -/
def Undone (agentId : Option CString) (directory : Directory) (device resource : CString)
    (para : RefresherPoint.FresherPara) (refresher : Refresher) : Prop :=
  ∃ made next, refresher.newRefresherPoint agentId directory device resource para = some made ∧
    made.delRefresherPointResult device resource para.publishPoint = some (true, next) ∧
    SamePoints refresher next

/-- The device is given by its local id; and the resource has a point already, with monitors whose
least duration is its lifetime, or the device is known. -/
def Undoable (agentId : Option CString) (directory : Directory) (device resource : CString)
    (refresher : Refresher) : Prop :=
  Directory.tryUseLocalId agentId device = device ∧ ((∃ id point, refresher.points id = some point ∧
    point.clientId = device ∧ point.resourceUrl = resource ∧ point.monitors ≠ [] ∧ point.Follows) ∨
      (∀ id point, refresher.points id = some point →
        ¬(point.clientId = device ∧ point.resourceUrl = resource)) ∧
        (directory.findClient device).isSome)

section Cancel

variable {refresher made next : Refresher} {id : Nat} {point : RefresherPoint}
  {agentId : Option CString} {directory : Directory}
  {device given resource purl : CString} {para : RefresherPoint.FresherPara}

/-! ## Searching -/

/-- The point of a device and a resource is found. -/
theorem findPoint_live (partition : Partition refresher) (live : refresher.points id = some point) :
    refresher.findPoint point.resourceUrl point.clientId = some (some id) := by
  obtain ⟨found, searched⟩ := findPoint_total partition point.resourceUrl point.clientId
  cases found with
  | none => exact absurd ⟨rfl, rfl⟩ (findPoint_none partition searched id point live)
  | some other =>
    obtain ⟨content, isContent, clientId, resourceUrl⟩ := findPoint_some searched
    rw [searched, partition.distinct other id content point isContent live clientId resourceUrl]

/-! ## What the two calls do -/

/-- A point is found, or made in one of the lists. -/
inductive Made (directory : Directory) (device resource : CString) (refresher made : Refresher)
    (id : Nat) (point : RefresherPoint) : Prop
  | found (live : refresher.points id = some point)
      (expired : made.expiredResList = refresher.expiredResList)
      (waiting : made.waitingList = refresher.waitingList)
  | active (unread : ∀ other content, refresher.points other = some content →
      ¬(content.clientId = device ∧ content.resourceUrl = resource))
      (known : (directory.findClient device).isSome) (absent : refresher.points id = none)
      (bare : point.monitors = []) (never : point.lastReadTime = 0)
      (expired : made.expiredResList.filter (· ≠ id) = refresher.expiredResList)
      (waiting : made.waitingList = refresher.waitingList)
  | waits (unread : ∀ other content, refresher.points other = some content →
      ¬(content.clientId = device ∧ content.resourceUrl = resource))
      (unknown : directory.findClient device = none)
      (absent : refresher.points id = none) (bare : point.monitors = [])
      (never : point.lastReadTime = 0) (waiting : made.waitingList = refresher.waitingList ++ [id])

/-- `AddResOrder` of a point that is not listed. -/
theorem addResOrder_fresh (live : refresher.points id = some point) (active : point.waiting = false)
    (absent : id ∉ refresher.expiredResList) (once : refresher.expiredResList.Nodup)
    (lives : ∀ other ∈ refresher.expiredResList, ∃ content, refresher.points other = some content) :
    ∃ list, refresher.addResOrder id =
      some { setPoint id { point with hasParent := true } refresher with expiredResList := list } ∧
      list.filter (· ≠ id) = refresher.expiredResList := by
  refine ⟨refresher.expiredResList.orderedInsert
    (fun one other => refresher.expiryOf one < refresher.expiryOf other) id, ?_, ?_⟩
  · simp only [addResOrder, live, bind_eq_bind, bind_some, active, Bool.false_eq_true, if_false,
      insertOrder_eq live lives]
  · have perm :=
      perm_orderedInsert (fun one other => refresher.expiryOf one < refresher.expiryOf other) id
        refresher.expiredResList
    rw [filter_ne_eq_erase (perm.nodup_iff.mpr (nodup_cons.mpr ⟨absent, once⟩))]
    exact erase_orderedInsert_of_notMem absent

theorem createPoint_made (directory : Directory) (partition : Partition refresher)
    (unread : ∀ other content, refresher.points other = some content →
      ¬(content.clientId = device ∧ content.resourceUrl = resource)) :
    ∃ id made point, refresher.createPoint directory device resource = some (id, made) ∧
    made.points = update refresher.points id (some point) ∧ point.clientId = device ∧
    point.resourceUrl = resource ∧ Made directory device resource refresher made id point := by
  have absent := partition.absent_newPoint
  have unlisted := partition.unlisted_newPoint
  unfold createPoint
  cases known : directory.findClient device with
  | none =>
    exact ⟨_, _, .new device resource, rfl, rfl, rfl, rfl, .waits unread known absent rfl rfl rfl⟩
  | some client =>
    let fresh : RefresherPoint :=
      { (RefresherPoint.new device resource).associate client with waiting := false }
    let apart : Refresher :=
      setPoint refresher.newPoint fresh { refresher with newPoint := refresher.newPoint + 1 }
    have lives : ∀ other ∈ apart.expiredResList, ∃ content, apart.points other = some content :=
      lives_update partition.lives unlisted _
    have isFresh : apart.points refresher.newPoint = some _ := setPoint_here
    obtain ⟨list, added, filtered⟩ :=
      addResOrder_fresh isFresh rfl unlisted partition.expiredOnce lives
    have key := (associate_alike client (RefresherPoint.new device resource)).key
    have asMade : fresh.monitors = [] ∧ fresh.lastReadTime = 0 := by
      obtain ⟨associated, property, same⟩ :=
        associate_eq client (RefresherPoint.new device resource)
      simp only [fresh, same]
      exact ⟨rfl, rfl⟩
    refine ⟨refresher.newPoint, _, { fresh with hasParent := true },
      congrArg (Option.map (refresher.newPoint, ·)) added, ?_, key.clientId, key.resourceUrl, ?_⟩
    · exact update_idem ..
    · exact .active unread (by rw [known]; rfl) absent asMade.1 asMade.2 filtered rfl

/-- Only the lists matter for how a point was made. -/
theorem Made.congr (makes : Made directory device resource refresher made id point)
    (expired : next.expiredResList = made.expiredResList)
    (waiting : next.waitingList = made.waitingList) :
    Made directory device resource refresher next id point := by
  cases makes with
  | found live sameExpired sameWaiting =>
    exact .found live (expired.trans sameExpired) (waiting.trans sameWaiting)
  | active unread known absent bare never filtered sameWaiting =>
    exact .active unread known absent bare never (expired ▸ filtered) (waiting.trans sameWaiting)
  | waits unread unknown absent bare never appended =>
    exact .waits unread unknown absent bare never (waiting.trans appended)

/-- `NewRefresherPoint` adds its monitor to a point of the local id. -/
theorem newRefresherPoint_made (partition : Partition refresher)
    (agentId : Option CString) (directory : Directory)
    (given resource : CString) (para : RefresherPoint.FresherPara) : ∃ made id point number,
    refresher.newRefresherPoint agentId directory given resource para = some made ∧
    made.points = update refresher.points id (some (point.addMonitor number para)) ∧
    point.clientId = Directory.tryUseLocalId agentId given ∧ point.resourceUrl = resource ∧
    Made directory (Directory.tryUseLocalId agentId given) resource refresher made id point := by
  obtain ⟨found, searched⟩ :=
    findPoint_total partition resource (Directory.tryUseLocalId agentId given)
  unfold newRefresherPoint
  simp only [searched, bind_eq_bind, bind_some]
  cases found with
  | some id =>
    obtain ⟨point, live, clientId, resourceUrl⟩ := findPoint_some searched
    let added := setPoint id (point.addMonitor refresher.newMonitor para) refresher
    refine ⟨{ added with newMonitor := refresher.newMonitor + 1 }, id, point, refresher.newMonitor,
      ?_, rfl, clientId, resourceUrl, .found live rfl rfl⟩
    show refresher.addMonitor para id = _
    rw [Refresher.addMonitor, live]
    rfl
  | none =>
    obtain ⟨id, fresh, point, created, points, clientId, resourceUrl, makes⟩ :=
      createPoint_made directory partition (findPoint_none partition searched)
    have live : fresh.points id = some point := by rw [points, update_self]
    let added := setPoint id (point.addMonitor fresh.newMonitor para) fresh
    refine ⟨{ added with newMonitor := fresh.newMonitor + 1 }, id, point, fresh.newMonitor, ?_, ?_,
      clientId, resourceUrl, makes.congr rfl rfl⟩
    · simp only [created, bind_some, addMonitor, live, bind_eq_bind]
      rfl
    · show update fresh.points id _ = _
      rw [points, update_idem]

/-- `DelRefresherPoint` of a point that is found. -/
theorem delRefresherPointResult_live (partition : Partition refresher)
    (live : refresher.points id = some point) (purl : CString) :
    refresher.delRefresherPointResult point.clientId point.resourceUrl purl = some (true,
      if (point.removeMonitor purl).monitors = [] then
        { refresher with
          points := update refresher.points id none
          expiredResList := refresher.expiredResList.filter (· ≠ id) }
      else setPoint id (point.removeMonitor purl) refresher) := by
  unfold delRefresherPointResult
  simp only [findPoint_live partition live, live, bind_eq_bind, bind_some]
  split
  · simp only [removeRes, destroy, setPoint, update_self, update_idem, bind_eq_bind, bind_some,
      Bool.false_eq_true, if_false, map_some]
  · rfl

/-- `DelRefresherPoint` leaves every point alone that has another device. -/
theorem delRefresherPointResult_other (partition : Partition refresher)
    (live : refresher.points id = some point) (different : point.clientId ≠ device)
    (deleted : refresher.delRefresherPointResult device resource purl = some (true, next)) :
    next.points id = some point := by
  obtain ⟨found, searched⟩ := findPoint_total partition resource device
  cases found with
  | none =>
    rw [delRefresherPointResult, searched] at deleted
    cases deleted
  | some other =>
    obtain ⟨content, isContent, rfl, rfl⟩ := findPoint_some searched
    rw [delRefresherPointResult_live partition isContent] at deleted
    obtain ⟨-, rfl⟩ := Prod.mk.inj (some.inj deleted)
    have apart : id ≠ other := by
      rintro rfl
      obtain rfl := some.inj (live.symm.trans isContent)
      exact different rfl
    split
    · exact (update_of_ne apart ..).trans live
    · exact (update_of_ne apart ..).trans live

/-- Before, no point had the publish point that is made. -/
theorem Made.unmonitored (makes : Made directory device resource refresher made id point)
    (clientId : point.clientId = device) (resourceUrl : point.resourceUrl = resource)
    (fresh : ¬refresher.Monitored device resource purl) :
    ∀ other ∈ point.monitors, other.publishPoint ≠ purl := by
  intro other member same
  cases makes with
  | found live => exact fresh ⟨id, point, live, clientId, resourceUrl, other, member, same⟩
  | active _ _ _ bare =>
    rw [bare] at member
    cases member
  | waits _ _ _ bare =>
    rw [bare] at member
    cases member

/-- A point that lost its monitor again is as it was, the mark apart, exactly where its lifetime was
the least duration. -/
theorem samePoints_setPoint_iff (live : refresher.points id = some point)
    (points : made.points = update refresher.points id (some { point with
      valueLifetime := RefresherPoint.leastDuration point.monitors, flagged := false }))
    (expired : made.expiredResList = refresher.expiredResList)
    (waiting : made.waitingList = refresher.waitingList) :
      SamePoints refresher made ↔ point.Follows := by
  rw [RefresherPoint.Follows, RefresherPoint.isLeast_iff]
  constructor
  · intro same
    have here := same.points id
    rw [points, update_self, live] at here
    exact (congrArg RefresherPoint.valueLifetime (some.inj here)).symm
  · intro follows
    refine ⟨expired, waiting, fun other => ?_⟩
    rw [points]
    by_cases here : other = id
    · rw [here, update_self, live, ← follows]
      rfl
    · rw [update_of_ne here]

/-- A point that has one monitor more is not as it was. -/
theorem not_samePoints_of_added {number : UInt32}
    (makes : Made directory device resource refresher made id point)
    (absent : ∀ other ∈ point.monitors, other.publishPoint ≠ para.publishPoint)
    (live : next.points id = some (point.addMonitor number para)) : ¬SamePoints refresher next := by
  intro same
  have here := same.points id
  rw [live] at here
  cases makes with
  | found before =>
    rw [before] at here
    have monitors := congrArg RefresherPoint.monitors (some.inj here)
    have longer := (RefresherPoint.insertMonitor_perm ⟨number, 0, 0, para.sequence, para.process,
      para.minDuration, para.publishPoint⟩ point.monitors).length_eq
    simp only [RefresherPoint.addMonitor_monitors,
      RefresherPoint.removeMonitor_of_absent absent] at monitors
    rw [monitors, length_cons] at longer
    omega
  | active _ _ before =>
    rw [before] at here
    cases here
  | waits _ _ before =>
    rw [before] at here
    cases here

end Cancel

/-- In every state whose lists divide the live points, a publish point that does not monitor the
resource yet is taken back as it was added exactly where the device is given by its local id and
either its point has monitors with their least duration for a lifetime, or it has none and the
device is known. -/
theorem undone_iff {refresher : Refresher} (partition : Partition refresher)
    (agentId : Option CString) (directory : Directory)
    (device resource : CString) (para : RefresherPoint.FresherPara) (unmonitored :
      ¬refresher.Monitored (Directory.tryUseLocalId agentId device) resource para.publishPoint) :
    refresher.Undone agentId directory device resource para ↔
    refresher.Undoable agentId directory device resource := by
  obtain ⟨made, id, point, number, isMade, points, clientId, resourceUrl, makes⟩ :=
    newRefresherPoint_made partition agentId directory device resource para
  have partitionMade := partition.newRefresherPoint isMade
  have live : made.points id = some (point.addMonitor number para) := by rw [points, update_self]
  have key := (addMonitor_alike number para point).key
  have absent := makes.unmonitored clientId resourceUrl unmonitored
  have undone : refresher.Undone agentId directory device resource para ↔
      ∃ next, made.delRefresherPointResult device resource para.publishPoint = some (true, next) ∧
      SamePoints refresher next := by
    rw [Undone, isMade]
    constructor
    · rintro ⟨_, next, ⟨⟩, deleted, same⟩
      exact ⟨next, deleted, same⟩
    · rintro ⟨next, deleted, same⟩
      exact ⟨made, next, rfl, deleted, same⟩
  rw [undone]
  by_cases isLocal : Directory.tryUseLocalId agentId device = device
  · rw [isLocal] at clientId makes
    have deleted := delRefresherPointResult_live partitionMade live para.publishPoint
    rw [key.clientId, key.resourceUrl, clientId, resourceUrl,
      RefresherPoint.removeMonitor_addMonitor absent] at deleted
    simp only [deleted, Option.some.injEq, Prod.mk.injEq, true_and, exists_eq_left']
    cases makes with
    | found before expired waiting =>
      split
      · rename_i empty
        refine iff_of_false (fun same => ?_) ?_
        · have here := same.points id
          rw [before] at here
          simp at here
        · rintro ⟨-, ⟨other, content, isContent, sameDevice, sameResource, named, -⟩ | ⟨unread, -⟩⟩
          · obtain rfl := partition.distinct other id content point isContent before
              (sameDevice.trans clientId.symm) (sameResource.trans resourceUrl.symm)
            obtain rfl := some.inj (before.symm.trans isContent)
            exact named empty
          · exact unread id point before ⟨clientId, resourceUrl⟩
      · rename_i named
        let back : RefresherPoint :=
          { point with
            valueLifetime := RefresherPoint.leastDuration point.monitors
            flagged := false }
        have written : (setPoint id back made).points = update refresher.points id (some back) := by
          show update made.points id (some back) = _
          rw [points, update_idem]
        refine (samePoints_setPoint_iff before written expired waiting).trans ⟨?_, ?_⟩
        · intro follows
          exact ⟨isLocal, .inl ⟨id, point, before, clientId, resourceUrl, named, follows⟩⟩
        · rintro ⟨-, ⟨other, content, isContent, sameDevice, sameResource, -,
            follows⟩ | ⟨unread, -⟩⟩
          · obtain rfl := partition.distinct other id content point isContent before
              (sameDevice.trans clientId.symm) (sameResource.trans resourceUrl.symm)
            obtain rfl := some.inj (before.symm.trans isContent)
            exact follows
          · exact absurd ⟨clientId, resourceUrl⟩ (unread id point before)
    | active unread known before bare _ filtered waiting =>
      rw [if_pos bare]
      refine iff_of_true ⟨filtered, waiting, fun other => ?_⟩ ⟨isLocal, .inr ⟨unread, known⟩⟩
      simp only [points, update_idem]
      rw [← before, update_eq_self]
    | waits unread unknown before bare _ appended =>
      rw [if_pos bare]
      refine iff_of_false (fun same => ?_) ?_
      · have longer : refresher.waitingList ++ [id] = refresher.waitingList :=
          appended.symm.trans same.waitingList
        simp at longer
      · rintro ⟨-, ⟨other, content, isContent, sameDevice, sameResource, -⟩ | ⟨-, known⟩⟩
        · exact unread other content isContent ⟨sameDevice, sameResource⟩
        · rw [unknown] at known
          cases known
  · refine iff_of_false ?_ fun undoable => isLocal undoable.1
    rintro ⟨next, deleted, same⟩
    have different : (point.addMonitor number para).clientId ≠ device := by
      rw [key.clientId, clientId]
      exact isLocal
    exact not_samePoints_of_added makes absent
      (delRefresherPointResult_other partitionMade live different deleted) same

/-- A directory that knows the device `"d"`. -/
def directoryD : Directory := { Directory.start with list := [Client.new 0 deviceD] }

/-- Its resource is read for the publish point `"q"` every 60 seconds. -/
def servedQ : Refresher :=
  (start.newRefresherPoint none directoryD deviceD resourceR ⟨.ofBytes [0x71], 60, false, 0⟩).getD
    start

/-- A second publish point, with a shorter duration, is taken back. -/
theorem undone_servedQ :
    servedQ.Undone none directoryD deviceD resourceR ⟨purlP, 30, false, 0⟩ := by
  have made : start.newRefresherPoint none directoryD deviceD resourceR ⟨.ofBytes [0x71], 60, false,
      0⟩ = some servedQ :=
    rfl
  refine (undone_iff (Partition.start.newRefresherPoint made) none directoryD deviceD resourceR
    ⟨purlP, 30, false, 0⟩ ?_).mpr
    ⟨rfl, .inl ⟨0, _, rfl, rfl, rfl, by decide, RefresherPoint.isLeast_iff.mpr rfl⟩⟩
  rintro ⟨id, point, live, -, -, watched⟩
  cases id with
  | zero =>
    cases live
    exact absurd watched (by decide)
  | succ other => cases live

/-- The agent is `"gw"`: the device `"gw_d"` is not found again, and an unknown device leaves the
address of its point in the waiting list. -/
theorem undone_globalId_fails : ¬start.Undone (some (.ofBytes [0x67, 0x77])) directoryD
      (.ofBytes [0x67, 0x77, 0x5F, 0x64]) resourceR ⟨purlP, 30, false, 0⟩ ∧
    ¬start.Undone none .start deviceD resourceR ⟨purlP, 30, false, 0⟩ := by
  constructor
  · rintro ⟨made, next, isMade, deleted, -⟩
    obtain rfl := some.inj isMade
    cases deleted
  · rintro ⟨made, next, isMade, deleted, same⟩
    obtain rfl := some.inj isMade
    cases deleted
    cases same.waitingList

end Refresher

end Idrm.Devices
