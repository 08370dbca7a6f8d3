import Idrm.Devices.Partition
import Idrm.Lib.Arrival

/-!
# The schedule of the refresher

`GetNearExpiry` takes the first point of the active list that is not being read; the agent
sleeps until then. The list is in the order of expiry throughout, and points of one expiry
stand in the order in which `AddResOrder` got them. For this the run keeps a log of what
`AddResOrder` got.
-/

namespace Idrm.Devices

open Idrm.Lib Function Option List

namespace Refresher

/-- The calls that date points and put them in order. -/
inductive ScheduleEvent where
  | newRefresherPoint (agentId : Option CString) (directory : Directory) (device resource : CString)
      (para : RefresherPoint.FresherPara)
  | handleClientStatus (client : Client) (online : Bool)
  | onDataPoint (now : UInt64) (notified : UInt32) (device uri : CString) (payloadLen : Nat)
  | setExpiry (timeout : Int32) (now : UInt64) (id : Nat)
  | runRefresh (now : UInt64) (silent : Nat → Bool) (read : Nat → Int32)

/-- One call. -/
def schedule : ScheduleEvent → Refresher → Option Refresher
  | .newRefresherPoint agentId directory device resource para, refresher =>
    refresher.newRefresherPoint agentId directory device resource para
  | .handleClientStatus client online, refresher => refresher.handleClientStatus client online
  | .onDataPoint now notified device uri payloadLen, refresher =>
    refresher.onDataPoint now notified device uri payloadLen
  | .setExpiry timeout now id, refresher => refresher.setExpiryTo timeout now id
  | .runRefresh now silent read, refresher => refresher.runRefresh now silent read

/-- `RunRefresh` reads the point. -/
def dueAt (now : UInt64) (point : RefresherPoint) : Bool :=
  point.readInProgress = false ∧ point.valExpiry ≤ now

/-- The points that a call hands to `AddResOrder`, one after another. -/
def handed : ScheduleEvent → Refresher → List Nat
  | .newRefresherPoint agentId directory device resource _, refresher =>
    let device := Directory.tryUseLocalId agentId device
    if refresher.findPoint resource device = some none ∧ (directory.findClient device).isSome then
      [refresher.newPoint]
    else []
  | .handleClientStatus client online, refresher =>
    if online then
      refresher.waitingList.filter fun id => (refresher.points id).any fun point =>
        client.hasId point.clientId
    else []
  | .onDataPoint _ _ device uri _, refresher =>
    ((refresher.findRes uri device refresher.expiredResList).getD none).toList
  | .setExpiry _ _ id, _ => [id]
  | .runRefresh now _ _, refresher =>
    refresher.expiredResList.filter fun id => (refresher.points id).any (dueAt now)

/-- One call, with the log of what `AddResOrder` got. -/
def scheduleLogged (event : ScheduleEvent) (state : List Nat × Refresher) :
    Option (List Nat × Refresher) :=
  (schedule event state.2).map (state.1 ++ handed event state.2, ·)

/-- `SetExpiry` is called for points of the active list: `OnDataPoint` finds the point
there, and `RunRefresh` collects its points from there. -/
def Called (state : List Nat × Refresher) : ScheduleEvent → Prop
  | .setExpiry _ _ id => id ∈ state.2.expiredResList
  | _ => True

/-- `RunRefresh`'s own assertion: no point is read twice in a second. -/
def ClockMoved (refresher : Refresher) : ScheduleEvent → Prop
  | .runRefresh now _ _ => ∀ id ∈ refresher.expiredResList, ∀ point,
      refresher.points id = some point → dueAt now point = true → point.lastReadTime < now
  | _ => True

/-- What the active list is sorted by. -/
def expiryOf (refresher : Refresher) (id : Nat) : Nat :=
  ((refresher.points id).map (·.valExpiry.toNat)).getD 0

/-- The active list is in order, as far as it goes. -/
structure Listed (log : List Nat) (refresher : Refresher) : Prop where
  ordered : InOrder refresher.expiryOf log refresher.expiredResList
  arrived : ∀ id ∈ refresher.expiredResList, id ∈ log
  steady : ∀ id point, refresher.points id = some point → point.readFails = 0

section Listed

variable {refresher next : Refresher} {log : List Nat} {id : Nat} {old point : RefresherPoint}

theorem expiryOf_live (live : refresher.points id = some point) :
    refresher.expiryOf id = point.valExpiry.toNat := by
  rw [expiryOf, live]
  rfl

theorem expiryOf_congr (same : next.points id = refresher.points id) :
    next.expiryOf id = refresher.expiryOf id := by
  rw [expiryOf, same]
  rfl

/-- Points leave the list, and those that stay keep their expiry. -/
theorem Listed.leave (listed : Listed log refresher)
    (stay : next.expiredResList.Sublist refresher.expiredResList)
    (expiry : ∀ id ∈ next.expiredResList, next.expiryOf id = refresher.expiryOf id)
    (steady : ∀ id point, next.points id = some point → point.readFails = 0) : Listed log next :=
  ⟨(listed.ordered.sublist stay).congr expiry,
    fun id member => listed.arrived id (stay.subset member), steady⟩

/-- A point is written; if it is listed, it keeps its expiry. -/
theorem Listed.write (listed : Listed log refresher)
    (points : next.points = update refresher.points id (some point))
    (readFails : point.readFails = 0) (stay : next.expiredResList.Sublist refresher.expiredResList)
    (dated : id ∈ next.expiredResList → point.valExpiry.toNat = refresher.expiryOf id) :
    Listed log next := by
  refine listed.leave stay ?_ ?_
  · intro other member
    by_cases same : other = id
    · subst same
      rw [expiryOf_live (show next.points other = some point by rw [points, update_self]),
        dated member]
    · exact expiryOf_congr (by rw [points, update_of_ne same])
  · intro other otherPoint live
    rw [points] at live
    by_cases same : other = id
    · rw [same, update_self] at live
      rw [← some.inj live]
      exact readFails
    · rw [update_of_ne same] at live
      exact listed.steady other otherPoint live

/-- `AddResOrder`'s search for the place. -/
theorem insertOrder_eq (live : refresher.points id = some point) {list : List Nat}
    (lives : ∀ other ∈ list, ∃ content, refresher.points other = some content) :
    insertOrder refresher point.valExpiry id list = some (list.orderedInsert
      (fun one other => refresher.expiryOf one < refresher.expiryOf other) id) := by
  induction list with
  | nil => rfl
  | cons other rest ih =>
    obtain ⟨content, isContent⟩ := lives other mem_cons_self
    have later := ih fun other member => lives other (mem_cons_of_mem _ member)
    have compare : point.valExpiry < content.valExpiry ↔
        refresher.expiryOf id < refresher.expiryOf other := by
      rw [expiryOf_live live, expiryOf_live isContent]
      exact UInt64.lt_iff_toNat_lt
    rw [orderedInsert_cons, insertOrder, isContent]
    simp only [bind_eq_bind, bind_some, compare, later, map_some]
    split
    · rfl
    · rfl

/-- `AddResOrder` has a result for an active point that is not listed, and keeps the order. -/
theorem Listed.addResOrder (listed : Listed log refresher) (live : refresher.points id = some point)
    (active : point.waiting = false) (absent : id ∉ refresher.expiredResList)
    (lives : ∀ other ∈ refresher.expiredResList, ∃ content, refresher.points other = some content) :
    ∃ next, refresher.addResOrder id = some next ∧ Listed (log ++ [id]) next ∧
      next.points = update refresher.points id (some { point with hasParent := true }) := by
  let list := refresher.expiredResList.orderedInsert
    (fun one other => refresher.expiryOf one < refresher.expiryOf other) id
  have inserted : Listed (log ++ [id]) { refresher with expiredResList := list } := by
    refine ⟨listed.ordered.insert absent listed.arrived, ?_, listed.steady⟩
    intro other member
    rcases (mem_orderedInsert _).mp member with rfl | member
    · exact mem_append_right _ mem_cons_self
    · exact mem_append_left _ (listed.arrived other member)
  refine ⟨{ setPoint id { point with hasParent := true } refresher with expiredResList := list },
    ?_, ?_, rfl⟩
  · simp only [Refresher.addResOrder, live, bind_eq_bind, bind_some, active, Bool.false_eq_true,
      if_false, insertOrder_eq live lives, list]
  · refine inserted.write rfl (listed.steady id point live) (.refl _) fun _ => ?_
    exact (expiryOf_live live).symm

end Listed

/-! ## Calls -/

section Calls

variable {refresher next : Refresher} {log : List Nat} {id : Nat} {point : RefresherPoint}
  {resource device : CString}

theorem Partition.lives (partition : Partition refresher) :
    ∀ id ∈ refresher.expiredResList, ∃ point, refresher.points id = some point :=
  fun id member => ((partition.expired id).mp member).imp fun _ live => live.1

theorem Partition.livesWaiting (partition : Partition refresher) :
    ∀ id ∈ refresher.waitingList, ∃ point, refresher.points id = some point :=
  fun id member => ((partition.waiting id).mp member).imp fun _ live => live.1

theorem findRes_total (resource device : CString) {list : List Nat}
    (lives : ∀ id ∈ list, ∃ point, refresher.points id = some point) :
    ∃ found, refresher.findRes resource device list = some found := by
  induction list with
  | nil => exact ⟨none, rfl⟩
  | cons first rest ih =>
    obtain ⟨point, live⟩ := lives first mem_cons_self
    rw [findRes, live]
    simp only [bind_eq_bind, bind_some]
    split
    · exact ⟨some first, rfl⟩
    · exact ih fun id member => lives id (mem_cons_of_mem _ member)

theorem findPoint_total (partition : Partition refresher) (resource device : CString) :
    ∃ found, refresher.findPoint resource device = some found := by
  obtain ⟨active, searched⟩ := findRes_total resource device partition.lives
  rw [findPoint, searched]
  cases active with
  | some id => exact ⟨some id, rfl⟩
  | none => exact findRes_total _ _ partition.livesWaiting

/-- The points of a list live where one that is not in it is written. -/
theorem lives_update {points : Nat → Option RefresherPoint} {list : List Nat}
    (lives : ∀ other ∈ list, ∃ content, points other = some content)
    (absent : id ∉ list) (new : Option RefresherPoint) :
    ∀ other ∈ list, ∃ content, update points id new other = some content := by
  intro other member
  obtain ⟨content, live⟩ := lives other member
  have different : other ≠ id := fun same => absent (same ▸ member)
  exact ⟨content, (update_of_ne different ..).trans live⟩

/-- No point has the number of the next one. -/
theorem Partition.absent_newPoint (partition : Partition refresher) :
    refresher.points refresher.newPoint = none := by
  cases live : refresher.points refresher.newPoint with
  | none => rfl
  | some point => exact absurd (partition.fresh _ point live) (lt_irrefl _)

theorem Partition.unlisted_newPoint (partition : Partition refresher) :
    refresher.newPoint ∉ refresher.expiredResList := by
  intro member
  obtain ⟨point, live⟩ := partition.lives _ member
  rw [partition.absent_newPoint] at live
  cases live

/-- `SetExpiry` has a result for a listed point. -/
theorem Listed.setExpiryTo (listed : Listed log refresher)
    (partition : Partition refresher) (timeout : Int32) (now : UInt64)
    (member : id ∈ refresher.expiredResList) (live : refresher.points id = some point) :
    ∃ next, refresher.setExpiryTo timeout now id = some next ∧ Listed (log ++ [id]) next ∧
    next.points = update refresher.points id (some { point with
        valExpiry := if timeout = -1 then point.nextExpiry now else now + timeout.toInt64.toUInt64
        hasParent := true }) := by
  have active := (partition.mem_expired live).mp member
  have parent := partition.parent id point live active
  generalize dated :
    (if timeout = -1 then point.nextExpiry now else now + timeout.toInt64.toUInt64) = expiry
  -- The point as it is between `RemoveRes` and `AddResOrder`.
  let apart : Refresher :=
    { setPoint id { point with valExpiry := expiry, hasParent := false } refresher with
    expiredResList := refresher.expiredResList.filter (· ≠ id) }
  have absent : id ∉ apart.expiredResList := fun member => by simpa using (mem_filter.mp member).2
  have listedApart : Listed log apart :=
    listed.write rfl (listed.steady id point live) filter_sublist fun member => absurd member absent
  have livesApart : ∀ other ∈ apart.expiredResList, ∃ content, apart.points other = some content :=
    lives_update (fun other member => partition.lives other (mem_filter.mp member).1) absent _
  obtain ⟨next, added, kept, points⟩ :=
    listedApart.addResOrder setPoint_here active absent livesApart
  refine ⟨next, ?_, kept, ?_⟩
  · have removed :
        removeRes id (setPoint id { point with valExpiry := expiry } refresher) = some apart := by
      simp only [removeRes, Refresher.setPoint, update_self, update_idem, bind_eq_bind,
        bind_some, apart]
    have awake : ¬point.waiting = true := by rw [active]; exact Bool.false_ne_true
    simp only [Refresher.setExpiryTo, live, bind_eq_bind, bind_some, dated]
    rw [if_neg awake, if_pos parent, removed]
    exact added
  · rw [points]
    exact update_idem ..

/-- `OnDataPoint` has a result, and dates the point it finds. -/
theorem Listed.onDataPoint {now : UInt64} {notified : UInt32} {uri : CString} {payloadLen : Nat}
    (listed : Listed log refresher) (partition : Partition refresher) :
    ∃ next, refresher.onDataPoint now notified device uri payloadLen = some next ∧
      Listed (log ++ handed (.onDataPoint now notified device uri payloadLen) refresher) next := by
  obtain ⟨found, searched⟩ := findRes_total uri device partition.lives
  rw [Refresher.onDataPoint, handed, searched]
  simp only [bind_eq_bind, bind_some, getD_some]
  cases found with
  | none => exact ⟨refresher, rfl, by simpa using listed⟩
  | some id =>
    obtain ⟨member, point, live, -⟩ := findRes_some searched
    simp only [live, bind_some]
    generalize read :
      (if payloadLen = 0 then point else { point with lastNotified := notified }) = notifiedPoint
    have alike : Alike point notifiedPoint := by
      rw [← read]
      split
      · exact .refl point
      · exact ⟨⟨rfl, rfl⟩, rfl, rfl⟩
    have unchanged : notifiedPoint.valExpiry = point.valExpiry ∧
        notifiedPoint.readFails = point.readFails := by
      rw [← read]
      split
      · exact ⟨rfl, rfl⟩
      · exact ⟨rfl, rfl⟩
    have written : Listed log (Refresher.setPoint id notifiedPoint refresher) := by
      refine listed.write rfl ?_ (.refl _) fun _ => ?_
      · rw [unchanged.2]
        exact listed.steady id point live
      · rw [unchanged.1, expiryOf_live live]
    obtain ⟨next, set, kept, -⟩ :=
      written.setExpiryTo (partition.setPoint live alike) (-1) now member setPoint_here
    exact ⟨next, set, kept⟩

/-! ### RunRefresh -/

variable {now : UInt64} {silent : Nat → Bool} {read : Nat → Int32}

/-- Every listed point counts on for some time. -/
def Lasting (refresher : Refresher) : Prop :=
  ∀ id ∈ refresher.expiredResList, ∀ point, refresher.points id = some point →
    0 < point.valueLifetime

theorem lasting_of_all (all : (refresher.expiredResList.all fun id =>
    (refresher.points id).all fun point => decide (0 < point.valueLifetime)) = true) :
      Lasting refresher := by
  intro id member point live
  have lasts := List.all_eq_true.mp all id member
  rw [live] at lasts
  exact of_decide_eq_true lasts

/-- The walk that reads the points due, with those collected and those to come. -/
structure Reads (log : List Nat) (before : Refresher) (now : UInt64) (rest : List Nat)
    (state : List Nat × Refresher) : Prop where
  partition : Partition state.2
  listed : Listed log state.2
  list : state.2.expiredResList = before.expiredResList
  split : ∃ front, before.expiredResList = front ++ rest ∧
    state.1 = front.filter fun id => (before.points id).any (dueAt now)
  untouched : ∀ id, id ∉ state.1 → state.2.points id = before.points id
  lasting : Lasting before → Lasting state.2

theorem Reads.start (listed : Listed log refresher) (partition : Partition refresher) :
    Reads log refresher now refresher.expiredResList ([], refresher) :=
  ⟨partition, listed, rfl, ⟨[], rfl, rfl⟩, fun _ _ => rfl, id⟩

variable {rest : List Nat}

/-- The point that comes next is listed and as it was. -/
theorem Reads.head {state : List Nat × Refresher}
    (reads : Reads log refresher now (id :: rest) state) :
    id ∈ refresher.expiredResList ∧ id ∉ state.1 ∧ ∃ point, state.2.points id = some point ∧
    refresher.points id = some point := by
  obtain ⟨front, whole, collected⟩ := reads.split
  have once : refresher.expiredResList.Nodup := reads.list ▸ reads.partition.expiredOnce
  have member : id ∈ refresher.expiredResList := by
    rw [whole]
    exact mem_append_right _ mem_cons_self
  have outside : id ∉ state.1 := by
    rw [whole] at once
    rw [collected]
    intro inside
    exact (nodup_append.mp once).2.2 id (mem_of_mem_filter inside) id mem_cons_self rfl
  obtain ⟨point, live⟩ := reads.partition.lives id (reads.list ▸ member)
  exact ⟨member, outside, point, live, (reads.untouched id outside).symm.trans live⟩

theorem Reads.step {state after : List Nat × Refresher}
    (reads : Reads log refresher now (id :: rest) state)
    (stepped : refreshPoint now silent read state id = some after) :
    Reads log refresher now rest after := by
  have partition := reads.partition.refreshPoint stepped
  obtain ⟨member, outside, point, live, before⟩ := reads.head
  obtain ⟨front, whole, collected⟩ := reads.split
  have whole :
    refresher.expiredResList = (front ++ [id]) ++ rest := by rw [whole, append_assoc]; rfl
  rw [refreshPoint, live] at stepped
  simp only [bind_eq_bind, bind_some] at stepped
  split at stepped
  · rename_i due
    split at stepped
    · cases stepped
    obtain rfl := some.inj stepped
    refine ⟨partition, ?_, reads.list, ⟨_, whole, ?_⟩, ?_, ?_⟩
    · refine reads.listed.write rfl (reads.listed.steady id point live) (.refl _) fun _ => ?_
      exact (expiryOf_live live).symm
    · rw [filter_append, collected]
      simp [before, dueAt, due]
    · intro other different
      obtain ⟨notBefore, notHere⟩ := not_or.mp (mem_append.not.mp different)
      have apart : other ≠ id := fun same => notHere (mem_singleton.mpr same)
      exact (update_of_ne apart ..).trans (reads.untouched other notBefore)
    · intro lasting other listed content isContent
      by_cases same : other = id
      · subst same
        obtain rfl := some.inj (setPoint_here.symm.trans isContent)
        exact reads.lasting lasting other listed point live
      · exact reads.lasting lasting other listed content
          ((update_of_ne same ..).symm.trans isContent)
  · rename_i notDue
    obtain rfl := some.inj stepped
    refine ⟨partition, reads.listed, reads.list, ⟨_, whole, ?_⟩, reads.untouched, reads.lasting⟩
    rw [filter_append, collected]
    simp [before, dueAt, notDue]

/-- The walk has a result where no point was read in this second already. -/
theorem Reads.total {state : List Nat × Refresher}
    (reads : Reads log refresher now (id :: rest) state)
    (moved : ClockMoved refresher (.runRefresh now silent read)) :
    ∃ after, refreshPoint now silent read state id = some after := by
  obtain ⟨member, _, point, live, before⟩ := reads.head
  rw [refreshPoint, live]
  simp only [bind_eq_bind, bind_some]
  split
  · rename_i due
    have earlier := moved id member point before (by simpa [dueAt] using due)
    rw [if_neg (UInt64.not_le.mpr earlier)]
    exact ⟨_, rfl⟩
  · exact ⟨_, rfl⟩

/-- What the first walk leaves: the points collected are those that were due. -/
theorem Reads.done {due : List Nat}
    {refreshed : Refresher} (reads : Reads log refresher now [] (due, refreshed))
    (silent : Nat → Bool) (read : Nat → Int32) :
    due = handed (.runRefresh now silent read) refresher ∧
    (∀ id ∈ due, id ∈ refreshed.expiredResList) ∧
    ∀ id ∈ refreshed.expiredResList, id ∉ due → ∀ point, refreshed.points id = some point →
    point.readInProgress = false → now < point.valExpiry := by
  obtain ⟨front, whole, collected⟩ := reads.split
  rw [append_nil] at whole
  rw [← whole] at collected
  have collected : due = handed (.runRefresh now silent read) refresher := collected
  refine ⟨collected, fun id member => ?_, fun id member outside point live idle => ?_⟩
  · rw [reads.list]
    rw [collected] at member
    exact mem_of_mem_filter member
  · rw [reads.untouched id outside] at live
    rw [reads.list] at member
    rw [collected] at outside
    refine UInt64.not_le.mp fun due => outside (mem_filter.mpr ⟨member, ?_⟩)
    simp [live, dueAt, idle, due]

/-- The loop that dates the points read, with those dated and those to come. -/
structure Dates (log : List Nat) (rest : List Nat) (state : Refresher) : Prop where
  partition : Partition state
  listed : Listed log state
  listedRest : ∀ id ∈ rest, id ∈ state.expiredResList

/-- `SetExpiry` of the point that comes next has a result. -/
theorem Dates.step (dates : Dates log (id :: rest) refresher) (now : UInt64) :
    ∃ next point, refresher.setExpiry now id = some next ∧ Dates (log ++ [id]) rest next ∧
      refresher.points id = some point ∧ id ∈ refresher.expiredResList ∧
      next.points = update refresher.points id
        (some { point with valExpiry := point.nextExpiry now, hasParent := true }) := by
  have member := dates.listedRest id mem_cons_self
  obtain ⟨point, live, active⟩ := (dates.partition.expired id).mp member
  obtain ⟨next, set, kept, points⟩ :=
    dates.listed.setExpiryTo dates.partition (-1) now member live
  have partition := dates.partition.setExpiry set
  refine ⟨next, point, set, ⟨partition, kept, fun other later => ?_⟩, live, member, points⟩
  obtain ⟨content, isContent, awake⟩ :=
    (dates.partition.expired other).mp (dates.listedRest other (mem_cons_of_mem _ later))
  rw [partition.expired other, points]
  by_cases same : other = id
  · rw [same, update_self]
    exact ⟨_, rfl, active⟩
  · rw [update_of_ne same]
    exact ⟨content, isContent, awake⟩

/-- The loop has a result. -/
theorem Dates.total {due : List Nat} (dates : Dates log due refresher) (now : UInt64) :
    ∃ next, due.foldlM (fun refresher id => refresher.setExpiry now id) refresher = some next ∧
      Dates (log ++ due) [] next := by
  induction due generalizing log refresher with
  | nil => exact ⟨refresher, rfl, by simpa using dates⟩
  | cons id rest ih =>
    obtain ⟨midway, point, set, onward, -⟩ := dates.step now
    obtain ⟨next, ran, kept⟩ := ih onward
    refine ⟨next, ?_, by simpa using kept⟩
    rw [foldlM_cons, set]
    exact ran

/-- `RunRefresh` has a result where its own assertion holds, and puts the points it read in
their new places. -/
theorem Listed.runRefresh (listed : Listed log refresher) (partition : Partition refresher)
    (moved : ClockMoved refresher (.runRefresh now silent read)) :
    ∃ next, refresher.runRefresh now silent read = some next := by
  obtain ⟨⟨due, refreshed⟩, walked, reads⟩ := foldlM_total
    (fun rest state => Reads log refresher now rest state)
    (fun reads => by
      obtain ⟨after, stepped⟩ := reads.total moved
      exact ⟨after, stepped, reads.step stepped⟩)
    (Reads.start listed partition)
  have dates : Dates log due refreshed :=
    ⟨reads.partition, reads.listed, (reads.done silent read).2.1⟩
  obtain ⟨next, dated, -⟩ := dates.total now
  exact ⟨next, by rw [Refresher.runRefresh, walked]; exact dated⟩

theorem Listed.after_runRefresh (listed : Listed log refresher) (partition : Partition refresher)
    (ran : refresher.runRefresh now silent read = some next) :
    Listed (log ++ handed (.runRefresh now silent read) refresher) next := by
  obtain ⟨⟨due, refreshed⟩, walked, set⟩ := bind_eq_some_iff.mp ran
  have reads : Reads log refresher now [] (due, refreshed) :=
    foldlM_walk (Reads log refresher now) Reads.step walked (Reads.start listed partition)
  have dates : Dates log due refreshed :=
    ⟨reads.partition, reads.listed, (reads.done silent read).2.1⟩
  obtain ⟨reached, dated, kept⟩ := dates.total now
  obtain rfl := some.inj (dated.symm.trans set)
  rw [← (reads.done silent read).1]
  exact kept.listed

/-- Every listed point that is neither being read nor to come expires after `now`. -/
def Ahead (now : UInt64) (rest : List Nat) (refresher : Refresher) : Prop :=
  ∀ id ∈ refresher.expiredResList, id ∉ rest → ∀ point, refresher.points id = some point →
    point.readInProgress = false → now < point.valExpiry

theorem lt_add_of_positive {lifetime : Int32} (clock : now ≤ 0x7FFFFFFFFFFFFFFF)
    (positive : 0 < lifetime) : now < now + lifetime.toInt64.toUInt64 := by
  have clock : now.toNat ≤ 0x7FFFFFFFFFFFFFFF := UInt64.le_iff_toNat_le.mp clock
  have low : 0 < lifetime.toInt := Int32.lt_iff_toInt_lt.mp positive
  have high := lifetime.toInt_lt
  have value : lifetime.toInt64.toUInt64.toNat = lifetime.toInt.toNat := by
    have nonnegative : 0 ≤ lifetime.toInt64 := by
      rw [Int64.le_iff_toInt_le, Int32.toInt_toInt64]
      exact low.le
    rw [Int64.toNat_toUInt64_of_le nonnegative]
    exact congrArg Int.toNat lifetime.toInt_toInt64
  rw [UInt64.lt_iff_toNat_lt, UInt64.toNat_add, value]
  omega

/-- A point that was never read in vain expires a lifetime after `now`. -/
theorem nextExpiry_of_steady (steady : point.readFails = 0) :
    point.nextExpiry now = now + point.valueLifetime.toInt64.toUInt64 := by
  rw [RefresherPoint.nextExpiry, steady]
  rfl

theorem Dates.ahead {due : List Nat} (dates : Dates log due refresher)
    (clock : now ≤ 0x7FFFFFFFFFFFFFFF)
    (lasting : Lasting refresher) (ahead : Ahead now due refresher)
    (ran : due.foldlM (fun refresher id => refresher.setExpiry now id) refresher = some next) :
    Ahead now [] next := by
  induction due generalizing log refresher with
  | nil =>
    obtain rfl := some.inj ran
    exact ahead
  | cons id rest ih =>
    obtain ⟨midway, point, set, onward, live, member, points⟩ := dates.step now
    rw [foldlM_cons, set] at ran
    have positive := lasting id member point live
    have others : ∀ other, other ≠ id → midway.points other = refresher.points other := by
      intro other different
      rw [points, update_of_ne different]
    have here : midway.points id =
        some { point with valExpiry := point.nextExpiry now, hasParent := true } := by
      rw [points, update_self]
    have listedBefore : ∀ other ∈ midway.expiredResList, other ≠ id →
        other ∈ refresher.expiredResList := by
      intro other listed different
      rw [onward.partition.expired, others other different] at listed
      exact (dates.partition.expired other).mpr listed
    refine ih onward ?_ ?_ ran
    · intro other listed content isContent
      by_cases same : other = id
      · rw [same, here] at isContent
        obtain rfl := some.inj isContent
        exact positive
      · rw [others other same] at isContent
        exact lasting other (listedBefore other listed same) content isContent
    · intro other listed outside content isContent idle
      by_cases same : other = id
      · rw [same, here] at isContent
        obtain rfl := some.inj isContent
        rw [nextExpiry_of_steady (dates.listed.steady id point live)]
        exact lt_add_of_positive clock positive
      · rw [others other same] at isContent
        refine ahead other (listedBefore other listed same) ?_ content isContent idle
        rw [mem_cons]
        rintro (here | later)
        · exact same here
        · exact outside later

/-- After `RunRefresh` everything that is not being read expires later. -/
theorem Listed.ahead (listed : Listed log refresher) (partition : Partition refresher)
    (clock : now ≤ 0x7FFFFFFFFFFFFFFF) (lasting : Lasting refresher)
    (ran : refresher.runRefresh now silent read = some next) : Ahead now [] next := by
  obtain ⟨⟨due, refreshed⟩, walked, set⟩ := bind_eq_some_iff.mp ran
  have reads : Reads log refresher now [] (due, refreshed) :=
    foldlM_walk (Reads log refresher now) Reads.step walked (Reads.start listed partition)
  obtain ⟨-, listedDue, ahead⟩ := reads.done silent read
  have dates : Dates log due refreshed := ⟨reads.partition, reads.listed, listedDue⟩
  exact dates.ahead clock (reads.lasting lasting) ahead set

/-! ### Devices that come and go -/

/-- A device goes online, with its points handed over and those to come. -/
structure Wakes (client : Client) (log : List Nat) (before : Refresher) (rest : List Nat)
    (state : Refresher) : Prop where
  walks : Walks waitingList rest state
  split : ∃ front, before.waitingList = front ++ rest ∧ Listed (log ++ front.filter fun id =>
    (before.points id).any fun point => client.hasId point.clientId) state
  untouched : ∀ id ∈ rest, state.points id = before.points id

theorem Wakes.step {client : Client} {state : Refresher}
    (wakes : Wakes client log refresher (id :: rest) state) :
    ∃ after, goOnline client state id = some after ∧ Wakes client log refresher rest after := by
  have partition := wakes.walks.partition
  obtain ⟨point, live, waits⟩ := (partition.waiting id).mp (wakes.walks.listed id mem_cons_self)
  obtain ⟨front, whole, listed⟩ := wakes.split
  have whole : refresher.waitingList = (front ++ [id]) ++ rest := by rw [whole, append_assoc]; rfl
  have before : refresher.points id = some point :=
    (wakes.untouched id mem_cons_self).symm.trans live
  have later : ∀ other ∈ rest, other ≠ id := by
    rintro other member rfl
    exact (nodup_cons.mp wakes.walks.once).1 member
  by_cases known : client.hasId point.clientId = true
  · let woken := RefresherPoint.associate client { point with valExpiry := 0, waiting := false }
    let apart : Refresher :=
      { setPoint id woken state with waitingList := state.waitingList.erase id }
    have alike := associate_alike client { point with valExpiry := 0, waiting := false }
    have steady : woken.readFails = 0 := by
      obtain ⟨associated, property, same⟩ :=
        associate_eq client { point with valExpiry := 0, waiting := false }
      simp only [woken, same]
      exact listed.steady id point live
    have absent : id ∉ apart.expiredResList := by
      rw [show apart.expiredResList = state.expiredResList from rfl,
        partition.mem_expired live, waits]
      exact Bool.true_eq_false.mp
    have written : apart.points = update state.points id (some woken) := rfl
    have listedApart := listed.write written steady (.refl _) fun member => absurd member absent
    have lives : ∀ other ∈ apart.expiredResList, ∃ content, apart.points other = some content :=
      lives_update partition.lives absent _
    obtain ⟨after, added, kept, points⟩ :=
      listedApart.addResOrder setPoint_here alike.waiting absent lives
    have went : goOnline client state id = some after := by
      simp only [goOnline, live, bind_eq_bind, bind_some]
      rw [if_pos known]
      exact added
    refine ⟨after, went, goOnline_walks wakes.walks went, ⟨_, whole, ?_⟩, ?_⟩
    · have handedOver : [id].filter (fun id => (refresher.points id).any fun point =>
          client.hasId point.clientId) = [id] := by
        simp [before, known]
      rw [filter_append, handedOver, ← append_assoc]
      exact kept
    · intro other member
      rw [points, update_of_ne (later other member)]
      refine (update_of_ne (later other member) ..).trans ?_
      exact wakes.untouched other (mem_cons_of_mem _ member)
  · have went : goOnline client state id = some state := by
      simp only [goOnline, live, bind_eq_bind, bind_some]
      rw [if_neg known]
    refine ⟨state, went, goOnline_walks wakes.walks went, ⟨_, whole, ?_⟩, ?_⟩
    · have handedOver : [id].filter
          (fun id => (refresher.points id).any fun point => client.hasId point.clientId) = [] := by
        simp [before, known]
      rw [filter_append, handedOver, append_nil]
      exact listed
    · exact fun other member => wakes.untouched other (mem_cons_of_mem _ member)

/-- A point of the active list goes to sleep. -/
theorem Listed.goOffline {client : Client} (listed : Listed log refresher)
    (walks : Walks expiredResList (id :: rest) refresher) :
    ∃ next, goOffline client refresher id = some next ∧ Listed log next ∧
    Walks expiredResList rest next := by
  obtain ⟨point, live, _⟩ := (walks.partition.expired id).mp (walks.listed id mem_cons_self)
  by_cases known : client.hasId point.clientId = true
  · let asleep : Refresher := { setPoint id { point with waiting := true } refresher with
      expiredResList := refresher.expiredResList.erase id
      waitingList := refresher.waitingList ++ [id] }
    have went : Refresher.goOffline client refresher id = some asleep := by
      simp only [Refresher.goOffline, live, bind_eq_bind, bind_some]
      rw [if_pos known]
    refine ⟨asleep, went, ?_, goOffline_walks walks went⟩
    refine listed.write rfl (listed.steady id point live) erase_sublist fun _ => ?_
    exact (expiryOf_live live).symm
  · have went : Refresher.goOffline client refresher id = some refresher := by
      simp only [Refresher.goOffline, live, bind_eq_bind, bind_some]
      rw [if_neg known]
    exact ⟨refresher, went, listed, goOffline_walks walks went⟩

theorem Listed.handleClientStatus {client : Client} {online : Bool} (listed : Listed log refresher)
    (partition : Partition refresher) :
    ∃ next, refresher.handleClientStatus client online = some next ∧
      Listed (log ++ handed (.handleClientStatus client online) refresher) next := by
  cases online with
  | true =>
    have wakes : Wakes client log refresher refresher.waitingList refresher :=
      ⟨⟨partition, partition.waitingOnce, fun _ member => member⟩,
        ⟨[], rfl, by simpa using listed⟩, fun _ _ => rfl⟩
    obtain ⟨next, went, woken⟩ := foldlM_total (Wakes client log refresher) Wakes.step wakes
    obtain ⟨front, whole, kept⟩ := woken.split
    rw [append_nil] at whole
    rw [← whole] at kept
    exact ⟨next, went, kept⟩
  | false =>
    obtain ⟨next, went, kept, -⟩ := foldlM_total
      (fun rest state => Listed log state ∧ Walks expiredResList rest state)
      (fun ⟨listed, walks⟩ => listed.goOffline walks)
      (⟨listed, partition, partition.expiredOnce, fun _ member => member⟩ :
        Listed log refresher ∧ Walks expiredResList refresher.expiredResList refresher)
    refine ⟨next, went, ?_⟩
    rw [show handed (.handleClientStatus client false) refresher = [] from rfl, append_nil]
    exact kept

/-! ### New points -/

theorem addMonitor_dates (monitor : UInt32) (para : RefresherPoint.FresherPara)
    (point : RefresherPoint) : (point.addMonitor monitor para).valExpiry = point.valExpiry ∧
    (point.addMonitor monitor para).readFails = point.readFails := by
  have removed : (point.removeMonitor para.publishPoint).valExpiry = point.valExpiry ∧
      (point.removeMonitor para.publishPoint).readFails = point.readFails := by
    unfold RefresherPoint.removeMonitor
    split
    · exact ⟨rfl, rfl⟩
    · exact ⟨rfl, rfl⟩
  unfold RefresherPoint.addMonitor
  simp only
  split
  · exact removed
  · exact removed

/-- A monitor more changes no date. -/
theorem Listed.addMonitor (listed : Listed log refresher) (para : RefresherPoint.FresherPara)
    (live : refresher.points id = some point) :
    ∃ next, refresher.addMonitor para id = some next ∧ Listed log next := by
  obtain ⟨valExpiry, readFails⟩ := addMonitor_dates refresher.newMonitor para point
  refine ⟨{ setPoint id (point.addMonitor refresher.newMonitor para) refresher with
    newMonitor := refresher.newMonitor + 1 }, ?_, ?_⟩
  · rw [Refresher.addMonitor, live]
    rfl
  · refine listed.write rfl ?_ (.refl _) fun _ => ?_
    · rw [readFails]
      exact listed.steady id point live
    · rw [valExpiry, expiryOf_live live]

theorem Listed.createPoint (listed : Listed log refresher) (partition : Partition refresher)
    (directory : Directory) (device resource : CString) :
    ∃ id next point, refresher.createPoint directory device resource = some (id, next) ∧
    next.points id = some point ∧ Listed
      (log ++ if (directory.findClient device).isSome then [refresher.newPoint] else []) next := by
  have unlisted := partition.unlisted_newPoint
  unfold Refresher.createPoint
  cases known : directory.findClient device with
  | none =>
    refine ⟨refresher.newPoint, _, .new device resource, rfl, setPoint_here, ?_⟩
    rw [if_neg (by simp), append_nil]
    exact listed.write rfl rfl (.refl _) fun member => absurd member unlisted
  | some client =>
    let made : RefresherPoint :=
      { (RefresherPoint.new device resource).associate client with waiting := false }
    let apart := setPoint refresher.newPoint made
      { refresher with newPoint := refresher.newPoint + 1 }
    have steady : made.readFails = 0 := by
      obtain ⟨associated, property, same⟩ :=
        associate_eq client (RefresherPoint.new device resource)
      simp only [made, same]
      rfl
    have listedApart : Listed log apart :=
      listed.write rfl steady (.refl _) fun member => absurd member unlisted
    have lives : ∀ other ∈ apart.expiredResList, ∃ content, apart.points other = some content :=
      lives_update partition.lives unlisted _
    obtain ⟨next, added, kept, points⟩ := listedApart.addResOrder setPoint_here rfl unlisted lives
    refine ⟨refresher.newPoint, next, { made with hasParent := true }, ?_, ?_, ?_⟩
    · exact congrArg (Option.map (refresher.newPoint, ·)) added
    · rw [points, update_self]
    · rw [if_pos (by simp)]
      exact kept

theorem Listed.newRefresherPoint {agentId : Option CString}
    {directory : Directory} {para : RefresherPoint.FresherPara}
    (listed : Listed log refresher) (partition : Partition refresher) :
    ∃ next, refresher.newRefresherPoint agentId directory device resource para = some next ∧
    Listed (log ++ handed (.newRefresherPoint agentId directory device resource para) refresher)
      next := by
  obtain ⟨found, searched⟩ :=
    findPoint_total partition resource (Directory.tryUseLocalId agentId device)
  cases found with
  | some id =>
    obtain ⟨point, live, -⟩ := findPoint_some searched
    obtain ⟨next, added, kept⟩ := listed.addMonitor para live
    refine ⟨next, by rw [Refresher.newRefresherPoint, searched]; exact added, ?_⟩
    rw [handed, searched, if_neg (by simp), append_nil]
    exact kept
  | none =>
    obtain ⟨id, created, point, isCreated, live, kept⟩ := listed.createPoint partition directory
      (Directory.tryUseLocalId agentId device) resource
    obtain ⟨next, added, kept⟩ := kept.addMonitor para live
    refine ⟨next, ?_, ?_⟩
    · rw [Refresher.newRefresherPoint, searched]
      simp only [bind_eq_bind, bind_some, isCreated]
      exact added
    · rw [handed, searched]
      simp only [true_and]
      exact kept

end Calls

/-! ## Runs -/

/-- The least expiry of the active points that are not being read; `-1` if there is none. -/
def IsNear (refresher : Refresher) (near : UInt64) : Prop :=
  (∃ id point, refresher.points id = some point ∧
    point.waiting = false ∧ point.readInProgress = false ∧ near = point.valExpiry ∧ ∀ other content,
    refresher.points other = some content → content.waiting = false →
    content.readInProgress = false → near ≤ content.valExpiry) ∨
  (∀ id point, refresher.points id = some point → point.waiting = false →
    point.readInProgress = true) ∧ near = -1

section Runs

variable {refresher next : Refresher} {log : List Nat} {event : ScheduleEvent}

/-- The invariant of the runs. -/
structure Scheduled (log : List Nat) (refresher : Refresher) : Prop where
  partition : Partition refresher
  listed : Listed log refresher

theorem Scheduled.start : Scheduled [] Refresher.start :=
  ⟨Partition.start, .nil, fun _ member => absurd member not_mem_nil, fun _ _ live => nomatch live⟩

/-- Nothing but `RunRefresh`'s own assertion on the clock ever fails. -/
theorem Scheduled.defined (scheduled : Scheduled log refresher)
    (called : Called (log, refresher) event)
    (moved : ClockMoved refresher event) : ∃ next, schedule event refresher = some next := by
  obtain ⟨partition, listed⟩ := scheduled
  cases event with
  | newRefresherPoint =>
    obtain ⟨next, made, -⟩ := listed.newRefresherPoint partition
    exact ⟨next, made⟩
  | handleClientStatus =>
    obtain ⟨next, handled, -⟩ := listed.handleClientStatus partition
    exact ⟨next, handled⟩
  | onDataPoint =>
    obtain ⟨next, got, -⟩ := listed.onDataPoint partition
    exact ⟨next, got⟩
  | setExpiry timeout now id =>
    obtain ⟨point, live⟩ := partition.lives id called
    obtain ⟨next, set, -⟩ := listed.setExpiryTo partition timeout now called live
    exact ⟨next, set⟩
  | runRefresh => exact listed.runRefresh partition moved

theorem Scheduled.step (scheduled : Scheduled log refresher)
    (called : Called (log, refresher) event) (performed : schedule event refresher = some next) :
    Scheduled (log ++ handed event refresher) next := by
  obtain ⟨partition, listed⟩ := scheduled
  cases event with
  | newRefresherPoint =>
    obtain ⟨reached, made, kept⟩ := listed.newRefresherPoint partition
    obtain rfl := some.inj (made.symm.trans performed)
    exact ⟨partition.newRefresherPoint performed, kept⟩
  | handleClientStatus =>
    obtain ⟨reached, handled, kept⟩ := listed.handleClientStatus partition
    obtain rfl := some.inj (handled.symm.trans performed)
    exact ⟨partition.handleClientStatus performed, kept⟩
  | onDataPoint =>
    obtain ⟨reached, got, kept⟩ := listed.onDataPoint partition
    obtain rfl := some.inj (got.symm.trans performed)
    exact ⟨partition.onDataPoint performed, kept⟩
  | setExpiry timeout now id =>
    obtain ⟨point, live⟩ := partition.lives id called
    obtain ⟨reached, set, kept, -⟩ := listed.setExpiryTo partition timeout now called live
    obtain rfl := some.inj (set.symm.trans performed)
    exact ⟨partition.setExpiryTo performed, kept⟩
  | runRefresh =>
    exact ⟨partition.runRefresh performed, listed.after_runRefresh partition performed⟩

/-- `GetNearExpiry` takes the first point that is not being read. -/
theorem nearExpiry_eq {list : List Nat}
    (lives : ∀ id ∈ list, ∃ point, refresher.points id = some point) : refresher.nearExpiry list =
      (list.find? fun id => (refresher.points id).any fun point => !point.readInProgress).elim
      (some (-1)) fun id => (refresher.points id).map (·.valExpiry) := by
  induction list with
  | nil => rfl
  | cons first rest ih =>
    obtain ⟨point, live⟩ := lives first mem_cons_self
    rw [nearExpiry, List.find?_cons, live]
    simp only [bind_eq_bind, bind_some, any_some]
    cases point.readInProgress with
    | false => simp [live]
    | true => exact ih fun id member => lives id (mem_cons_of_mem _ member)

theorem Scheduled.near (scheduled : Scheduled log refresher) :
    ∃ near, refresher.getNearExpiry = some near ∧ IsNear refresher near := by
  obtain ⟨partition, listed⟩ := scheduled
  rw [getNearExpiry, nearExpiry_eq partition.lives]
  have member : ∀ {id point}, refresher.points id = some point → point.waiting = false →
      id ∈ refresher.expiredResList := fun live active => (partition.mem_expired live).mpr active
  cases found : refresher.expiredResList.find? fun id => (refresher.points id).any fun point =>
    !point.readInProgress with
  | none =>
    refine ⟨-1, rfl, .inr ⟨fun id point live active => ?_, rfl⟩⟩
    have read := List.find?_eq_none.mp found id (member live active)
    simpa [live] using read
  | some id =>
    obtain ⟨point, live, active⟩ := (partition.expired id).mp (mem_of_find?_eq_some found)
    have idle : point.readInProgress = false := by simpa [live] using List.find?_some found
    refine ⟨point.valExpiry, by simp [live], .inl ⟨id, point, live, active, idle, rfl, ?_⟩⟩
    intro other content isContent awake unread
    have least := listed.ordered.find_le found other (member isContent awake)
      (by simp [isContent, unread])
    rw [expiryOf_live live, expiryOf_live isContent] at least
    exact UInt64.le_iff_toNat_le.mpr least

/-- After `RunRefresh` the agent may sleep. -/
theorem Scheduled.sleeps {now : UInt64} {silent : Nat → Bool} {read : Nat → Int32}
    (scheduled : Scheduled log refresher)
    (clock : now ≤ 0x7FFFFFFFFFFFFFFF) (lasting : Lasting refresher)
    (ran : refresher.runRefresh now silent read = some next) :
    ∃ near, next.getNearExpiry = some near ∧ now < near := by
  have after : Scheduled (log ++ handed (.runRefresh now silent read) refresher) next :=
    scheduled.step trivial ran
  obtain ⟨near, isNear, least⟩ := after.near
  refine ⟨near, isNear, ?_⟩
  rcases least with ⟨id, point, live, active, idle, rfl, -⟩ | ⟨-, rfl⟩
  · refine scheduled.listed.ahead scheduled.partition clock lasting ran id ?_
      not_mem_nil point live idle
    exact (after.partition.mem_expired live).mpr active
  · exact UInt64.lt_of_le_of_lt clock (by decide)

theorem scheduled_of_runs {events : List ScheduleEvent} {state : List Nat × Refresher}
    (runs : RunsUnder scheduleLogged Called ([], start) events state) :
    Scheduled state.1 state.2 := by
  refine @RunsUnder.keeps _ _ scheduleLogged Called
    (fun state => Scheduled state.1 state.2) ?_ _ _ _ runs Scheduled.start
  intro state next event scheduled called performed
  obtain ⟨reached, scheduledNext, rfl⟩ := map_eq_some_iff.mp performed
  exact scheduled.step called scheduledNext

end Runs

/-- In every run the active list is in the order of expiry, points of one expiry in the order
in which they were put there; it holds each active point once; no assertion fails but
`RunRefresh`'s own on the clock; and `GetNearExpiry` gives the least expiry of the active
points that are not being read, which after `RunRefresh` lies ahead. The clock of seconds is a
`time_t`. -/
theorem schedule_of_called {events : List ScheduleEvent} {log : List Nat} {final : Refresher}
    (runs : RunsUnder scheduleLogged Called ([], start) events (log, final)) :
    InOrder final.expiryOf log final.expiredResList ∧
    (∀ id, final.expiredResList.count id = if (final.points id).any (!·.waiting) then 1 else 0) ∧
    (∀ event, Called (log, final) event → ClockMoved final event →
      ∃ next, schedule event final = some next) ∧
    (∃ near, final.getNearExpiry = some near ∧ IsNear final near) ∧ ∀ now silent read next,
    now ≤ 0x7FFFFFFFFFFFFFFF → Lasting final → final.runRefresh now silent read = some next →
    ∃ near, next.getNearExpiry = some near ∧ now < near := by
  have scheduled : Scheduled log final := scheduled_of_runs runs
  refine ⟨scheduled.listed.ordered, fun id => ?_, fun event => scheduled.defined,
    scheduled.near, ?_⟩
  · have partition := scheduled.partition
    cases live : final.points id with
    | none =>
      have absent : id ∉ final.expiredResList := by
        rw [partition.expired, live, exists_none_iff]
        exact not_false
      rw [count_eq_zero.mpr absent]
      rfl
    | some point =>
      cases waits : point.waiting with
      | false =>
        rw [count_eq_one_of_mem partition.expiredOnce ((partition.mem_expired live).mpr waits)]
        simp [waits]
      | true =>
        have absent : id ∉ final.expiredResList := by
          rw [partition.mem_expired live, waits]
          exact Bool.true_eq_false.mp
        rw [count_eq_zero.mpr absent]
        simp [waits]
  · intro now silent read next clock lasting ran
    exact scheduled.sleeps clock lasting ran

/-- The resource `"/s"` of the device. -/
def resourceS : CString := .ofBytes [0x2F, 0x73]

/-- Two points are asked for before their device has registered; it does, both are read, and
in the end both expire at 160. -/
def askedForTwo : List ScheduleEvent :=
  [.newRefresherPoint none .start deviceD resourceR ⟨purlP, 30, false, 0⟩,
    .newRefresherPoint none .start deviceD resourceS ⟨purlP, 30, false, 0⟩,
    .handleClientStatus (Client.new 0 deviceD) true, .runRefresh 100 (fun _ => false) (fun _ => -2),
    .setExpiry 50 110 0, .onDataPoint 115 0 deviceD resourceS 0, .setExpiry 45 115 1]

theorem schedule_of_called_askedForTwo :
    ∃ log final next, runAll scheduleLogged askedForTwo ([], start) = some (log, final) ∧
    InOrder final.expiryOf log final.expiredResList ∧ final.expiredResList = [0, 1] ∧
    log = [0, 1, 0, 1, 0, 1, 1] ∧ final.runRefresh 160 (fun _ => false) (fun _ => -2) = some next ∧
    ∃ near, next.getNearExpiry = some near ∧ 160 < near := by
  have first : 0 ∈ [0, 1] := mem_cons_self
  have second : 1 ∈ [1, 0] := mem_cons_self
  have runs := @schedule_of_called askedForTwo _ _
    (.call trivial rfl (.call trivial rfl (.call trivial rfl (.call trivial rfl (.call first rfl
      (.call trivial rfl (.call second rfl (.done _))))))))
  have sleeps :=
    runs.2.2.2.2 160 (fun _ => false) (fun _ => -2) _ (by decide) (lasting_of_all rfl) rfl
  exact ⟨_, _, _, rfl, runs.1, rfl, rfl, rfl, sleeps⟩

end Refresher

end Idrm.Devices
