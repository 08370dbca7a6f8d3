import Idrm.Devices.Cancelling

/-!
# The clock of the reads

`RunRefresh` asserts that a point it reads was last read in an earlier second. The clock only counts
seconds, and several calls fall into one: the assertion holds as long as no call makes a point due
again in the second in which it was read.
-/

namespace Idrm.Devices

open Idrm.Lib Function Option List

namespace Refresher

/-- The calls, without their times. -/
inductive TickEvent where
  | newRefresherPoint (agentId : Option CString) (directory : Directory) (device resource : CString)
      (para : RefresherPoint.FresherPara)
  | handleClientStatus (client : Client) (online : Bool)
  | onDataPoint (notified : UInt32) (device uri : CString) (payloadLen : Nat)
  | runRefresh (silent : Nat → Bool) (read : Nat → Int32)

/-- A call at a time. -/
def TickEvent.timed (now : UInt64) : TickEvent → ScheduleEvent
  | .newRefresherPoint agentId directory device resource para =>
    .newRefresherPoint agentId directory device resource para
  | .handleClientStatus client online => .handleClientStatus client online
  | .onDataPoint notified device uri payloadLen => .onDataPoint now notified device uri payloadLen
  | .runRefresh silent read => .runRefresh now silent read

/-- A call, with the time of the last one. -/
def tick (event : UInt64 × TickEvent) (state : UInt64 × Refresher) : Option (UInt64 × Refresher) :=
  (schedule (event.2.timed event.1) state.2).map (event.1, ·)

/-- A call leaves no point due that was read in the same second: a point that is made counts as read
at 0; a point whose device goes online is due at once; and a point that a report or a read dates
again needs a positive lifetime, unless its read is in progress. -/
def Rests (now : UInt64) (refresher : Refresher) : TickEvent → Prop
  | .newRefresherPoint .. => 0 < now
  | .handleClientStatus client online => online = true →
      ∀ id point, refresher.points id = some point → point.waiting = true →
      client.hasId point.clientId = true → point.readInProgress = true ∨ point.lastReadTime < now
  | .onDataPoint _ device uri _ => ∀ id point, refresher.points id = some point →
      point.waiting = false → point.clientId = device → point.resourceUrl = uri →
      point.readInProgress = true ∨ point.lastReadTime < now ∨ 0 < point.valueLifetime
  | .runRefresh _ read => ∀ id point, refresher.points id = some point → point.waiting = false →
      dueAt now point = true → read id = 0 ∨ 0 < point.valueLifetime

/-- The clock, a `time_t`, does not go back, and the call leaves no point due too early. -/
def Calm (state : UInt64 × Refresher) (event : UInt64 × TickEvent) : Prop :=
  state.1 ≤ event.1 ∧ event.1 ≤ 0x7FFFFFFFFFFFFFFF ∧ Rests event.1 state.2 event.2

/-- The point will not be read again in this second. -/
def Rested (now : UInt64) (point : RefresherPoint) : Prop :=
  point.readInProgress = true ∨ point.lastReadTime < now ∨ now < point.valExpiry

/-- No point was read later than now, and no active one will be read again in this second; those
that have yet to be dated will have a positive time. -/
def Quiet (now : UInt64) (rest : List Nat) (refresher : Refresher) : Prop :=
  ∀ id point, refresher.points id = some point → point.lastReadTime ≤ now ∧ (point.waiting = false →
    if id ∈ rest then point.readInProgress = true ∨ 0 < point.valueLifetime else Rested now point)

section Steps

variable {refresher next : Refresher} {now clock : UInt64} {rest : List Nat} {id : Nat}
  {point : RefresherPoint} {log : List Nat}

theorem Quiet.start (now : UInt64) : Quiet now [] Refresher.start := by
  intro id point live
  cases (start_points id).symm.trans live

/-- Time passes. -/
theorem Quiet.later (quiet : Quiet clock [] refresher) (passes : clock ≤ now) :
    Quiet now [] refresher := by
  intro id point live
  obtain ⟨read, rested⟩ := quiet id point live
  refine ⟨UInt64.le_trans read passes, fun active => ?_⟩
  have rested := rested active
  rw [if_neg not_mem_nil] at rested ⊢
  rcases rested with progress | earlier | ahead
  · exact .inl progress
  · exact .inr (.inl (UInt64.lt_of_lt_of_le earlier passes))
  · rcases UInt64.le_iff_lt_or_eq.mp passes with moved | same
    · exact .inr (.inl (UInt64.lt_of_le_of_lt read moved))
    · exact .inr (.inr (same ▸ ahead))

/-- One point is written. -/
theorem Quiet.put {after : List Nat} {content : RefresherPoint} (quiet : Quiet now rest refresher)
    (points : next.points = update refresher.points id (some content))
    (others : ∀ other, other ≠ id → (other ∈ after ↔ other ∈ rest))
    (read : content.lastReadTime ≤ now)
    (rested : content.waiting = false → if id ∈ after then content.readInProgress = true ∨
      0 < content.valueLifetime else Rested now content) : Quiet now after next := by
  intro other point live
  rw [points] at live
  by_cases here : other = id
  · subst here
    rw [update_self] at live
    obtain rfl := some.inj live
    exact ⟨read, rested⟩
  · rw [update_of_ne here] at live
    simp only [others other here]
    exact quiet other point live

theorem Quiet.of_points (quiet : Quiet now rest refresher)
    (points : next.points = refresher.points) : Quiet now rest next := by
  intro id point live
  exact quiet id point (points ▸ live)

/-- `RunRefresh`'s assertion. -/
theorem Quiet.clockMoved (quiet : Quiet now [] refresher)
    (partition : Partition refresher) (silent : Nat → Bool) (read : Nat → Int32) :
    ClockMoved refresher (.runRefresh now silent read) := by
  intro id member point live due
  obtain ⟨-, rested⟩ := quiet id point live
  have rested := rested ((partition.mem_expired live).mp member)
  rw [if_neg not_mem_nil] at rested
  obtain ⟨idle, expired⟩ := of_decide_eq_true due
  rcases rested with progress | earlier | ahead
  · rw [idle] at progress
    cases progress
  · exact earlier
  · exact absurd expired (UInt64.not_le.mpr ahead)

/-! ## New points and devices -/

theorem addMonitor_fields (number : UInt32) (para : RefresherPoint.FresherPara)
    (point : RefresherPoint) : ∃ lifetime monitors, point.addMonitor number para =
      { point with flagged := false, valueLifetime := lifetime, monitors := monitors } := by
  unfold RefresherPoint.addMonitor RefresherPoint.removeMonitor RefresherPoint.mergeParameters
  simp only
  split
  · split
    · exact ⟨_, _, rfl⟩
    · exact ⟨_, _, rfl⟩
  · split
    · exact ⟨_, _, rfl⟩
    · exact ⟨_, _, rfl⟩

theorem Quiet.newRefresherPoint {agentId : Option CString} {directory : Directory}
    {device resource : CString} {para : RefresherPoint.FresherPara}
    (quiet : Quiet now [] refresher) (partition : Partition refresher) (positive : 0 < now)
    (performed : refresher.newRefresherPoint agentId directory device resource para = some next) :
    Quiet now [] next := by
  obtain ⟨made, id, point, number, isMade, points, -, -, makes⟩ :=
    newRefresherPoint_made partition agentId directory device resource para
  obtain rfl := some.inj (isMade.symm.trans performed)
  obtain ⟨lifetime, monitors, fields⟩ := addMonitor_fields number para point
  rw [fields] at points
  have never : point.lastReadTime = 0 → Quiet now [] made := by
    intro unread
    refine quiet.put points (fun _ _ => Iff.rfl) ?_ fun _ => ?_
    · rw [show point.lastReadTime = 0 from unread]
      exact UInt64.le_of_lt positive
    · rw [if_neg not_mem_nil]
      exact .inr (.inl (show point.lastReadTime < now from unread ▸ positive))
  cases makes with
  | found live =>
    obtain ⟨read, rested⟩ := quiet id point live
    refine quiet.put points (fun _ _ => Iff.rfl) read fun active => ?_
    rw [if_neg not_mem_nil]
    have rested := rested active
    rw [if_neg not_mem_nil] at rested
    exact rested
  | active _ _ _ _ unread => exact never unread
  | waits _ _ _ _ unread => exact never unread

variable {client : Client}

/-- A point whose device goes online changes no other one, and keeps what is known of its reads. -/
theorem goOnline_points (went : goOnline client refresher id = some next) :
    next.points = refresher.points ∨
    ∃ point awake, refresher.points id = some point ∧ client.hasId point.clientId = true ∧
    next.points = update refresher.points id (some awake) ∧ awake.waiting = false ∧
    awake.lastReadTime = point.lastReadTime ∧ awake.readInProgress = point.readInProgress := by
  obtain ⟨point, live, went⟩ := bind_eq_some_iff.mp went
  split at went
  · rename_i known
    obtain ⟨placed, list, isPlaced, awake, -, rfl⟩ := addResOrder_some went
    obtain rfl := some.inj (setPoint_here.symm.trans isPlaced)
    obtain ⟨associated, property, same⟩ :=
      associate_eq client { point with valExpiry := 0, waiting := false }
    refine .inr ⟨point, _, live, known, update_idem .., awake, ?_⟩
    rw [same]
    exact ⟨rfl, rfl⟩
  · obtain rfl := some.inj went
    exact .inl rfl

theorem goOffline_points (went : goOffline client refresher id = some next) :
    next.points = refresher.points ∨ ∃ point, refresher.points id = some point ∧
      next.points = update refresher.points id (some { point with waiting := true }) := by
  obtain ⟨point, live, went⟩ := bind_eq_some_iff.mp went
  split at went
  · obtain rfl := some.inj went
    exact .inr ⟨point, live, rfl⟩
  · obtain rfl := some.inj went
    exact .inl rfl

/-- The waiting points of a device were read in earlier seconds. -/
def ReadEarlier (now : UInt64) (client : Client) (refresher : Refresher) : Prop :=
  ∀ id point, refresher.points id = some point → point.waiting = true →
    client.hasId point.clientId = true → point.readInProgress = true ∨ point.lastReadTime < now

theorem Quiet.goOnline (quiet : Quiet now [] refresher)
    (partition : Partition refresher) (waits : id ∈ refresher.waitingList)
    (earlier : ReadEarlier now client refresher) (went : goOnline client refresher id = some next) :
    Quiet now [] next ∧ ReadEarlier now client next := by
  rcases goOnline_points went with same | ⟨point, awake, live, known, points, active,
    sameRead, sameProgress⟩
  · exact ⟨quiet.of_points same, fun other point live => earlier other point (same ▸ live)⟩
  · have waiting := (partition.mem_waiting live).mp waits
    constructor
    · refine quiet.put points (fun _ _ => Iff.rfl) (sameRead ▸ (quiet id point live).1) fun _ => ?_
      rw [if_neg not_mem_nil, Rested, sameRead, sameProgress]
      rcases earlier id point live waiting known with progress | before
      · exact .inl progress
      · exact .inr (.inl before)
    · intro other content isContent waitsToo
      rw [points] at isContent
      by_cases here : other = id
      · subst here
        rw [update_self] at isContent
        rw [← some.inj isContent, active] at waitsToo
        cases waitsToo
      · rw [update_of_ne here] at isContent
        exact earlier other content isContent waitsToo

theorem Quiet.handleClientStatus {online : Bool}
    (quiet : Quiet now [] refresher) (partition : Partition refresher)
    (rests : Rests now refresher (.handleClientStatus client online))
    (performed : refresher.handleClientStatus client online = some next) : Quiet now [] next := by
  cases online with
  | true =>
    have walked := foldlM_walk (fun rest state => Walks waitingList rest state ∧ Quiet now
      [] state ∧ ReadEarlier now client state) (fun kept went => ⟨goOnline_walks kept.1 went,
      kept.2.1.goOnline kept.1.partition (kept.1.listed _ mem_cons_self) kept.2.2 went⟩)
      performed ⟨⟨partition, partition.waitingOnce, fun _ member => member⟩, quiet, rests rfl⟩
    exact walked.2.1
  | false =>
    refine foldlM_walk (fun _ state => Quiet now [] state) ?_ performed quiet
    intro id rest state after kept went
    rcases goOffline_points went with same | ⟨point, live, points⟩
    · exact kept.of_points same
    · refine kept.put points (fun _ _ => Iff.rfl) (kept id point live).1 fun active => ?_
      cases active

/-! ## Reports and reads -/

/-- A date for a point of a positive lifetime lies ahead. -/
theorem Rested.dated (steady : point.readFails = 0) (clockInRange : now ≤ 0x7FFFFFFFFFFFFFFF)
    (rests : point.readInProgress = true ∨ point.lastReadTime < now ∨ 0 < point.valueLifetime) :
    Rested now { point with valExpiry := point.nextExpiry now, hasParent := true } := by
  rcases rests with progress | earlier | positive
  · exact .inl progress
  · exact .inr (.inl earlier)
  · refine .inr (.inr ?_)
    show now < point.nextExpiry now
    rw [nextExpiry_of_steady steady]
    exact lt_add_of_positive clockInRange positive

theorem setExpiry_points (live : refresher.points id = some point)
    (set : refresher.setExpiry now id = some next) :
    ∃ parent, next.points = update refresher.points id
      (some { point with valExpiry := point.nextExpiry now, hasParent := parent }) := by
  obtain ⟨content, isContent, set⟩ := bind_eq_some_iff.mp set
  obtain rfl := some.inj (live.symm.trans isContent)
  simp only at set
  split at set
  · cases set
  split at set
  · obtain ⟨removed, isRemoved, added⟩ := bind_eq_some_iff.mp set
    obtain ⟨dated, isDated, isRemoved⟩ := bind_eq_some_iff.mp isRemoved
    obtain rfl := some.inj (setPoint_here.symm.trans isDated)
    obtain rfl := some.inj isRemoved
    obtain ⟨placed, list, isPlaced, -, -, rfl⟩ := addResOrder_some added
    obtain rfl := some.inj (setPoint_here.symm.trans isPlaced)
    refine ⟨true, ?_⟩
    simp only [Refresher.setPoint, update_idem]
  · obtain rfl := some.inj set
    exact ⟨_, rfl⟩

theorem Quiet.onDataPoint {notified : UInt32} {device uri : CString}
    {payloadLen : Nat} (quiet : Quiet now [] refresher)
    (scheduled : Scheduled log refresher) (clockInRange : now ≤ 0x7FFFFFFFFFFFFFFF)
    (rests : Rests now refresher (.onDataPoint notified device uri payloadLen))
    (performed : refresher.onDataPoint now notified device uri payloadLen = some next) :
    Quiet now [] next := by
  obtain ⟨found, searched, performed⟩ := bind_eq_some_iff.mp performed
  cases found with
  | none =>
    obtain rfl := some.inj performed
    exact quiet
  | some id =>
    obtain ⟨point, live, set⟩ := bind_eq_some_iff.mp performed
    obtain ⟨member, content, isContent, sameDevice, sameUri⟩ := findRes_some searched
    obtain rfl := some.inj (live.symm.trans isContent)
    have active := (scheduled.partition.mem_expired live).mp member
    have rests := rests id point live active sameDevice sameUri
    obtain ⟨parent, points⟩ := setExpiry_points setPoint_here set
    rw [show ∀ content, (Refresher.setPoint id content refresher).points =
      update refresher.points id (some content) from fun _ => rfl, update_idem] at points
    have steady := scheduled.listed.steady id point live
    refine quiet.put points (fun _ _ => Iff.rfl) ?_ fun _ => ?_
    · split
      · exact (quiet id point live).1
      · exact (quiet id point live).1
    · rw [if_neg not_mem_nil]
      split
      · exact Rested.dated steady clockInRange rests
      · exact @Rested.dated _ { point with lastNotified := notified } steady clockInRange rests

/-- A point that is due is collected; its read is in progress, or its lifetime will date it. -/
theorem Quiet.refreshPoint {before : Refresher}
    {silent : Nat → Bool} {read : Nat → Int32} {state after : List Nat × Refresher}
    (quiet : Quiet now state.1 state.2) (reads : Reads log before now (id :: rest) state)
    (rests : Rests now before (.runRefresh silent read))
    (stepped : refreshPoint now silent read state id = some after) : Quiet now after.1 after.2 := by
  obtain ⟨member, outside, point, live, isBefore⟩ := reads.head
  have active := (reads.partition.mem_expired live).mp (reads.list ▸ member)
  rw [Refresher.refreshPoint, live] at stepped
  simp only [bind_eq_bind, bind_some] at stepped
  split at stepped
  · rename_i due
    split at stepped
    · cases stepped
    obtain rfl := some.inj stepped
    refine quiet.put rfl (fun other different => ?_) (UInt64.le_refl now) fun _ => ?_
    · rw [mem_append, mem_singleton]
      exact or_iff_left different
    · rw [if_pos (mem_append_right _ mem_cons_self)]
      rcases rests id point isBefore active (decide_eq_true due) with answers | positive
      · exact .inl (if_pos answers)
      · exact .inr positive
  · obtain rfl := some.inj stepped
    exact quiet

/-- A collected point is dated. -/
theorem Dates.quiet (dates : Dates log (id :: rest) refresher)
    (quiet : Quiet now (id :: rest) refresher)
    (once : (id :: rest).Nodup) (clockInRange : now ≤ 0x7FFFFFFFFFFFFFFF)
    (set : refresher.setExpiry now id = some next) : Quiet now rest next := by
  obtain ⟨point, live, active⟩ :=
    (dates.partition.expired id).mp (dates.listedRest id mem_cons_self)
  obtain ⟨parent, points⟩ := setExpiry_points live set
  obtain ⟨read, rested⟩ := quiet id point live
  refine quiet.put points (fun other different => ?_) read fun _ => ?_
  · rw [mem_cons]
    exact (or_iff_right different).symm
  · rw [if_neg (nodup_cons.mp once).1]
    have rested := rested active
    rw [if_pos mem_cons_self] at rested
    exact Rested.dated (dates.listed.steady id point live) clockInRange (rested.imp_right Or.inr)

theorem Quiet.runRefresh {silent : Nat → Bool} {read : Nat → Int32} (quiet : Quiet now [] refresher)
    (scheduled : Scheduled log refresher) (clockInRange : now ≤ 0x7FFFFFFFFFFFFFFF)
    (rests : Rests now refresher (.runRefresh silent read))
    (performed : refresher.runRefresh now silent read = some next) : Quiet now [] next := by
  obtain ⟨⟨due, refreshed⟩, walked, set⟩ := bind_eq_some_iff.mp performed
  obtain ⟨reads, collected⟩ := foldlM_walk
    (fun rest state => Reads log refresher now rest state ∧ Quiet now state.1 state.2)
    (fun kept stepped => ⟨kept.1.step stepped, kept.2.refreshPoint kept.1 rests stepped⟩)
    walked ⟨Reads.start scheduled.listed scheduled.partition, quiet⟩
  obtain ⟨isDue, listedDue, -⟩ := reads.done silent read
  have once : due.Nodup := by
    rw [isDue]
    exact scheduled.partition.expiredOnce.filter _
  have dated := foldlM_walk
    (fun rest state => (∃ log, Dates log rest state) ∧ rest.Nodup ∧ Quiet now rest state)
    (fun kept stepped => by
      obtain ⟨⟨log, dates⟩, once, quiet⟩ := kept
      obtain ⟨reached, point, isReached, onward, -⟩ := dates.step now
      obtain rfl := some.inj (isReached.symm.trans stepped)
      exact ⟨⟨_, onward⟩, (nodup_cons.mp once).2, dates.quiet quiet once clockInRange stepped⟩)
    set ⟨⟨log, reads.partition, reads.listed, listedDue⟩, once, collected⟩
  exact dated.2.2

/-! ## Runs -/

/-- The invariant of the runs. -/
structure Ticked (state : UInt64 × Refresher) : Prop where
  scheduled : ∃ log, Scheduled log state.2
  quiet : Quiet state.1 [] state.2

theorem Ticked.step {state after : UInt64 × Refresher}
    {event : UInt64 × TickEvent} (ticked : Ticked state)
    (calm : Calm state event) (performed : tick event state = some after) : Ticked after := by
  obtain ⟨now, event⟩ := event
  obtain ⟨passes, clockInRange, rests⟩ := calm
  obtain ⟨log, scheduled⟩ := ticked.scheduled
  obtain ⟨next, scheduledNext, rfl⟩ := map_eq_some_iff.mp performed
  have quiet := ticked.quiet.later passes
  have called : Called (log, state.2) (event.timed now) := by
    cases event <;> trivial
  refine ⟨⟨_, scheduled.step called scheduledNext⟩, ?_⟩
  cases event with
  | newRefresherPoint => exact quiet.newRefresherPoint scheduled.partition rests scheduledNext
  | handleClientStatus => exact quiet.handleClientStatus scheduled.partition rests scheduledNext
  | onDataPoint => exact quiet.onDataPoint scheduled clockInRange rests scheduledNext
  | runRefresh => exact quiet.runRefresh scheduled clockInRange rests scheduledNext

end Steps

/-- In every run in which the clock does not go back and no call leaves a point due that was read in
the same second, `RunRefresh`'s assertion holds throughout, and whatever call comes next has a
result. -/
theorem runRefresh_asserts {events : List (UInt64 × TickEvent)} {clock : UInt64} {final : Refresher}
    (runs : RunsUnder tick Calm (0, start) events (clock, final)) :
    (∀ now silent read, clock ≤ now → ClockMoved final (.runRefresh now silent read)) ∧
    ∀ event : UInt64 × TickEvent, clock ≤ event.1 → ∃ next,
    tick event (clock, final) = some next := by
  have ticked : Ticked (clock, final) :=
    runs.keeps Ticked.step ⟨⟨[], Scheduled.start⟩, Quiet.start 0⟩
  obtain ⟨log, scheduled⟩ := ticked.scheduled
  have moved : ∀ now silent read, clock ≤ now → ClockMoved final (.runRefresh now silent read) := by
    intro now silent read passes
    exact (ticked.quiet.later passes).clockMoved scheduled.partition silent read
  refine ⟨moved, ?_⟩
  rintro ⟨now, event⟩ passes
  have called : Called (log, final) (event.timed now) := by
    cases event <;> trivial
  have movedHere : ClockMoved final (event.timed now) := by
    cases event with
    | runRefresh silent read => exact moved now silent read passes
    | newRefresherPoint => trivial
    | handleClientStatus => trivial
    | onDataPoint => trivial
  obtain ⟨next, performed⟩ := scheduled.defined called movedHere
  exact ⟨(now, next), by rw [tick, performed]; rfl⟩

/-- The device is known; its point is read and reported in one second, and is due again when the
device has come back. -/
def readAgain : List (UInt64 × TickEvent) :=
  [(100, .newRefresherPoint none directoryD deviceD resourceR ⟨purlP, 30, false, 0⟩),
    (100, .runRefresh (fun _ => false) (fun _ => -2)), (100, .onDataPoint 0 deviceD resourceR 4),
    (100, .handleClientStatus (Client.new 0 deviceD) false),
    (101, .handleClientStatus (Client.new 0 deviceD) true),
    (101, .runRefresh (fun _ => false) (fun _ => -2))]

/-- Only one point has been made. -/
theorem forall_points {refresher : Refresher} {holds : RefresherPoint → Prop} [DecidablePred holds]
    (first : (refresher.points 0).all (fun point => decide (holds point)) = true)
    (others : ∀ id, refresher.points (id + 1) = none) :
    ∀ id point, refresher.points id = some point → holds point := by
  intro id point live
  cases id with
  | zero =>
    rw [live] at first
    exact of_decide_eq_true first
  | succ id => cases (others id).symm.trans live

theorem runRefresh_asserts_readAgain :
    ∃ final next, runAll tick readAgain (0, start) = some (101, final) ∧
      tick (131, .runRefresh (fun _ => false) (fun _ => -2)) (101, final) = some next := by
  have positive : ∀ {refresher : Refresher},
      (refresher.points 0).all (fun point => decide (0 < point.valueLifetime)) = true →
      (∀ id, refresher.points (id + 1) = none) → ∀ id point, refresher.points id = some point →
      0 < point.valueLifetime :=
    forall_points
  have earlier : ∀ {refresher : Refresher},
      (refresher.points 0).all (fun point => decide (point.lastReadTime < 101)) = true →
      (∀ id, refresher.points (id + 1) = none) → ∀ id point, refresher.points id = some point →
      point.lastReadTime < 101 :=
    forall_points
  have asserts := @runRefresh_asserts readAgain _ _ (.call ⟨by decide, by decide,
    show (0 : UInt64) < 100 by decide⟩ rfl (.call ⟨by decide, by decide, fun id point live _ _ =>
    .inr (positive rfl (fun _ => rfl) id point live)⟩ rfl (.call ⟨by decide, by decide,
    fun id point live _ _ _ => .inr (.inr (positive rfl (fun _ => rfl) id point live))⟩ rfl
    (.call ⟨by decide, by decide, fun online => absurd online Bool.false_ne_true⟩ rfl
    (.call ⟨by decide, by decide, fun _ id point live _ _ =>
    .inr (earlier rfl (fun _ => rfl) id point live)⟩ rfl (.call ⟨by decide, by decide,
    fun id point live _ _ => .inr (positive rfl (fun _ => rfl) id point live)⟩ rfl (.done _)))))))
  obtain ⟨next, performed⟩ :=
    asserts.2 (131, .runRefresh (fun _ => false) (fun _ => -2)) (by decide)
  exact ⟨_, next, rfl, performed⟩

/-- A device whose read fails goes away and comes back within the second of the read; and a point
whose least interval is 0 is due in the second of its read. -/
theorem runRefresh_readTwice_fails : ∃ final later,
    runAll tick [(100, .newRefresherPoint none directoryD deviceD resourceR ⟨purlP, 30, false, 0⟩),
      (100, .runRefresh (fun _ => false) (fun _ => -2)),
      (100, .handleClientStatus (Client.new 0 deviceD) false),
      (100, .handleClientStatus (Client.new 0 deviceD) true)] (0, start) = some (100, final) ∧
      tick (100, .runRefresh (fun _ => false) (fun _ => -2)) (100, final) = none ∧
      runAll tick [(100, .newRefresherPoint none directoryD deviceD resourceR ⟨purlP, 0, false, 0⟩),
        (100, .newRefresherPoint none directoryD deviceD resourceR ⟨.ofBytes [0x71], 60, false, 0⟩),
        (100, .runRefresh (fun _ => false) (fun _ => -2))] (0, start) = some (100, later) ∧
      tick (100, .runRefresh (fun _ => false) (fun _ => -2)) (100, later) = none :=
  ⟨_, _, rfl, rfl, rfl, rfl⟩

end Refresher

end Idrm.Devices
