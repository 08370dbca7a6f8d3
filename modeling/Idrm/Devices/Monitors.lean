import Idrm.Devices.PublishFlow
import Idrm.Lib.Arrival

/-!
# Monitors of a refresher point

A point keeps its monitors by descending sequence number, and its data is handed to them in that
order. Its value lifetime is the least of their durations, as `MergeParameters` last found it.

Monitors come by `AddMonitor` and go by `FindMonitor`; one that does not respond is erased by the
response handler after eleven errors in a row. Neither `AddMonitor` without a positive duration
nor the response handler looks for the least duration again.
-/

namespace Idrm.Devices.RefresherPoint

open Idrm.Lib List

/-- `data_processing_response_handler_for_failed_monitor`, where its point is found. -/
def dataProcessingResponseHandlerForFailedMonitor (id : UInt32) (answered : Bool)
    (point : RefresherPoint) : RefresherPoint :=
  { point with monitors := PublishWorld.settleFailed id answered point.monitors }

/-- The calls that change the monitors of a point. -/
inductive MonitorEvent where
  | addMonitor (id : UInt32) (para : FresherPara)
  /-- `FindMonitor` with removal -/
  | findMonitor (purl : CString)
  | failedMonitor (id : UInt32) (answered : Bool)

/-- One call. -/
def change : MonitorEvent → RefresherPoint → RefresherPoint
  | .addMonitor id para, point => point.addMonitor id para
  | .findMonitor purl, point => point.removeMonitor purl
  | .failedMonitor id answered, point =>
    point.dataProcessingResponseHandlerForFailedMonitor id answered

/-- The calls one after another. -/
def changeAll (events : List MonitorEvent) (point : RefresherPoint) : RefresherPoint :=
  events.foldl (fun point event => change event point) point

/-- The publish points that were added, one after another. -/
def addedPoints (events : List MonitorEvent) : List CString :=
  events.filterMap fun event =>
    match event with
    | .addMonitor _ para => some para.publishPoint
    | _ => none

/-! ## Which monitors there are -/

section Members

variable {point : RefresherPoint} {monitors : List RefresherPara} {monitor : RefresherPara}
  {purl : CString} {id : UInt32}
  {answered : Bool}

theorem removeMonitor_monitors :
    (point.removeMonitor purl).monitors = point.monitors.eraseP (·.publishPoint = purl) := by
  unfold removeMonitor
  split
  · rfl
  · rename_i missing
    symm
    apply eraseP_of_forall_not
    intro monitor member
    exact fun found => missing (any_eq_true.mpr ⟨monitor, member, found⟩)

/-- Where no two monitors have one publish point, its monitor is the only one that goes. -/
theorem eraseP_eq_filter (once : (monitors.map (·.publishPoint)).Nodup) :
    monitors.eraseP (·.publishPoint = purl) = monitors.filter (·.publishPoint ≠ purl) := by
  induction monitors with
  | nil => rfl
  | cons first rest ih =>
    obtain ⟨alone, once⟩ := nodup_cons.mp once
    by_cases here : first.publishPoint = purl
    · rw [eraseP_cons_of_pos (by simpa using here), filter_cons_of_neg (by simpa using here)]
      symm
      apply filter_eq_self.mpr
      intro other member
      refine decide_eq_true fun same => alone ?_
      exact mem_map.mpr ⟨other, member, same.trans here.symm⟩
    · rw [eraseP_cons_of_neg (by simpa using here),
        filter_cons_of_pos (by simpa using here), ih once]

theorem addMonitor_monitors (para : FresherPara) :
    (point.addMonitor id para).monitors =
      insertMonitor ⟨id, 0, 0, para.sequence, para.process, para.minDuration, para.publishPoint⟩
        (point.removeMonitor para.publishPoint).monitors := by
  unfold addMonitor
  simp only
  split
  · rfl
  · rfl

/-- A monitor without response is erased, or keeps all but its counters. -/
theorem settleFailed_eq {α : Type}
    (field : RefresherPara → α) (same : ∀ (monitor : RefresherPara) (errorCnt skipCnt : UInt32),
      field { monitor with errorCnt := errorCnt, skipCnt := skipCnt } = field monitor) :
    (PublishWorld.settleFailed id answered monitors).map field = if answered = false ∧
    (monitors.find? (·.id = id)).any (fun monitor => 10 < monitor.errorCnt + 1) then
        (monitors.eraseP (·.id = id)).map field
      else monitors.map field := by
  induction monitors with
  | nil => simp [PublishWorld.settleFailed]
  | cons first rest ih =>
    by_cases here : first.id = id
    · rw [PublishWorld.settleFailed, if_pos here, List.find?_cons_of_pos (by simpa using here),
        eraseP_cons_of_pos (by simpa using here)]
      cases answered with
      | true => simp [same first 0 0]
      | false =>
        by_cases failed : 10 < first.errorCnt + 1
        · simp [failed]
        · simp [failed, same first (first.errorCnt + 1) first.skipCnt]
    · rw [PublishWorld.settleFailed, if_neg here, List.find?_cons_of_neg (by simpa using here),
        eraseP_cons_of_neg (by simpa using here), map_cons, ih]
      split
      · rfl
      · rfl

end Members

/-! ## Their order -/

/-- What the order of monitors goes by. -/
def place (monitor : RefresherPara) : Int32 × CString := (monitor.sequence, monitor.publishPoint)

/-- A place comes before another: its sequence number is greater, or it is the same and the last
`AddMonitor` of its publish point was earlier. -/
def Before (log : List CString) (one other : Int32 × CString) : Prop :=
  other.1 < one.1 ∨ one.1 = other.1 ∧ EarlierIn log one.2 other.2

/-- The places of monitors in order. -/
structure Ordered (log : List CString) (places : List (Int32 × CString)) : Prop where
  sorted : places.Pairwise (Before log)
  once : (places.map Prod.snd).Nodup
  added : ∀ place ∈ places, place.2 ∈ log

section Order

variable {log : List CString} {places rest : List (Int32 × CString)} {monitors : List RefresherPara}
  {monitor : RefresherPara}

theorem Ordered.sublist (ordered : Ordered log places) (fewer : rest.Sublist places) :
    Ordered log rest := by
  constructor
  · exact ordered.sorted.sublist fewer
  · exact ordered.once.sublist (fewer.map Prod.snd)
  · intro place member
    exact ordered.added place (fewer.subset member)

/-- One more arrives; those that do not have its publish point stay in order. -/
theorem Before.concat {one other : Int32 × CString} {last : CString} (before : Before log one other)
    (different : one.2 ≠ last) : Before (log ++ [last]) one other :=
  before.imp id fun ⟨same, earlier⟩ => ⟨same, earlier.concat different⟩

/-- `AddMonitor`'s search for the place. -/
theorem insertMonitor_sorted (sorted : (monitors.map place).Pairwise (Before log))
    (absent : ∀ other ∈ monitors, other.publishPoint ≠ monitor.publishPoint)
    (added : ∀ other ∈ monitors, other.publishPoint ∈ log) :
    ((insertMonitor monitor monitors).map place).Pairwise
      (Before (log ++ [monitor.publishPoint])) := by
  induction monitors with
  | nil => exact pairwise_singleton _ _
  | cons first rest ih =>
    obtain ⟨ahead, sorted⟩ := pairwise_cons.mp sorted
    obtain ⟨different, others⟩ := forall_mem_cons.mp absent
    have kept : ∀ other ∈ rest.map place, Before (log ++ [monitor.publishPoint])
        (place first) other :=
      fun other member => (ahead other member).concat different
    rw [insertMonitor]
    split
    · rename_i smaller
      have onward : ∀ other ∈ (first :: rest).map place, Before (log ++ [monitor.publishPoint])
          (place monitor) other := by
        rintro other member
        left
        rcases mem_cons.mp member with rfl | member
        · exact smaller
        · rcases ahead other member with less | ⟨same, -⟩
          · exact Int32.lt_trans less smaller
          · exact same ▸ smaller
      refine pairwise_cons.mpr ⟨onward, pairwise_cons.mpr ⟨kept, ?_⟩⟩
      refine sorted.imp_of_mem ?_
      intro one other member _ before
      obtain ⟨content, inside, rfl⟩ := mem_map.mp member
      exact before.concat (others content inside)
    · rename_i notSmaller
      refine pairwise_cons.mpr ⟨?_, ih sorted others (forall_mem_cons.mp added).2⟩
      intro other member
      obtain ⟨content, inside, rfl⟩ := mem_map.mp member
      rcases mem_cons.mp ((insertMonitor_perm monitor rest).mem_iff.mp inside) with rfl | inside
      · -- The new monitor stands behind one of at least its sequence number.
        rcases (Int32.le_iff_lt_or_eq.mp (Int32.not_lt.mp notSmaller)) with less | same
        · exact .inl less
        · exact .inr ⟨same.symm, earlierIn_last (forall_mem_cons.mp added).1 different⟩
      · exact kept _ (mem_map_of_mem inside)

theorem Ordered.insert (ordered : Ordered log (monitors.map place))
    (absent : ∀ other ∈ monitors, other.publishPoint ≠ monitor.publishPoint) :
    Ordered (log ++ [monitor.publishPoint]) ((insertMonitor monitor monitors).map place) := by
  have perm : ((insertMonitor monitor monitors).map place).Perm
      (place monitor :: monitors.map place) :=
    (insertMonitor_perm monitor monitors).map place
  refine ⟨insertMonitor_sorted ordered.sorted absent ?_, ?_, ?_⟩
  · intro other member
    exact ordered.added (place other) (mem_map_of_mem member)
  · rw [(perm.map Prod.snd).nodup_iff, map_cons, nodup_cons]
    refine ⟨?_, ordered.once⟩
    intro member
    obtain ⟨found, among, same⟩ := mem_map.mp member
    obtain ⟨other, inside, rfl⟩ := mem_map.mp among
    exact absent other inside same
  · intro other member
    rcases mem_cons.mp (perm.mem_iff.mp member) with rfl | member
    · exact mem_append_right _ mem_cons_self
    · exact mem_append_left _ (ordered.added other member)

/-- Behind `FindMonitor` no monitor has the publish point. -/
theorem Ordered.gone {purl : CString} (ordered : Ordered log (monitors.map place)) :
    ∀ other ∈ monitors.eraseP (·.publishPoint = purl), other.publishPoint ≠ purl := by
  have once := ordered.once
  rw [map_map] at once
  rw [eraseP_eq_filter once]
  exact fun other member => of_decide_eq_true (mem_filter.mp member).2

/-- One call keeps the order. -/
theorem Ordered.change {point : RefresherPoint}
    (ordered : Ordered log (point.monitors.map place)) (event : MonitorEvent) :
    Ordered (log ++ addedPoints [event]) ((change event point).monitors.map place) := by
  cases event with
  | addMonitor id para =>
    have removed : Ordered log ((point.removeMonitor para.publishPoint).monitors.map place) := by
      rw [removeMonitor_monitors]
      exact ordered.sublist (eraseP_sublist.map place)
    let monitor : RefresherPara :=
      ⟨id, 0, 0, para.sequence, para.process, para.minDuration, para.publishPoint⟩
    have others : ∀ other ∈ (point.removeMonitor para.publishPoint).monitors,
        other.publishPoint ≠ monitor.publishPoint := by
      rw [removeMonitor_monitors]
      exact ordered.gone
    rw [RefresherPoint.change, addMonitor_monitors]
    exact removed.insert others
  | findMonitor purl =>
    rw [RefresherPoint.change, removeMonitor_monitors]
    simp only [addedPoints, filterMap_cons, filterMap_nil, append_nil]
    exact ordered.sublist (eraseP_sublist.map place)
  | failedMonitor id answered =>
    simp only [addedPoints, filterMap_cons, filterMap_nil, append_nil, RefresherPoint.change,
      dataProcessingResponseHandlerForFailedMonitor]
    rw [settleFailed_eq place fun _ _ _ => rfl]
    split
    · exact ordered.sublist (eraseP_sublist.map place)
    · exact ordered

theorem Ordered.changeAll {point : RefresherPoint}
    (ordered : Ordered log (point.monitors.map place)) (events : List MonitorEvent) :
    Ordered (log ++ addedPoints events) ((changeAll events point).monitors.map place) := by
  induction events generalizing log point with
  | nil =>
    rw [addedPoints, filterMap_nil, append_nil]
    exact ordered
  | cons event rest ih =>
    have split : addedPoints (event :: rest) = addedPoints [event] ++ addedPoints rest :=
      @filterMap_append _ _ [event] rest _
    rw [split, ← append_assoc]
    exact ih (ordered.change event)

end Order

/-- After every sequence of calls the monitors stand by descending sequence number, those of one
number in the order in which their publish points were last added, and no two have one publish
point. -/
theorem monitors_inOrder (device resource : CString) (events : List MonitorEvent) :
    ((changeAll events (new device resource)).monitors.Pairwise fun one other =>
        other.sequence < one.sequence ∨ one.sequence = other.sequence ∧
          EarlierIn (addedPoints events) one.publishPoint other.publishPoint) ∧
      ((changeAll events (new device resource)).monitors.map (·.publishPoint)).Nodup := by
  have initially : Ordered [] ((new device resource).monitors.map place) :=
    ⟨List.Pairwise.nil, nodup_nil, fun place member => absurd member not_mem_nil⟩
  have ordered := initially.changeAll events
  constructor
  · exact pairwise_map.mp ordered.sorted
  · have once := ordered.once
    rwa [map_map] at once

/-! ## Their least duration -/

/-- The least duration of some monitors; without monitors it is the greatest `int`. -/
structure IsLeast (monitors : List RefresherPara) (lifetime : Int32) : Prop where
  lower : ∀ monitor ∈ monitors, lifetime ≤ monitor.minDuration
  attained : (∃ monitor ∈ monitors, monitor.minDuration = lifetime) ∨
    monitors = [] ∧ lifetime = 0x7FFFFFFF

/-- The value lifetime of a point follows its monitors. -/
def Follows (point : RefresherPoint) : Prop := IsLeast point.monitors point.valueLifetime

/-- A call after which the lifetime that is kept is still the least one: `AddMonitor` gets a
positive duration, or one that is no less than that of another monitor; and a monitor that is erased
for its errors leaves one whose duration is no greater. -/
def KeepsLeast (point : RefresherPoint) : MonitorEvent → Prop
  | .addMonitor _ para => 0 < para.minDuration ∨
      ∃ monitor ∈ (point.removeMonitor para.publishPoint).monitors,
      monitor.minDuration ≤ para.minDuration
  | .findMonitor _ => True
  | .failedMonitor id answered => answered = false →
      ∀ monitor, point.monitors.find? (·.id = id) = some monitor →
      10 < monitor.errorCnt + 1 → monitor.minDuration = 0x7FFFFFFF ∨
      ∃ other ∈ point.monitors.eraseP (·.id = id), other.minDuration ≤ monitor.minDuration

section Least

variable {point : RefresherPoint} {monitors others : List RefresherPara} {monitor : RefresherPara}
  {lifetime : Int32}

theorem le_greatest (value : Int32) : value ≤ 0x7FFFFFFF := by
  rw [Int32.le_iff_toInt_le]
  exact Int.le_of_lt_add_one value.toInt_lt

/-- The fold of `MergeParameters`, by what is below its result. -/
theorem le_leastDuration_iff {bound : Int32} :
    bound ≤ leastDuration monitors ↔ ∀ monitor ∈ monitors, bound ≤ monitor.minDuration := by
  have folded : ∀ (monitors : List RefresherPara) (least : Int32),
      bound ≤ monitors.foldl (fun least monitor => if monitor.minDuration < least then
      monitor.minDuration else least) least ↔
      bound ≤ least ∧ ∀ monitor ∈ monitors, bound ≤ monitor.minDuration := by
    intro monitors
    induction monitors with
    | nil => simp
    | cons first rest ih =>
      intro least
      rw [foldl_cons, ih, forall_mem_cons, ← and_assoc]
      refine and_congr_left fun _ => ?_
      split
      · rename_i less
        exact ⟨fun below => ⟨Int32.le_trans below (Int32.le_of_lt less), below⟩, And.right⟩
      · rename_i notLess
        exact ⟨fun below => ⟨below, Int32.le_trans below (Int32.not_lt.mp notLess)⟩, And.left⟩
  rw [leastDuration, folded]
  exact and_iff_right (le_greatest bound)

/-- The result of the fold is a duration, or there is no monitor. -/
theorem leastDuration_attained (monitors : List RefresherPara) :
    (∃ monitor ∈ monitors, monitor.minDuration = leastDuration monitors) ∨
      monitors = [] ∧ leastDuration monitors = 0x7FFFFFFF := by
  have folded : ∀ (monitors : List RefresherPara) (least : Int32),
      let result := monitors.foldl (fun least monitor =>
        if monitor.minDuration < least then monitor.minDuration else least) least
      (∃ monitor ∈ monitors, monitor.minDuration = result) ∨ result = least := by
    intro monitors
    induction monitors with
    | nil => exact fun least => .inr rfl
    | cons first rest ih =>
      intro least
      simp only [foldl_cons]
      rcases ih (if first.minDuration < least then first.minDuration else least) with
        ⟨monitor, member, same⟩ | same
      · exact .inl ⟨monitor, mem_cons_of_mem _ member, same⟩
      · rw [same]
        split
        · exact .inl ⟨first, mem_cons_self, rfl⟩
        · exact .inr rfl
  cases monitors with
  | nil => exact .inr ⟨rfl, rfl⟩
  | cons first rest =>
    left
    rcases folded (first :: rest) 0x7FFFFFFF with attained | greatest
    · exact attained
    · -- Then the first duration is the greatest `int`, too.
      refine ⟨first, mem_cons_self, Int32.le_antisymm ?_
        (le_leastDuration_iff.mp (Int32.le_refl _) first mem_cons_self)⟩
      exact (show leastDuration (first :: rest) = _ from greatest) ▸ le_greatest _

/-- `MergeParameters` finds the least duration. -/
theorem isLeast_iff : IsLeast monitors lifetime ↔ lifetime = leastDuration monitors := by
  constructor
  · rintro ⟨lower, attained⟩
    apply Int32.le_antisymm
    · exact le_leastDuration_iff.mpr lower
    · rcases attained with ⟨monitor, member, rfl⟩ | ⟨-, rfl⟩
      · exact le_leastDuration_iff.mp (Int32.le_refl _) monitor member
      · exact le_greatest _
  · rintro rfl
    exact ⟨le_leastDuration_iff.mp (Int32.le_refl _), leastDuration_attained monitors⟩

/-- Behind `MergeParameters` the lifetime follows the monitors. -/
theorem follows_mergeParameters (point : RefresherPoint) : Follows point.mergeParameters :=
  isLeast_iff.mpr rfl

/-- Only the durations matter, in any order. -/
theorem IsLeast.congr (same : (monitors.map (·.minDuration)).Perm (others.map (·.minDuration))) :
    IsLeast monitors lifetime ↔ IsLeast others lifetime := by
  have below : ∀ bound : Int32, bound ≤ leastDuration monitors ↔ bound ≤ leastDuration others := by
    intro bound
    rw [le_leastDuration_iff, le_leastDuration_iff, ← forall_mem_map,
      ← forall_mem_map (l := others)]
    exact forall_congr' fun duration => imp_congr_left same.mem_iff
  have lasts : leastDuration monitors = leastDuration others :=
    Int32.le_antisymm ((below _).mp (Int32.le_refl _)) ((below _).mpr (Int32.le_refl _))
  rw [isLeast_iff, isLeast_iff, lasts]

/-- A lifetime that is the least one of some monitors stays so with one more exactly where another
is no longer; the greatest `int` stands for a monitor that is not there. -/
theorem IsLeast.cons_iff (least : IsLeast others lifetime) : IsLeast (monitor :: others) lifetime ↔
    monitor.minDuration = 0x7FFFFFFF ∨ ∃ other ∈ others,
    other.minDuration ≤ monitor.minDuration := by
  obtain ⟨lower, attained⟩ := least
  constructor
  · rintro ⟨below, -⟩
    rcases attained with ⟨other, member, rfl⟩ | ⟨-, rfl⟩
    · exact .inr ⟨other, member, below monitor mem_cons_self⟩
    · exact .inl (Int32.le_antisymm (le_greatest _) (below monitor mem_cons_self))
  · intro longer
    have below : lifetime ≤ monitor.minDuration := by
      rcases longer with greatest | ⟨other, member, le⟩
      · exact greatest ▸ le_greatest _
      · exact Int32.le_trans (lower other member) le
    refine ⟨forall_mem_cons.mpr ⟨below, lower⟩, .inl ?_⟩
    rcases attained with ⟨other, member, same⟩ | ⟨rfl, rfl⟩
    · exact ⟨other, mem_cons_of_mem _ member, same⟩
    · exact ⟨monitor, mem_cons_self, Int32.le_antisymm (le_greatest _) below⟩

/-- With one monitor less it stays so exactly where another is no longer. -/
theorem IsLeast.of_cons_iff (least : IsLeast (monitor :: others) lifetime) :
    IsLeast others lifetime ↔ monitor.minDuration = 0x7FFFFFFF ∨ ∃ other ∈ others,
    other.minDuration ≤ monitor.minDuration := by
  constructor
  · exact fun fewer => fewer.cons_iff.mp least
  · intro longer
    obtain ⟨below, lower⟩ := forall_mem_cons.mp least.lower
    refine ⟨lower, ?_⟩
    rcases least.attained with ⟨found, member, same⟩ | ⟨empty, -⟩
    · rcases mem_cons.mp member with rfl | member
      · rcases longer with greatest | ⟨other, member, le⟩
        · have lifetimeGreatest : lifetime = 0x7FFFFFFF := same.symm.trans greatest
          cases others with
          | nil => exact .inr ⟨rfl, lifetimeGreatest⟩
          | cons other rest =>
            refine .inl ⟨other, mem_cons_self, Int32.le_antisymm ?_ (lower other mem_cons_self)⟩
            exact lifetimeGreatest ▸ le_greatest _
        · exact .inl ⟨other, member, Int32.le_antisymm (same ▸ le) (lower other member)⟩
      · exact .inl ⟨found, member, same⟩
    · cases empty

theorem Follows.removeMonitor (follows : Follows point) (purl : CString) :
    Follows (point.removeMonitor purl) := by
  unfold RefresherPoint.removeMonitor
  split
  · exact follows_mergeParameters _
  · exact follows

/-- The lifetime follows the monitors behind a call exactly where the call keeps the least one. -/
theorem Follows.change_iff (follows : Follows point) (event : MonitorEvent) :
    Follows (change event point) ↔ KeepsLeast point event := by
  cases event with
  | addMonitor id para =>
    by_cases positive : 0 < para.minDuration
    · refine iff_of_true ?_ (.inl positive)
      rw [RefresherPoint.change, addMonitor, if_pos positive]
      exact follows_mergeParameters _
    · let monitor : RefresherPara :=
        ⟨id, 0, 0, para.sequence, para.process, para.minDuration, para.publishPoint⟩
      have removed : Follows (point.removeMonitor para.publishPoint) := follows.removeMonitor _
      have notGreatest : para.minDuration ≠ 0x7FFFFFFF := by
        intro greatest
        exact positive (greatest ▸ by decide)
      calc Follows (RefresherPoint.change (.addMonitor id para) point)
          ↔ IsLeast (insertMonitor monitor (point.removeMonitor para.publishPoint).monitors)
              (point.removeMonitor para.publishPoint).valueLifetime := by
            rw [RefresherPoint.change, addMonitor, if_neg positive]
            exact Iff.rfl
        _ ↔ IsLeast (monitor :: (point.removeMonitor para.publishPoint).monitors)
              (point.removeMonitor para.publishPoint).valueLifetime :=
            IsLeast.congr ((insertMonitor_perm ..).map _)
        _ ↔ KeepsLeast point (.addMonitor id para) := by
            rw [removed.cons_iff, or_iff_right notGreatest, KeepsLeast, or_iff_right positive]
  | findMonitor purl => exact iff_of_true (follows.removeMonitor purl) trivial
  | failedMonitor id answered =>
    have durations :=
      @settleFailed_eq point.monitors id answered _ RefresherPara.minDuration fun _ _ _ => rfl
    by_cases erased : answered = false ∧
      (point.monitors.find? (·.id = id)).any fun monitor => 10 < monitor.errorCnt + 1
    · rw [if_pos erased] at durations
      obtain ⟨unanswered, failed⟩ := erased
      obtain ⟨monitor, found, failed⟩ := (Option.any_eq_true ..).mp failed
      obtain ⟨here, front, back, whole, others⟩ := List.find?_eq_some_iff_append.mp found
      have rest : point.monitors.eraseP (·.id = id) = front ++ back := by
        rw [whole, eraseP_append_right _ (by simpa using others),
          eraseP_cons_of_pos (by simpa using here)]
      have perm : point.monitors.Perm (monitor :: (front ++ back)) := whole ▸ perm_middle
      have least : IsLeast (monitor :: (front ++ back)) point.valueLifetime :=
        (IsLeast.congr (perm.map _)).mp follows
      calc Follows (RefresherPoint.change (.failedMonitor id answered) point)
          ↔ IsLeast (front ++ back) point.valueLifetime := IsLeast.congr (rest ▸ .of_eq durations)
        _ ↔ KeepsLeast point (.failedMonitor id answered) := by
            rw [least.of_cons_iff, KeepsLeast, found, rest]
            constructor
            · rintro longer - _ ⟨⟩ -
              exact longer
            · exact fun keeps => keeps unanswered monitor rfl (of_decide_eq_true failed)
    · rw [if_neg erased] at durations
      refine iff_of_true ((IsLeast.congr (.of_eq durations)).mpr follows) ?_
      intro unanswered monitor found failed
      exact absurd ⟨unanswered, by rw [found]; exact decide_eq_true failed⟩ erased

end Least

/-- In every run of a point whose calls keep the least duration, from its first monitor on, the
value lifetime is the least duration of the monitors; and a call of any other kind breaks this. -/
theorem valueLifetime_of_keepsLeast {device resource : CString} {id : UInt32}
    {para : FresherPara} {events : List MonitorEvent}
    {final : RefresherPoint} (first : KeepsLeast (new device resource) (.addMonitor id para))
    (runs : RunsUnder (fun event point => some (change event point)) KeepsLeast
      ((new device resource).addMonitor id para) events final) :
    IsLeast final.monitors final.valueLifetime ∧ ∀ event, IsLeast (change event final).monitors
      (change event final).valueLifetime ↔ KeepsLeast final event := by
  have initially : Follows ((new device resource).addMonitor id para) := by
    rcases first with positive | ⟨monitor, member, -⟩
    · rw [addMonitor, if_pos positive]
      exact follows_mergeParameters _
    · cases member
  have follows : Follows final := by
    refine runs.keeps ?_ initially
    intro point next event follows keeps performed
    obtain rfl := Option.some.inj performed
    exact (follows.change_iff event).mpr keeps
  exact ⟨follows, follows.change_iff⟩

/-- A publish point with a duration. -/
def asks (byte : UInt8) (minDuration : Int32) : FresherPara :=
  ⟨.ofBytes [byte], minDuration, true, 0⟩

/-- A second monitor comes, the first is asked for again and fails once, and the second goes. -/
def askedAgain : List MonitorEvent :=
  [.addMonitor 1 (asks 0x71 60), .addMonitor 2 (asks 0x70 90), .failedMonitor 2 false,
    .findMonitor (.ofBytes [0x71])]

theorem valueLifetime_of_keepsLeast_askedAgain :
    let point := changeAll askedAgain
      ((new (.ofBytes [0x64]) (.ofBytes [0x2F, 0x72])).addMonitor 0 (asks 0x70 10))
    IsLeast point.monitors point.valueLifetime ∧ point.valueLifetime = 90 := by
  have once : KeepsLeast (changeAll [.addMonitor 1 (asks 0x71 60), .addMonitor 2 (asks 0x70 90)]
      ((new (.ofBytes [0x64]) (.ofBytes [0x2F, 0x72])).addMonitor 0 (asks 0x70 10)))
      (.failedMonitor 2 false) := by
    intro _ monitor found failed
    obtain rfl := Option.some.inj found
    exact absurd failed (by decide)
  have positive : (0 : Int32) < 10 ∧ (0 : Int32) < 60 ∧ (0 : Int32) < 90 := by decide
  have runs := @valueLifetime_of_keepsLeast (.ofBytes [0x64]) (.ofBytes [0x2F, 0x72]) 0
    (asks 0x70 10) askedAgain _ (.inl positive.1) (.call (.inl positive.2.1) rfl
      (.call (.inl positive.2.2) rfl (.call once rfl (.call trivial rfl (.done _)))))
  exact ⟨runs.1, by decide⟩

/-- A monitor of 10 seconds never responds and is erased; the point goes on counting on 10 seconds
though its only monitor asks for 60. And a first monitor without a duration leaves 30 seconds. -/
theorem valueLifetime_unanswered_fails :
    let point := changeAll
      (.addMonitor 1 (asks 0x71 60) :: List.replicate 11 (.failedMonitor 0 false))
      ((new (.ofBytes [0x64]) (.ofBytes [0x2F, 0x72])).addMonitor 0 (asks 0x70 10))
    let bare := (new (.ofBytes [0x64]) (.ofBytes [0x2F, 0x72])).addMonitor 0 (asks 0x70 0)
    point.monitors.map (·.minDuration) = [60] ∧ point.valueLifetime = 10 ∧
    ¬IsLeast point.monitors point.valueLifetime ∧ bare.monitors.map (·.minDuration) = [0] ∧
    bare.valueLifetime = 30 ∧ ¬IsLeast bare.monitors bare.valueLifetime := by
  refine ⟨by decide, by decide, ?_, by decide, by decide, ?_⟩
  · rw [isLeast_iff]
    decide
  · rw [isLeast_iff]
    decide

/-! ## Times that are counted from it -/

/-- A value of `int` arithmetic; on overflow there is none. -/
def intValue (value : Int) : Option Int32 := if -2 ^ 31 ≤ value ∧ value < 2 ^ 31 then
    some (.ofInt value) else none

/-- `interval` of `handle_data_observing_json`, which becomes the duration of the monitor. -/
def observedInterval (interval : Int32) : Int32 := if interval ≤ 0 then 10 else interval

/-- `SetExpiry`'s timeout when it is given none. -/
def backOff (point : RefresherPoint) : Option Int32 :=
  if 5 < point.readFails then do
    let extra ← intValue (point.valueLifetime.toInt * (min 10 (point.readFails - 5)).toInt)
    intValue (point.valueLifetime.toInt + extra.toInt)
  else some point.valueLifetime

/-- `GetValueLifetime() * 1000`, the timeout of `ReadRefreshPoint`'s requests. -/
def requestTimeout (point : RefresherPoint) : Option Int32 :=
  intValue (point.valueLifetime.toInt * 1000)

/-- Both times are there and positive. -/
def Countable (point : RefresherPoint) : Prop :=
  (∃ timeout, point.backOff = some timeout ∧ 0 < timeout) ∧ ∃ timeout,
    point.requestTimeout = some timeout ∧ 0 < timeout

section Times

variable {point : RefresherPoint} {value : Int}

theorem intValue_positive_iff : (∃ result, intValue value = some result ∧ 0 < result) ↔
    0 < value ∧ value < 2 ^ 31 := by
  unfold intValue
  split
  · rename_i inRange
    have exact_ : (Int32.ofInt value).toInt = value := Int32.toInt_ofInt_of_le inRange.1 inRange.2
    constructor
    · rintro ⟨_, ⟨⟩, positive⟩
      rw [Int32.lt_iff_toInt_lt, exact_] at positive
      exact ⟨positive, inRange.2⟩
    · rintro ⟨positive, -⟩
      refine ⟨_, rfl, ?_⟩
      rw [Int32.lt_iff_toInt_lt, exact_]
      exact positive
  · rename_i outside
    constructor
    · rintro ⟨_, ⟨⟩, -⟩
    · intro inRange
      exact absurd ⟨by omega, inRange.2⟩ outside

/-- A request has a timeout exactly where the lifetime is positive and at most 2147483 seconds. -/
theorem requestTimeout_positive_iff :
    (∃ timeout, point.requestTimeout = some timeout ∧ 0 < timeout) ↔
    0 < point.valueLifetime ∧ point.valueLifetime ≤ 2147483 := by
  rw [requestTimeout, intValue_positive_iff, Int32.lt_iff_toInt_lt, Int32.le_iff_toInt_le]
  change _ ↔ 0 < point.valueLifetime.toInt ∧ point.valueLifetime.toInt ≤ 2147483
  omega

/-- After more than five failures the lifetime is counted up to ten times more. -/
theorem extraTimes (often : 5 < point.readFails) :
    1 ≤ (min 10 (point.readFails - 5)).toInt ∧ (min 10 (point.readFails - 5)).toInt ≤ 10 := by
  have fails : (5 : Int) < point.readFails.toInt := Int32.lt_iff_toInt_lt.mp often
  have difference : (point.readFails - 5).toInt = point.readFails.toInt - 5 :=
    Int32.toInt_sub_of_le _ _ (by decide) (Int32.le_of_lt often)
  have ten : (10 : Int32).toInt = 10 := rfl
  rw [Std.min_eq_if]
  split
  · rw [ten]
    omega
  · rename_i less
    have less := Int32.lt_iff_toInt_lt.mp (Int32.not_le.mp less)
    rw [ten] at less
    omega

/-- At such a lifetime the back-off stays in range, too. -/
theorem backOff_positive (positive : 0 < point.valueLifetime)
    (small : point.valueLifetime ≤ 2147483) :
    ∃ timeout, point.backOff = some timeout ∧ 0 < timeout := by
  unfold backOff
  split
  · rename_i often
    obtain ⟨low, high⟩ := extraTimes often
    generalize (min 10 (point.readFails - 5)).toInt = times at low high
    have positive : 0 < point.valueLifetime.toInt := Int32.lt_iff_toInt_lt.mp positive
    have small : point.valueLifetime.toInt ≤ 2147483 := Int32.le_iff_toInt_le.mp small
    have more : 0 < point.valueLifetime.toInt * times := Int.mul_pos positive (by omega)
    have notMuch : point.valueLifetime.toInt * times ≤ 2147483 * 10 :=
      Int.mul_le_mul small high (by omega) (by decide)
    obtain ⟨extra, isExtra, -⟩ := intValue_positive_iff.mpr ⟨more, by omega⟩
    have value : extra.toInt = point.valueLifetime.toInt * times := by
      rw [intValue, if_pos (by omega)] at isExtra
      rw [← Option.some.inj isExtra]
      exact Int32.toInt_ofInt_of_le (by omega) (by omega)
    obtain ⟨timeout, isTimeout, positive⟩ : ∃ timeout,
        intValue (point.valueLifetime.toInt + extra.toInt) = some timeout ∧ 0 < timeout :=
      intValue_positive_iff.mpr (by omega)
    refine ⟨timeout, ?_, positive⟩
    rw [isExtra]
    exact isTimeout
  · exact ⟨point.valueLifetime, rfl, positive⟩

theorem observedInterval_positive (interval : Int32) : 0 < observedInterval interval := by
  unfold observedInterval
  split
  · decide
  · rename_i positive
    exact Int32.not_le.mp positive

end Times

/-- For every list of monitors whose durations `handle_data_observing` admits and every number of
failures: the back-off and the timeout of a request stay in range and positive exactly where a
monitor asks for at most 2147483 seconds. Without monitors they do not. -/
theorem countable_iff (point : RefresherPoint) (admitted : ∀ monitor ∈ point.monitors, ∃ interval,
      monitor.minDuration = observedInterval interval) : Countable point.mergeParameters ↔
    ∃ monitor ∈ point.monitors, monitor.minDuration ≤ 2147483 := by
  have least : IsLeast point.monitors point.mergeParameters.valueLifetime :=
    follows_mergeParameters point
  have positive : 0 < point.mergeParameters.valueLifetime := by
    rcases least.attained with ⟨monitor, member, same⟩ | ⟨-, greatest⟩
    · obtain ⟨interval, admits⟩ := admitted monitor member
      rw [← same, admits]
      exact observedInterval_positive interval
    · rw [greatest]
      decide
  have small : point.mergeParameters.valueLifetime ≤ 2147483 ↔ ∃ monitor ∈ point.monitors,
      monitor.minDuration ≤ 2147483 := by
    constructor
    · intro small
      rcases least.attained with ⟨monitor, member, same⟩ | ⟨-, greatest⟩
      · exact ⟨monitor, member, same ▸ small⟩
      · rw [greatest] at small
        exact absurd small (by decide)
    · rintro ⟨monitor, member, small⟩
      exact Int32.le_trans (least.lower monitor member) small
  rw [Countable, requestTimeout_positive_iff, ← small]
  constructor
  · rintro ⟨-, -, small⟩
    exact small
  · intro small
    exact ⟨backOff_positive positive small, positive, small⟩

/-- A point with monitors of a day and of a minute, after nine failures. -/
def failingPoint : RefresherPoint :=
  { new (.ofBytes [0x64]) (.ofBytes [0x2F, 0x72]) with
    readFails := 9
    monitors := [⟨0, 0, 0, 0, false, 86400, .ofBytes [0x70]⟩,
      ⟨1, 0, 0, 0, false, 60, .ofBytes [0x71]⟩] }

theorem countable_failingPoint : Countable failingPoint.mergeParameters := by
  refine (countable_iff failingPoint ?_).mpr
    ⟨⟨1, 0, 0, 0, false, 60, .ofBytes [0x71]⟩, by decide, by decide⟩
  intro monitor member
  refine ⟨monitor.minDuration, ?_⟩
  revert monitor
  decide

/-- With an interval of 30 days the timeout of a request overflows; and without monitors so does the
back-off. -/
theorem countable_month_fails :
    (∃ monitor : RefresherPara, monitor.minDuration = observedInterval 2592000 ∧
      ¬Countable { failingPoint with monitors := [monitor] }.mergeParameters) ∧
      { failingPoint with monitors := [] }.mergeParameters.backOff = none := by
  refine ⟨⟨⟨0, 0, 0, 0, false, 2592000, .ofBytes [0x70]⟩, by decide, ?_⟩, by decide⟩
  rintro ⟨-, timeout, overflowed, -⟩
  have none_ : { failingPoint with
      monitors := [⟨0, 0, 0, 0, false, 2592000,
        .ofBytes [0x70]⟩] }.mergeParameters.requestTimeout = none := by
    decide
  rw [none_] at overflowed
  cases overflowed

end Idrm.Devices.RefresherPoint
