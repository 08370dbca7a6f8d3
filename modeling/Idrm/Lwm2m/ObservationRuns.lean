import Idrm.Lwm2m.Observations

/-!
# Runs of the LwM2M server

`Kept` is what the records and the observations of the stack have to do with each other:
  every observation
has a record of its own in the list,
  and the records in the list are live and have different keys. It is kept by
every event that is `Admitted`: a resource is observed that has no record, a first report that fails
finds no memory for its response, and a cancellation releases the record of the observation it ends.
-/

namespace Idrm.Lwm2m

open Idrm.Lib Idrm.Bus Function Option List

variable {U : Type}

/-! ## The records -/

/-- At most one record of a client and a url is in the list, none of them is released, and no record
was used after that. -/
structure Sound (state : ObsState U) : Prop where
  single : (state.list.map fun node => (state.heap node).map ObsUserData.key).Nodup
  unreleased : ∀ node ∈ state.list, node ∉ state.released
  unused : state.misused = []

/-- The records and the observations of the stack. -/
structure Kept (state : ObsState U) : Prop extends Sound state where
  allocated : ∀ node ∈ state.list, (state.heap node).isSome
  fresh : ∀ node, state.nextPtr ≤ node → node ∉ state.list ∧ node ∉ state.released
  observed : ∀ observation ∈ state.observations, observation.userData ∈ state.list
  apart : (state.observations.map (·.userData)).Nodup

theorem kept_start : Kept (ObsState.start : ObsState U) where
  single := nodup_nil
  unreleased := fun _ member => absurd member not_mem_nil
  unused := rfl
  allocated := fun _ member => absurd member not_mem_nil
  fresh := fun _ _ => ⟨not_mem_nil, not_mem_nil⟩
  observed := fun _ member => absurd member not_mem_nil
  apart := nodup_nil

/-- The records are the same but for what does not name them. -/
structure SameRecords (state after : ObsState U) : Prop where
  list : after.list = state.list
  keys : ∀ node, (after.heap node).map ObsUserData.key = (state.heap node).map ObsUserData.key
  released : after.released = state.released
  misused : after.misused = state.misused
  nextPtr : after.nextPtr = state.nextPtr
  observations : after.observations = state.observations

section Steps

variable {state after : ObsState U} {node : Nat} {data : ObsUserData} {nodes : List Nat}

theorem SameRecords.refl (state : ObsState U) : SameRecords state state :=
  ⟨rfl, fun _ => rfl, rfl, rfl, rfl, rfl⟩

theorem SameRecords.trans {last : ObsState U} (first : SameRecords state after)
    (second : SameRecords after last) : SameRecords state last where
  list := second.list.trans first.list
  keys := fun node => (second.keys node).trans (first.keys node)
  released := second.released.trans first.released
  misused := second.misused.trans first.misused
  nextPtr := second.nextPtr.trans first.nextPtr
  observations := second.observations.trans first.observations

theorem sameRecords_publish (message : BusMessage) (state : ObsState U) :
    SameRecords state (state.publish message) :=
  ⟨rfl, fun _ => rfl, rfl, rfl, rfl, rfl⟩

theorem sameRecords_write (there : state.heap node = some data) {changed : ObsUserData}
    (same : changed.key = data.key) : SameRecords state (state.write node changed) := by
  refine ⟨rfl, fun other => ?_, rfl, rfl, rfl, rfl⟩
  change (update state.heap node (some changed) other).map ObsUserData.key = _
  by_cases isNode : other = node
  · rw [isNode, update_self, there, map_some, map_some, same]
  · rw [update_of_ne isNode]

theorem Kept.same (kept : Kept state) (same : SameRecords state after) : Kept after where
  single := by
    rw [same.list]
    simp only [same.keys]
    exact kept.single
  unreleased := by
    rw [same.list, same.released]
    exact kept.unreleased
  unused := same.misused.trans kept.unused
  allocated := by
    intro node member
    have present := kept.allocated node (same.list ▸ member)
    rw [← isSome_map (f := ObsUserData.key), same.keys, isSome_map]
    exact present
  fresh := by
    rw [same.list, same.released, same.nextPtr]
    exact kept.fresh
  observed := by
    rw [same.list, same.observations]
    exact kept.observed
  apart := by
    rw [same.observations]
    exact kept.apart

/-! ## Uses of a record -/

/-- A record is live: it is there and was not released. -/
def Live (state : ObsState U) (node : Nat) : Prop :=
  (state.heap node).isSome ∧ node ∉ state.released

theorem Kept.live (kept : Kept state) (member : node ∈ state.list) : Live state node :=
  ⟨kept.allocated node member, kept.unreleased node member⟩

theorem Live.read (live : Live state node) :
    ∃ data, state.heap node = some data ∧ state.read node = some (data, state) := by
  obtain ⟨data, there⟩ := isSome_iff_exists.mp live.1
  refine ⟨data, there, ?_⟩
  rw [ObsState.read, there, if_neg live.2, map_some]

/-- The walk over live records finds what it finds. -/
theorem findFrom_live (ep url : CString) (live : ∀ node ∈ nodes, Live state node) :
    ∃ found, ObsState.findFrom ep url nodes state = some (found, state) := by
  induction nodes with
  | nil => exact ⟨none, rfl⟩
  | cons node rest ih =>
    obtain ⟨data, -, isRead⟩ := (live node mem_cons_self).read
    simp only [ObsState.findFrom, isRead, bind_eq_bind, bind_some]
    split
    · exact ⟨some node, rfl⟩
    · exact ih fun other member => live other (mem_cons_of_mem _ member)

/-- The walk over live records takes the first one that it looks for out of the list. -/
theorem removeFrom_live (node : Nat) (live : ∀ node ∈ nodes, Live state node) :
    ObsState.removeFrom node nodes state = some (nodes.erase node, state) := by
  induction nodes with
  | nil => rfl
  | cons current rest ih =>
    obtain ⟨data, -, isRead⟩ := (live current mem_cons_self).read
    simp only [ObsState.removeFrom, isRead, bind_eq_bind, bind_some]
    by_cases here : node = current
    · rw [if_pos here, here, erase_cons_head]
    · rw [if_neg here, ih fun other member => live other (mem_cons_of_mem _ member), bind_some,
        erase_cons_tail (by simpa using Ne.symm here)]

/-- A state without a record that was just released. -/
def ObsState.without (node : Nat) (state : ObsState U) : ObsState U :=
  { state with list := state.list.erase node, released := node :: state.released }

theorem Kept.dropRecord (kept : Kept state) (member : node ∈ state.list) :
    (state.removeObsUserData node).bind (·.releaseObsUserData node) =
      some (state.without node) := by
  have removed := removeFrom_live node fun other inside => kept.live inside
  have live : Live { state with list := state.list.erase node } node := kept.live member
  obtain ⟨data, -, isRead⟩ := live.read
  simp only [ObsState.removeObsUserData, removed, bind_eq_bind, bind_some,
    ObsState.releaseObsUserData, isRead]
  rfl

theorem Kept.nodup (kept : Kept state) : state.list.Nodup := List.Nodup.of_map _ kept.single

/-- An observation ends and its record is released. -/
theorem Kept.ended (kept : Kept state) {index : Nat}
    {observation : Observation U} (there : state.observations[index]? = some observation) :
    Kept { state.without observation.userData with
      observations := state.observations.eraseIdx index } := by
  obtain ⟨inside, isHere⟩ := List.getElem?_eq_some_iff.mp there
  have perm := (getElem_cons_eraseIdx_perm inside).map (·.userData)
  rw [isHere, map_cons] at perm
  obtain ⟨own, others⟩ := nodup_cons.mp (perm.nodup_iff.mpr kept.apart)
  have listed : observation.userData ∈ state.list :=
    kept.observed observation (mem_of_getElem? there)
  have kept_of_erase : ∀ node ∈ state.list.erase observation.userData, node ≠ observation.userData ∧
      node ∈ state.list := fun node member =>
    (List.Nodup.mem_erase_iff kept.nodup).mp member
  exact {
    single := kept.single.sublist (erase_sublist.map _)
    unreleased := fun node member => not_mem_cons_of_ne_of_not_mem (kept_of_erase node member).1
      (kept.unreleased node (kept_of_erase node member).2)
    unused := kept.unused
    allocated := fun node member => kept.allocated node (kept_of_erase node member).2
    fresh := by
      intro node above
      have released : node ≠ observation.userData := by
        rintro rfl
        exact (kept.fresh _ above).1 listed
      exact ⟨fun member => (kept.fresh node above).1 (mem_of_mem_erase member),
        not_mem_cons_of_ne_of_not_mem released (kept.fresh node above).2⟩
    observed := by
      intro other member
      refine (List.Nodup.mem_erase_iff kept.nodup).mpr
        ⟨fun same => own ?_, kept.observed other (mem_of_mem_eraseIdx member)⟩
      exact same ▸ List.mem_map_of_mem member
    apart := others }

/-- An observation ends and its record stays. -/
theorem Kept.forgotten (kept : Kept state) (index : Nat) :
    Kept { state with observations := state.observations.eraseIdx index } where
  single := kept.single
  unreleased := kept.unreleased
  unused := kept.unused
  allocated := kept.allocated
  fresh := kept.fresh
  observed := fun observation member => kept.observed observation (mem_of_mem_eraseIdx member)
  apart := kept.apart.sublist ((eraseIdx_sublist _ _).map _)

/-- A record whose key is new goes to the front. -/
theorem Kept.newRecord (kept : Kept state)
    (unkeyed : ∀ node ∈ state.list, ∀ other, state.heap node = some other → other.key ≠ data.key) :
    Kept (state.newObsUserData data) := by
  have apart : ∀ node ∈ state.list, node ≠ state.nextPtr := by
    rintro node member rfl
    exact (kept.fresh _ (Nat.le_refl _)).1 member
  have isNew : (state.newObsUserData data).heap state.nextPtr = some data := update_self ..
  have unchanged : ∀ node ∈ state.list, (state.newObsUserData data).heap node = state.heap node :=
    fun node member =>
    update_of_ne (apart node member) ..
  exact {
    single := by
      change (List.map _ (state.nextPtr :: state.list)).Nodup
      rw [map_cons, nodup_cons, isNew,
        map_congr_left fun node member => congrArg _ (unchanged node member)]
      refine ⟨fun member => ?_, kept.single⟩
      obtain ⟨node, listed, same⟩ := List.mem_map.mp member
      obtain ⟨other, there, isKey⟩ := map_eq_some_iff.mp same
      exact unkeyed node listed other there isKey
    unreleased := by
      intro node member
      rcases mem_cons.mp member with rfl | listed
      · exact (kept.fresh _ (Nat.le_refl _)).2
      · exact kept.unreleased node listed
    unused := kept.unused
    allocated := by
      intro node member
      rcases mem_cons.mp member with rfl | listed
      · rw [isNew]
        rfl
      · rw [unchanged node listed]
        exact kept.allocated node listed
    fresh := by
      intro node above
      have below := kept.fresh node (Nat.le_of_succ_le above)
      exact ⟨not_mem_cons_of_ne_of_not_mem (Nat.ne_of_gt above) below.1, below.2⟩
    observed := fun observation member => mem_cons_of_mem _ (kept.observed observation member)
    apart := kept.apart }

/-- An observation takes a record that no other one has. -/
theorem Kept.observing (kept : Kept state)
    (observation : Observation U) (listed : observation.userData ∈ state.list)
    (own : ∀ other ∈ state.observations, other.userData ≠ observation.userData) (place : Nat) :
    Kept { state with observations := state.observations.insertIdx place observation } := by
  rcases Nat.lt_or_ge state.observations.length place with outside | inside
  · rw [insertIdx_of_length_lt outside]
    exact kept
  · have perm := perm_insertIdx observation state.observations inside
    refine { kept with observed := fun other member => ?_, apart := ?_ }
    · rcases mem_cons.mp (perm.subset member) with rfl | before
      · exact listed
      · exact kept.observed other before
    · refine (perm.map (·.userData)).nodup_iff.mpr (nodup_cons.mpr ⟨fun member => ?_, kept.apart⟩)
      obtain ⟨other, before, same⟩ := List.mem_map.mp member
      exact own other before same

end Steps

/-! ## Events -/

/-- What an event may do: a resource is observed that has no record; where the first report fails,
there is no memory for the map of its response; and a cancellation finds the observation that it
ends, if the client is still there. -/
def Admitted [DecidableEq U] (state : ObsState U) : ObsEvent U → Prop
  | .request request _ => request.starts = true → ∀ node ∈ state.list, ∀ data,
      state.heap node = some data → data.key ≠ (request.name, request.uriStr)
  | .notify index notification => ∀ observation, state.observations[index]? = some observation →
      FirstFails notification observation.userData state → notification.allocatesMap = false
  | .cancelled index ended result => result.clientFound = true →
      ∀ cancellation, state.cancellations[index]? = some cancellation →
      findObservation cancellation.client cancellation.uri state = ended
  | .forget _ => True

section Events

variable {state after : ObsState U} {node : Nat} {data : ObsUserData} {notification : Notification}

theorem Kept.request (kept : Kept state) {request : ObsRequest U} {answer : Option Nat}
    (unkeyed : request.starts = true → ∀ node ∈ state.list, ∀ data, state.heap node = some data →
      data.key ≠ (request.name, request.uriStr))
    (ran : checkBusMessage request answer state = some after) : Kept after := by
  obtain ⟨found, isFound⟩ :=
    findFrom_live request.name request.uriStr fun node member => kept.live member
  unfold checkBusMessage ObsState.findObsUserData at ran
  rw [isFound] at ran
  simp only [bind_eq_bind, bind_some] at ran
  split at ran
  · rename_i starts
    have recorded : Kept (state.newObsUserData request.userData) := kept.newRecord (unkeyed starts)
    split at ran
    · obtain rfl := some.inj ran
      exact recorded
    · rename_i place
      obtain rfl := some.inj ran
      refine recorded.observing ⟨request.client, request.uri, state.nextPtr⟩ mem_cons_self
        (fun other member => ?_) place
      intro same
      exact (kept.fresh _ (Nat.le_of_eq same.symm)).1 (kept.observed other member)
  · obtain ⟨src, -, ran⟩ := bind_eq_some_iff.mp ran
    split at ran
    · obtain rfl := some.inj ran
      exact { kept with }
    · obtain rfl := some.inj ran
      exact kept

/-- A report leaves the records. -/
theorem Live.reportData (live : Live state node)
    (ran : reportData notification node state = some after) : SameRecords state after := by
  obtain ⟨data, there, isRead⟩ := live.read
  unfold Lwm2m.reportData at ran
  rw [isRead] at ran
  simp only [bind_eq_bind, bind_some] at ran
  split at ran
  · obtain rfl := some.inj ran
    exact .refl state
  · split at ran
    · cases ran
    · obtain rfl := some.inj ran
      have published : (state.publish (report notification data)).heap node = some data := there
      exact (sameRecords_publish _ state).trans (sameRecords_write published rfl)

theorem SameRecords.live (same : SameRecords state after) (live : Live state node) :
    Live after node := by
  refine ⟨?_, same.released ▸ live.2⟩
  rw [← isSome_map (f := ObsUserData.key), same.keys, isSome_map]
  exact live.1

/-- A first report with data leaves the records. -/
theorem Live.reportFirst (live : Live state node)
    (there : state.heap node = some data) (given : notification.data ≠ none) {goesOn : Bool}
    (ran : reportFirst notification node data state = some (goesOn, after)) :
    SameRecords state after := by
  have written : SameRecords state (state.write node { data with firstReported := true }) :=
    sameRecords_write there rfl
  obtain ⟨recorded, -, isRead⟩ := (written.live live).read
  unfold Lwm2m.reportFirst settleFirst at ran
  rw [if_neg (by simpa using given)] at ran
  simp only [bind_eq_bind, bind_some, isRead] at ran
  split at ran
  · obtain ⟨rfl, rfl⟩ := Prod.mk.inj (some.inj ran)
    exact written
  · split at ran
    · split at ran
      · obtain ⟨rfl, rfl⟩ := Prod.mk.inj (some.inj ran)
        exact written.trans (sameRecords_publish _ _)
      · obtain ⟨rfl, rfl⟩ := Prod.mk.inj (some.inj ran)
        exact written
    · obtain ⟨rfl, rfl⟩ := Prod.mk.inj (some.inj ran)
      exact written

/-- A first report that fails releases the record, and is over where there is no memory for the
response. -/
theorem Kept.reportFirst (kept : Kept state) (member : node ∈ state.list)
    (failed : notification.data = none) (noMap : notification.allocatesMap = false) :
    reportFirst notification node data state = some (false, state.without node) := by
  unfold Lwm2m.reportFirst settleFirst
  rw [failed, isNone_none, if_pos rfl, kept.dropRecord member, noMap]
  rfl

theorem Kept.notify (kept : Kept state) {index : Nat} {observation : Observation U}
    (there : state.observations[index]? = some observation)
    (fails : FirstFails notification observation.userData state → notification.allocatesMap = false)
    (ran : obsNotifyCallback notification observation.userData state = some after) :
    Kept (if FirstFails notification observation.userData state then
      { after with observations := after.observations.eraseIdx index }
      else after) := by
  have member := kept.observed observation (mem_of_getElem? there)
  have live := kept.live member
  obtain ⟨data, isData, isRead⟩ := live.read
  unfold obsNotifyCallback at ran
  rw [isRead] at ran
  simp only [bind_eq_bind, bind_some] at ran
  by_cases reported : data.firstReported = true
  · rw [if_pos reported] at ran
    rw [if_neg (by simp [FirstFails, isData, reported])]
    exact kept.same (live.reportData ran)
  rw [if_neg reported] at ran
  by_cases failed : notification.data = none
  · have firstFails : FirstFails notification observation.userData state :=
      ⟨failed, by simp [isData, reported]⟩
    rw [kept.reportFirst member failed (fails firstFails), bind_some] at ran
    obtain rfl := some.inj ran
    rw [if_pos firstFails]
    exact kept.ended there
  · obtain ⟨⟨goesOn, between⟩, first, ran⟩ := bind_eq_some_iff.mp ran
    have same := live.reportFirst isData failed first
    rw [if_neg fun firstFails => failed firstFails.1]
    simp only at ran
    split at ran
    · exact kept.same (same.trans ((same.live live).reportData ran))
    · obtain rfl := some.inj ran
      exact kept.same same

/-! ### Cancellations -/

theorem SameRecords.cancelled (same : SameRecords state after)
    (cancellations : List (Cancellation U)) :
    SameRecords state { after with cancellations := cancellations } :=
  ⟨same.list, same.keys, same.released, same.misused, same.nextPtr, same.observations⟩

theorem SameRecords.ended (same : SameRecords state after) (index : Nat) :
    SameRecords { state with observations := state.observations.eraseIdx index }
      { after with observations := after.observations.eraseIdx index } :=
  ⟨same.list, same.keys, same.released, same.misused, same.nextPtr,
    congrArg (·.eraseIdx index) same.observations⟩

variable [DecidableEq U]

/-- The response to a cancellation leaves the records. -/
theorem requestResultCallback_same {cancellation : Cancellation U} {result : CancelResult}
    (ran : requestResultCallback cancellation result state = some after) :
    ∃ before, releaseFound cancellation result.clientFound state = some before ∧
    SameRecords before after := by
  obtain ⟨before, released, ran⟩ := bind_eq_some_iff.mp ran
  refine ⟨before, released, ?_⟩
  split at ran
  · obtain ⟨message, -, rfl⟩ := map_eq_some_iff.mp ran
    exact sameRecords_publish message before
  · obtain rfl := some.inj ran
    exact .refl before

theorem Kept.cancelled (kept : Kept state) {index : Nat} {place : Option Nat}
    {result : CancelResult} (admitted : Admitted state (.cancelled index place result))
    (performed : perform (.cancelled index place result) state = some after) : Kept after := by
  obtain ⟨cancellation, there, performed⟩ := bind_eq_some_iff.mp performed
  obtain ⟨called, ran, performed⟩ := bind_eq_some_iff.mp performed
  obtain ⟨before, released, same⟩ := requestResultCallback_same ran
  cases clientFound : result.clientFound with
  | false =>
    rw [releaseFound, clientFound, if_neg Bool.false_ne_true] at released
    obtain rfl := some.inj released
    cases place with
    | none =>
      obtain rfl := some.inj performed
      exact kept.same (same.cancelled _)
    | some place =>
      obtain ⟨observation, -, performed⟩ := bind_eq_some_iff.mp performed
      split at performed
      · obtain rfl := some.inj performed
        exact (kept.forgotten place).same ((same.cancelled _).ended place)
      · cases performed
  | true =>
    rw [releaseFound, clientFound, if_pos rfl, admitted clientFound cancellation there] at released
    cases place with
    | none =>
      obtain rfl := some.inj released
      obtain rfl := some.inj performed
      exact kept.same (same.cancelled _)
    | some place =>
      obtain ⟨observation, here, performed⟩ := bind_eq_some_iff.mp performed
      simp only [bind_some, here,
        kept.dropRecord (kept.observed observation (mem_of_getElem? here))] at released
      obtain rfl := some.inj released
      split at performed
      · obtain rfl := some.inj performed
        exact (kept.ended here).same ((same.cancelled _).ended place)
      · cases performed

theorem Kept.step (kept : Kept state)
    {event : ObsEvent U} {next : ObsState U} (admitted : Admitted state event)
    (performed : perform event state = some next) : Kept next := by
  cases event with
  | request request answer => exact kept.request admitted performed
  | notify index notification =>
    obtain ⟨observation, there, performed⟩ := bind_eq_some_iff.mp performed
    obtain ⟨after, ran, performed⟩ := bind_eq_some_iff.mp performed
    have notified := kept.notify there (admitted observation there) ran
    split at performed
    · rename_i fails
      obtain rfl := some.inj performed
      rwa [if_pos fails] at notified
    · rename_i goesOn
      obtain rfl := some.inj performed
      rwa [if_neg goesOn] at notified
  | cancelled index place result => exact kept.cancelled admitted performed
  | forget index =>
    obtain rfl := some.inj performed
    exact kept.forgotten index

end Events

/-- In every run whose events are admitted: the list has at most one record of a client and a url,
none of its records was released, and no record was used after its release. -/
theorem obsRecords_sound [DecidableEq U] {events : List (ObsEvent U)} {final : ObsState U}
    (runs : RunsUnder perform Admitted .start events final) : Sound final :=
  (runs.keeps (fun kept admitted performed => Kept.step kept admitted performed) kept_start).toSound

/-- A request of a plugin `"m"` for `"/3/0"` of the client `"c"`. -/
def sampleRequest (obs : List UInt8) : ObsRequest Nat :=
  ⟨1, .ofBytes [0x63], .ofBytes [0x2F, 0x33, 0x2F, 0x30], 30, .ofBytes obs, some (.ofBytes [0x6D]),
    .ofBytes [0x37], none⟩

/-- A report with some data or without, and memory for all that follows. -/
def sampleReport (data : Option (List UInt8)) : Notification := ⟨0, 0, data, 0, true, true, true⟩

/-- The client is there, and there is memory for the response. -/
def sampleResult : CancelResult := ⟨0, 0, none, true, true⟩

/-- The resource is observed twice. -/
def observedTwice : List (ObsEvent Nat) :=
  [.request (sampleRequest [0x31]) (some 0), .request (sampleRequest [0x31]) (some 1)]

/-- The first report fails. -/
def failedFirst : List (ObsEvent Nat) :=
  [.request (sampleRequest [0x31]) (some 0), .notify 0 (sampleReport none)]

/-- The observation is cancelled twice, and the resource is observed again before the second
result. -/
def cancelledTwice : List (ObsEvent Nat) :=
  [.request (sampleRequest [0x31]) (some 0), .request (sampleRequest [0x30]) (some 0),
    .request (sampleRequest [0x30]) (some 0), .cancelled 0 (some 0) sampleResult,
    .request (sampleRequest [0x31]) (some 0), .cancelled 0 none sampleResult,
    .notify 0 (sampleReport (some [0x35]))]

/-- Two records have the client and the url of one request; a record is read for the response after
the failed report released it; and the second result releases the record of the new observation,
which is used by its first report. -/
theorem obsRecords_fail : (∃ final, runAll perform observedTwice .start = some final ∧
      ¬(final.list.map fun node => (final.heap node).map ObsUserData.key).Nodup) ∧
    (∃ final, runAll perform failedFirst .start = some final ∧ final.misused = [0, 0]) ∧
    ∃ final, runAll perform cancelledTwice .start = some final ∧ final.misused = [1, 1, 1] :=
  ⟨⟨_, rfl, by decide⟩, ⟨_, rfl, rfl⟩, ⟨_, rfl, rfl⟩⟩

/-- The resource is observed, reported, cancelled and observed again. -/
def observedAgain : List (ObsEvent Nat) :=
  [.request (sampleRequest [0x31]) (some 0),
    .notify 0 (sampleReport (some [0x35])), .request (sampleRequest [0x30]) (some 0),
    .cancelled 0 (some 0) sampleResult, .request (sampleRequest [0x31]) (some 0)]

theorem obsRecords_sound_observedAgain : ∃ final, runAll perform observedAgain .start = some final ∧
    Sound final := by
  refine ⟨_, rfl, @obsRecords_sound Nat _ observedAgain _ ?_⟩
  refine .call (fun _ node member => absurd member not_mem_nil) rfl
    (.call ?_ rfl (.call ?_ rfl (.call ?_ rfl (.call ?_ rfl (.done _)))))
  · intro observation _ fails
    cases fails.1
  · intro starts
    cases starts
  · intro _ cancellation there
    cases there
    rfl
  · exact fun _ node member => absurd member not_mem_nil

end Idrm.Lwm2m
