import Idrm.Devices.PublishRetry

/-!
# The format of the data that is published

`OnRefresherData` is given the format of its data and hands it to the requests it sends itself.
The context of a flow has a place for it that nothing ever writes: what the response handler
sends behind a monitor carries 0. A log keeps, for every request that is sent, the data point it is
made for.
-/

namespace Idrm.Devices

open Idrm.Lib Idrm.Coap Function Option List

namespace PublishWorld

/-- A data point on its way: the format it came with, and whether a monitor has replaced its
payload. -/
structure DataPoint where
  fmt : Int32
  replaced : Bool
deriving DecidableEq

/-- The data point of each context, and what was sent for it. -/
structure FormatLog where
  points : Nat → Option DataPoint
  sent : List (DataPoint × PublishRequest)

/-- Nothing was sent yet. -/
def FormatLog.start : FormatLog := ⟨fun _ => none, []⟩

/-- The answer of a monitor takes the place of the payload. -/
def replaces : Option Answer → Bool
  | some (.coapParsed code payload) => (content205 = code ∨ code = changed204) ∧ payload ≠ []
  | _ => false

/-- The requests that were sent between two states. -/
def sentSince (world next : PublishWorld) : List PublishRequest :=
  next.requests.drop world.requests.length

/-- The log after an event. -/
def FormatLog.after (event : PublishEvent) (world next : PublishWorld)
    (log : FormatLog) : FormatLog :=
  match event with
  | .refresherData _ _ _ fmt _ =>
    let point : DataPoint := ⟨fmt, false⟩
    { points := fun address =>
        if world.nextAddress ≤ address ∧ address < next.nextAddress then some point
          else log.points address
      sent := log.sent ++ (sentSince world next).map (point, ·) }
  | .answer index data =>
    match world.pending[index]? with
    | some (.dataProcessing, address) =>
      match log.points address with
      | some point =>
        let point := { point with replaced := point.replaced || replaces data }
        { points := update log.points address (some point)
          sent := log.sent ++ (sentSince world next).map (point, ·) }
      | none => log
    | _ => log
  | .change .. => log

/-- One event, with the log. -/
def performLogged (env : PublishEnv) (event : PublishEvent) (state : FormatLog × PublishWorld) :
    Option (FormatLog × PublishWorld) :=
  (state.2.perform env event).map fun next => (state.1.after event state.2 next, next)

/-- Points with monitors, and no flow. -/
def idle (points : UInt32 → Option RefresherPoint) : PublishWorld :=
  ⟨points, fun _ => none, 0, [], [], [], []⟩

/-- Every request carries the format of its data point, until a monitor has replaced the payload. -/
def Carried (log : FormatLog) : Prop :=
  ∀ entry ∈ log.sent, entry.1.replaced = false → entry.2.fmt = entry.1.fmt

/-- All these monitors have failed, and none is due for a retry. -/
def AllSkipped (monitors : List RefresherPara) : Prop :=
  ∀ param ∈ monitors, param.processing = true ∧ 0 < param.errorCnt ∧ param.skipCnt < param.errorCnt

/-- An answer to a flow comes for data of format 0, or for a payload that was replaced or is now, or
it ends the flow, or behind the monitor there is none to be sent anything. -/
def SparesFormat (state : FormatLog × PublishWorld) : PublishEvent → Prop
  | .answer index data => ∀ address ctx point refresherPoint,
      state.2.pending[index]? = some (.dataProcessing, address) →
      state.2.heap address = some (.dataProcessing ctx) → state.1.points address = some point →
      state.2.points ctx.refreshPointId = some refresherPoint → (takeIn ctx data).isSome →
      point.fmt = 0 ∨ point.replaced = true ∨ replaces data = true ∨
      AllSkipped (behind ctx.monitorId refresherPoint.monitors)
  | _ => True

section Format

variable {env : PublishEnv} {world next : PublishWorld} {address : Nat} {fmt : Int32}
  {own : Nat → Prop} {sent : List PublishRequest}

/-! ## What is sent -/

/-- No context holds a format. -/
def Unset (world : PublishWorld) : Prop :=
  ∀ address ctx, world.heap address = some (.dataProcessing ctx) → ctx.payloadFmt = 0

/-- Requests of one format were sent, no context was given a format, and no flow but those in `own`
waits now that did not before. -/
structure Sends (own : Nat → Prop) (fmt : Int32) (sent : List PublishRequest)
    (world next : PublishWorld) : Prop where
  requests : next.requests = world.requests ++ sent
  formats : ∀ request ∈ sent, request.fmt = fmt
  addresses : world.nextAddress ≤ next.nextAddress
  unset : Unset world → Unset next
  pending : ∀ address, (.dataProcessing, address) ∈ next.pending →
    (.dataProcessing, address) ∈ world.pending ∨ (own address ∧ address < next.nextAddress)

/-- Nothing is sent, and nothing waits that did not. -/
theorem Sends.silent (requests : next.requests = world.requests)
    (pending : next.pending = world.pending) (addresses : world.nextAddress ≤ next.nextAddress)
    (unset : Unset world → Unset next) : Sends own fmt [] world next where
  requests := by rw [requests, append_nil]
  formats := fun _ member => absurd member not_mem_nil
  addresses := addresses
  unset := unset
  pending := fun _ member => .inl (pending ▸ member)

theorem Sends.refl (fmt : Int32) (world : PublishWorld) : Sends own fmt [] world world :=
  .silent rfl rfl (Nat.le_refl _) id

/-- One request is sent. -/
theorem Sends.single {request : PublishRequest}
    (requests : next.requests = world.requests ++ [request]) (format : request.fmt = fmt)
    (addresses : world.nextAddress ≤ next.nextAddress) (unset : Unset world → Unset next)
    (pending : ∀ address, (.dataProcessing, address) ∈ next.pending →
      (.dataProcessing, address) ∈ world.pending ∨ (own address ∧ address < next.nextAddress)) :
    Sends own fmt [request] world next where
  requests := requests
  formats := by
    intro other member
    rw [mem_singleton.mp member, format]
  addresses := addresses
  unset := unset
  pending := pending

theorem Sends.trans {middle : PublishWorld}
    {more : List PublishRequest} (first : Sends own fmt sent world middle)
    (second : Sends own fmt more middle next) : Sends own fmt (sent ++ more) world next := by
  refine ⟨?_, ?_, Nat.le_trans first.addresses second.addresses,
    fun unset => second.unset (first.unset unset), ?_⟩
  · rw [second.requests, first.requests, append_assoc]
  · intro request member
    rcases mem_append.mp member with early | late
    · exact first.formats request early
    · exact second.formats request late
  · intro address member
    rcases second.pending address member with before | begun
    · rcases first.pending address before with start | ⟨mine, below⟩
      · exact .inl start
      · exact .inr ⟨mine, Nat.lt_of_lt_of_le below second.addresses⟩
    · exact .inr begun

theorem Unset.update (unset : Unset world) {content : Option Block}
    (zero : ∀ ctx, content = some (.dataProcessing ctx) → ctx.payloadFmt = 0) : ∀ other ctx,
    update world.heap address content other = some (.dataProcessing ctx) → ctx.payloadFmt = 0 := by
  intro other ctx here
  by_cases same : other = address
  · rw [same, update_self] at here
    exact zero ctx here
  · rw [update_of_ne same] at here
    exact unset other ctx here

/-- The points do not matter, and a context that is freed had no format. -/
theorem Sends.free (fmt : Int32) (points : UInt32 → Option RefresherPoint)
    (world : PublishWorld) (address : Nat) :
    Sends own fmt [] world (({ world with points := points } : PublishWorld).free address) := by
  refine .silent rfl rfl (Nat.le_refl _) fun unset => ?_
  exact unset.update fun ctx here => absurd here (some_ne_none _).symm

variable {data : Option Answer}

theorem Sends.failedMonitorHandler (handled : failedMonitorHandler address data world = some next) :
    Sends own fmt [] world next := by
  obtain ⟨block, -, handled⟩ := bind_eq_some_iff.mp handled
  simp only at handled
  split at handled
  · obtain rfl := some.inj handled
    exact .free fmt world.points world address
  · obtain rfl := some.inj handled
    exact .free fmt _ world address

/-- A request that does not wait for the flow. -/
theorem Sends.sendRequest (own : Nat → Prop) {request : PublishRequest}
    (plain : ∀ address, request.handler ≠ some (.dataProcessing, address))
    (performed : world.sendRequest env request = some next) :
    Sends own request.fmt [request] world next := by
  have logged : Sends own request.fmt [request] world
      { world with requests := world.requests ++ [request] } :=
    .single rfl rfl (Nat.le_refl _) id fun _ member => .inl member
  unfold PublishWorld.sendRequest at performed
  simp only at performed
  split at performed
  · obtain rfl := some.inj performed
    exact logged
  · rename_i address waits
    exact absurd waits (plain address)
  · split at performed
    · exact logged.trans (.failedMonitorHandler performed)
    · obtain rfl := some.inj performed
      refine ⟨logged.requests, logged.formats, logged.addresses, logged.unset,
        fun address member => ?_⟩
      rcases mem_append.mp member with before | here
      · exact .inl before
      · cases mem_singleton.mp here

/-- A context of a failed monitor is made, and its retry recorded. -/
theorem Sends.recordRetry (failed : FailedMonitorCtx) (id : UInt32)
    (monitor : RefresherPara) (url : CString) (request : PublishRequest) : Sends own fmt [] world
      ((world.malloc (.failedMonitor failed)).recordRetry id monitor url request) := by
  refine .silent rfl rfl (Nat.le_succ _) fun unset => ?_
  refine unset.update fun ctx here => ?_
  cases some.inj here

/-! ## New data -/

variable {monitors : List RefresherPara}

theorem Sends.publishFrom {directory : Directory} {id : UInt32}
    {point : RefresherPoint} {payload : List UInt8} {low : Nat} (least : low ≤ world.nextAddress)
    (published : publishFrom env directory id point fmt payload monitors world = some next) :
    ∃ sent, Sends (low ≤ ·) fmt sent world next := by
  induction monitors generalizing world with
  | nil =>
    obtain rfl := some.inj published
    exact ⟨[], .refl fmt world⟩
  | cons param rest ih =>
    unfold PublishWorld.publishFrom at published
    simp only at published
    split at published
    · split at published
      · -- The flow is suspended here; its context is new and has no format.
        obtain rfl := some.inj published
        refine ⟨[_], .single rfl rfl (Nat.le_succ _) (fun unset => ?_) fun address member => ?_⟩
        · refine unset.update fun ctx here => ?_
          cases some.inj here
          rfl
        · rcases mem_append.mp member with before | here
          · exact .inl before
          · cases mem_singleton.mp here
            exact .inr ⟨least, Nat.lt_succ_self _⟩
      · split at published
        · cases published
        · obtain ⟨middle, retried, published⟩ := bind_eq_some_iff.mp published
          have first := Sends.sendRequest (low ≤ ·) (fun address waits => by cases waits) retried
          have made : world.nextAddress ≤ middle.nextAddress :=
            Nat.le_trans (Nat.le_succ _) first.addresses
          obtain ⟨sent, later⟩ := ih (Nat.le_trans least made) published
          exact ⟨_, (Sends.recordRetry _ _ _ _ _).trans (first.trans later)⟩
    · obtain ⟨middle, plain, published⟩ := bind_eq_some_iff.mp published
      have first := Sends.sendRequest (low ≤ ·) (fun address waits => by cases waits) plain
      obtain ⟨sent, later⟩ := ih (Nat.le_trans least first.addresses) published
      exact ⟨_, first.trans later⟩

theorem Sends.onRefresherData {directory : Directory} {id notified : UInt32} {payload : List UInt8}
    (published : world.onRefresherData env directory id notified fmt payload = some next) :
    ∃ sent, Sends (world.nextAddress ≤ ·) fmt sent world next := by
  unfold PublishWorld.onRefresherData at published
  split at published
  · obtain rfl := some.inj published
    exact ⟨[], .refl fmt world⟩
  · split at published
    · obtain rfl := some.inj published
      exact ⟨[], .refl fmt world⟩
    · obtain ⟨sent, sends⟩ := Sends.publishFrom (Nat.le_refl _) published
      exact ⟨sent, sends.requests, sends.formats, sends.addresses, sends.unset, sends.pending⟩

/-! ## Answers -/

theorem takeIn_payloadFmt {ctx taken : DataProcessingCtx} (takes : takeIn ctx data = some taken) :
    taken.payloadFmt = ctx.payloadFmt := by
  unfold takeIn at takes
  split at takes
  · cases takes
    rfl
  · split at takes
    · cases takes
    · split at takes
      · cases takes
        rfl
      · cases takes
        rfl
  · cases takes
    rfl
  · cases takes

variable {ctx : DataProcessingCtx}

/-- The walk behind an answer sends nothing, and finds no one to go on with, exactly if all monitors
are skipped. -/
theorem Sends.walkBehind {purl : Option CString} {walk : Walk}
    (walked : walkBehind env address ctx monitors purl world = some walk) :
    ∃ sent, Sends own ctx.payloadFmt sent world walk.world ∧
    (sent = [] ∧ walk.next = none ↔ AllSkipped monitors) := by
  induction monitors generalizing purl world walk with
  | nil =>
    obtain rfl := some.inj walked
    exact ⟨[], .refl _ world, iff_of_true ⟨rfl, rfl⟩ fun _ member => absurd member not_mem_nil⟩
  | cons param rest ih =>
    unfold PublishWorld.walkBehind at walked
    simp only at walked
    split at walked
    · rename_i processing
      split at walked
      · rename_i failed
        split at walked
        · rename_i skipped
          obtain ⟨later, goesOn, whole⟩ := bind_eq_some_iff.mp walked
          obtain rfl := some.inj whole
          obtain ⟨sent, sends, none_iff⟩ := ih goesOn
          refine ⟨sent, sends, none_iff.trans ?_⟩
          rw [AllSkipped, AllSkipped, forall_mem_cons, and_iff_right ⟨processing, failed, skipped⟩]
        · rename_i due
          split at walked
          · cases walked
          · obtain ⟨middle, retried, walked⟩ := bind_eq_some_iff.mp walked
            obtain ⟨later, goesOn, whole⟩ := bind_eq_some_iff.mp walked
            obtain rfl := some.inj whole
            obtain ⟨sent, sends, -⟩ := ih goesOn
            have first := Sends.sendRequest own (fun address waits => by cases waits) retried
            refine ⟨_, (Sends.recordRetry _ _ _ _ _).trans (first.trans sends), iff_of_false ?_ ?_⟩
            · rintro ⟨empty, -⟩
              cases empty
            · exact fun skipped => due (skipped param mem_cons_self).2.2
      · rename_i healthy
        obtain rfl := some.inj walked
        refine ⟨[], .refl _ world, iff_of_false ?_ ?_⟩
        · rintro ⟨-, found⟩
          cases found
        · exact fun skipped => healthy (skipped param mem_cons_self).2.1
    · rename_i plain
      obtain ⟨middle, posted, walked⟩ := bind_eq_some_iff.mp walked
      obtain ⟨later, goesOn, whole⟩ := bind_eq_some_iff.mp walked
      obtain rfl := some.inj whole
      obtain ⟨sent, sends, -⟩ := ih goesOn
      have first := Sends.sendRequest own (fun address waits => by cases waits) posted
      refine ⟨_, first.trans sends, iff_of_false ?_ ?_⟩
      · rintro ⟨empty, -⟩
        cases empty
      · exact fun skipped => plain (skipped param mem_cons_self).1

theorem Sends.walkFrom {answered : Bool} {walk : Walk}
    (walked : walkFrom env address ctx answered monitors world = some walk) :
    ∃ sent, Sends own ctx.payloadFmt sent world walk.world ∧
    (sent = [] ∧ walk.next = none ↔ AllSkipped (behind ctx.monitorId monitors)) := by
  induction monitors generalizing world walk with
  | nil =>
    obtain rfl := some.inj walked
    exact ⟨[], .refl _ world, iff_of_true ⟨rfl, rfl⟩ fun _ member => absurd member not_mem_nil⟩
  | cons param rest ih =>
    unfold PublishWorld.walkFrom at walked
    split at walked
    · rename_i here
      obtain ⟨later, goesOn, whole⟩ := bind_eq_some_iff.mp walked
      obtain rfl := some.inj whole
      rw [behind, dropWhile_cons_of_neg (by simp [here]), tail_cons]
      obtain ⟨sent, sends, none_iff⟩ := Sends.walkBehind goesOn
      exact ⟨sent, sends, none_iff⟩
    · rename_i other
      obtain ⟨later, goesOn, whole⟩ := bind_eq_some_iff.mp walked
      obtain rfl := some.inj whole
      rw [behind, dropWhile_cons_of_pos (by simp [other])]
      obtain ⟨sent, sends, none_iff⟩ := ih goesOn
      exact ⟨sent, sends, none_iff⟩

theorem Sends.setMonitors (id : UInt32) (monitors : List RefresherPara) :
    Sends own fmt [] world (world.setMonitors id monitors) :=
  .silent rfl rfl (Nat.le_refl _) fun unset => unset

/-- Behind the walk one request is sent, unless no one was found to go on with. -/
theorem Sends.proceed {found : Option (RefresherPara × Bool)} (zero : ctx.payloadFmt = 0)
    (made : address < world.nextAddress)
    (performed : proceed env address ctx found world = some next) :
    ∃ sent, Sends (· = address) 0 sent world next ∧ (sent = [] ↔ found = none) := by
  cases found with
  | none =>
    obtain rfl := some.inj performed
    exact ⟨[], .free 0 world.points world address, iff_of_true rfl rfl⟩
  | some stop =>
    obtain ⟨param, last⟩ := stop
    cases last with
    | true =>
      obtain rfl := some.inj performed
      refine ⟨[_], .single rfl zero (Nat.le_refl _) (fun unset => ?_) fun _ member => .inl member,
        iff_of_false (cons_ne_nil _ _) (some_ne_none _)⟩
      exact unset.update fun ctx here => absurd here (some_ne_none _).symm
    | false =>
      obtain rfl := some.inj performed
      refine ⟨[_], .single rfl zero (Nat.le_refl _) (fun unset => ?_) fun other member => ?_,
        iff_of_false (cons_ne_nil _ _) (some_ne_none _)⟩
      · refine unset.update fun other here => ?_
        cases some.inj here
        exact zero
      · rcases mem_append.mp member with before | here
        · exact .inl before
        · cases mem_singleton.mp here
          exact .inr ⟨rfl, made⟩

/-- Whatever the handler of a flow sends has format 0; it sends nothing exactly if the flow ends or
all monitors behind are skipped. -/
theorem Sends.dataProcessingResponseHandler (here : world.heap address = some (.dataProcessing ctx))
    (made : address < world.nextAddress) (unset : Unset world)
    (handled : dataProcessingResponseHandler env address data world = some next) :
    ∃ sent, Sends (· = address) 0 sent world next ∧
    (sent = [] ↔ ∀ point, world.points ctx.refreshPointId = some point →
      (takeIn ctx data).isSome → AllSkipped (behind ctx.monitorId point.monitors)) := by
  unfold PublishWorld.dataProcessingResponseHandler at handled
  simp only [here, bind_eq_bind, bind_some] at handled
  split at handled
  · rename_i point taken found takes
    obtain ⟨walk, walked, proceeds⟩ := bind_eq_some_iff.mp handled
    have zero : taken.payloadFmt = 0 := (takeIn_payloadFmt takes).trans (unset address ctx here)
    obtain ⟨early, walks, early_iff⟩ :
      ∃ early, Sends (· = address) taken.payloadFmt early world walk.world ∧
      (early = [] ∧ walk.next = none ↔ AllSkipped (behind taken.monitorId point.monitors)) :=
      Sends.walkFrom walked
    obtain ⟨late, goesOn, late_iff⟩ :=
      Sends.proceed zero (by exact Nat.lt_of_lt_of_le made walks.addresses) proceeds
    rw [zero] at walks
    rw [(takeIn_monitor takes).2] at early_iff
    refine ⟨early ++ late, walks.trans ((Sends.setMonitors ..).trans goesOn), ?_⟩
    calc early ++ late = []
        ↔ early = [] ∧ walk.next = none := by rw [append_eq_nil_iff, late_iff]
      _ ↔ AllSkipped (behind ctx.monitorId point.monitors) := early_iff
      _ ↔ _ := by
          refine ⟨fun skipped other isOther _ => ?_,
            fun skips => skips point found (by rw [takes]; rfl)⟩
          exact some.inj (found.symm.trans isOther) ▸ skipped
  · rename_i ends
    obtain rfl := some.inj handled
    refine ⟨[], .free 0 world.points world address, iff_of_true rfl fun point found continues => ?_⟩
    obtain ⟨taken, takes⟩ := isSome_iff_exists.mp continues
    exact absurd takes (ends point taken found)

/-! ## The log -/

/-- Every flow that waits belongs to a data point, and no context has a format. -/
structure Tracked (state : FormatLog × PublishWorld) : Prop where
  known : ∀ address, (.dataProcessing, address) ∈ state.2.pending →
    address < state.2.nextAddress ∧ ∃ point, state.1.points address = some point
  unset : Unset state.2

theorem Tracked.idle (points : UInt32 → Option RefresherPoint) : Tracked (.start, idle points) := by
  refine ⟨fun address member => ?_, fun address ctx here => ?_⟩
  · cases member
  · cases here

theorem carried_append (points : Nat → Option DataPoint) (log : FormatLog) (point : DataPoint)
    (sent : List PublishRequest) : Carried ⟨points, log.sent ++ sent.map (point, ·)⟩ ↔
    Carried log ∧ ∀ request ∈ sent, point.replaced = false → request.fmt = point.fmt := by
  unfold Carried
  rw [forall_mem_append, List.forall_mem_map]

theorem Sends.sentSince (sends : Sends own fmt sent world next) :
    PublishWorld.sentSince world next = sent := by
  rw [PublishWorld.sentSince, sends.requests, drop_left]

section Step

variable {log : FormatLog}

theorem Tracked.refresherData {directory : Directory} {id notified : UInt32} {payload : List UInt8}
    (tracked : Tracked (log, world)) (sends : Sends (world.nextAddress ≤ ·) fmt sent world next) :
    Tracked (log.after (.refresherData directory id notified fmt payload) world next, next) ∧
    (Carried (log.after (.refresherData directory id notified fmt payload) world next) ↔
      Carried log) := by
  constructor
  · refine ⟨fun address member => ?_, sends.unset tracked.unset⟩
    rcases sends.pending address member with before | fresh
    · obtain ⟨old, point, known⟩ := tracked.known address before
      refine ⟨Nat.lt_of_lt_of_le old sends.addresses, point, ?_⟩
      exact (if_neg fun fresh => Nat.not_le.mpr old fresh.1).trans known
    · exact ⟨fresh.2, _, if_pos fresh⟩
  · have appended := carried_append (fun address =>
      if world.nextAddress ≤ address ∧ address < next.nextAddress then some ⟨fmt, false⟩
        else log.points address) log ⟨fmt, false⟩ sent
    rw [FormatLog.after, sends.sentSince]
    exact appended.trans (and_iff_left fun request member _ => sends.formats request member)

/-- A flow is answered. -/
theorem Tracked.answer {index : Nat}
    {data : Option Answer} {ctx : DataProcessingCtx} (tracked : Tracked (log, world))
    (pending : world.pending[index]? = some (.dataProcessing, address))
    (here : world.heap address = some (.dataProcessing ctx))
    (sends : Sends (· = address) 0 sent { world with pending := world.pending.eraseIdx index } next)
    (none_iff : sent = [] ↔ ∀ point, world.points ctx.refreshPointId = some point →
      (takeIn ctx data).isSome → AllSkipped (behind ctx.monitorId point.monitors)) :
      Tracked (log.after (.answer index data) world next, next) ∧
    (Carried (log.after (.answer index data) world next) ↔
      Carried log ∧ SparesFormat (log, world) (.answer index data)) := by
  obtain ⟨old, point, known⟩ : address < world.nextAddress ∧ ∃ point,
      log.points address = some point :=
    tracked.known address (mem_of_getElem? pending)
  have whole : Sends (· = address) 0 sent world next :=
    ⟨sends.requests, sends.formats, sends.addresses, sends.unset,
      fun other member => (sends.pending other member).imp_left mem_of_mem_eraseIdx⟩
  have after : log.after (.answer index data) world next =
      ⟨update log.points address (some ⟨point.fmt, point.replaced || replaces data⟩),
        log.sent ++ sent.map (⟨point.fmt, point.replaced || replaces data⟩, ·)⟩ := by
    simp only [FormatLog.after, pending, known, whole.sentSince]
  rw [after, carried_append]
  constructor
  · refine ⟨fun other member => ?_, whole.unset tracked.unset⟩
    by_cases same : other = address
    · subst same
      exact ⟨Nat.lt_of_lt_of_le old whole.addresses, _, update_self ..⟩
    · rcases whole.pending other member with before | ⟨mine, -⟩
      · obtain ⟨old, content, isContent⟩ := tracked.known other before
        exact ⟨Nat.lt_of_lt_of_le old whole.addresses, content,
          (update_of_ne same ..).trans isContent⟩
      · exact absurd mine same
  · refine and_congr_right fun _ => ⟨fun keeps => ?_, fun spares request member unreplaced => ?_⟩
    · intro other ctxHere pointHere refresherPoint pendingHere heapHere knownHere found continues
      obtain ⟨-, rfl⟩ := Prod.mk.inj (some.inj (pendingHere.symm.trans pending))
      cases some.inj (heapHere.symm.trans here)
      obtain rfl := some.inj (knownHere.symm.trans known)
      by_cases replaced : (pointHere.replaced || replaces data) = true
      · rcases Bool.or_eq_true_iff.mp replaced with before | now
        · exact .inr (.inl before)
        · exact .inr (.inr (.inl now))
      · cases some_sent : sent with
        | nil =>
          exact .inr (.inr (.inr (none_iff.mp some_sent refresherPoint found continues)))
        | cons request rest =>
          have member : request ∈ sent := some_sent ▸ mem_cons_self
          have same := keeps request member (Bool.not_eq_true _ ▸ replaced)
          exact .inl (same.symm.trans (sends.formats request member))
    · obtain ⟨early, now⟩ := Bool.or_eq_false_iff.mp unreplaced
      have filled : sent ≠ [] := ne_nil_of_mem member
      obtain ⟨refresherPoint, found, continues, skips⟩ : ∃ refresherPoint,
          world.points ctx.refreshPointId = some refresherPoint ∧ (takeIn ctx data).isSome = true ∧
          ¬AllSkipped (behind ctx.monitorId refresherPoint.monitors) := by
        by_contra none
        push Not at none
        exact filled (none_iff.mpr none)
      rcases spares address ctx point refresherPoint pending here known found
        continues with zero | before | replacing | skipped
      · exact (sends.formats request member).trans zero.symm
      · rw [early] at before
        cases before
      · rw [now] at replacing
        cases replacing
      · exact absurd skipped skips

theorem Tracked.step {event : PublishEvent} {state after : FormatLog × PublishWorld}
    (tracked : Tracked state) (performed : performLogged env event state = some after) :
    Tracked after ∧ (Carried after.1 ↔ Carried state.1 ∧ SparesFormat state event) := by
  obtain ⟨log, world⟩ := state
  obtain ⟨next, performs, rfl⟩ := map_eq_some_iff.mp performed
  cases event with
  | refresherData directory id notified fmt payload =>
    obtain ⟨sent, sends⟩ := Sends.onRefresherData performs
    obtain ⟨kept, carries⟩ := tracked.refresherData sends
    exact ⟨kept, carries.trans (and_iff_left trivial).symm⟩
  | change id point =>
    obtain rfl := some.inj performs
    exact ⟨⟨tracked.known, tracked.unset⟩, (and_iff_left trivial).symm⟩
  | answer index data =>
    unfold PublishWorld.perform PublishWorld.answer at performs
    simp only at performs
    cases pending : world.pending[index]? with
    | none =>
      rw [pending] at performs
      obtain rfl := some.inj performs
      have same : log.after (.answer index data) world world = log := by
        simp only [FormatLog.after, pending]
      rw [same]
      refine ⟨tracked, (and_iff_left ?_).symm⟩
      intro address ctx point refresherPoint waits
      cases pending.symm.trans waits
    | some owner =>
      obtain ⟨handler, address⟩ := owner
      rw [pending] at performs
      cases handler with
      | failedMonitor =>
        have same : log.after (.answer index data) world next = log := by
          simp only [FormatLog.after, pending]
        rw [same]
        have sends : Sends (fun _ => False) 0 []
            { world with pending := world.pending.eraseIdx index } next :=
          .failedMonitorHandler performs
        refine ⟨⟨fun other member => ?_, sends.unset tracked.unset⟩, (and_iff_left ?_).symm⟩
        · rcases sends.pending other member with before | ⟨impossible, -⟩
          · obtain ⟨old, point, known⟩ := tracked.known other (mem_of_mem_eraseIdx before)
            exact ⟨Nat.lt_of_lt_of_le old sends.addresses, point, known⟩
          · cases impossible
        · intro address ctx point refresherPoint waits
          cases pending.symm.trans waits
      | dataProcessing =>
        obtain ⟨block, here, goesOn⟩ := bind_eq_some_iff.mp performs
        cases block with
        | failedMonitor ctx => cases goesOn
        | dataProcessing ctx =>
          obtain ⟨old, -⟩ := tracked.known address (mem_of_getElem? pending)
          obtain ⟨sent, sends, none_iff⟩ :=
            Sends.dataProcessingResponseHandler here old tracked.unset performs
          exact tracked.answer pending here sends none_iff

end Step

end Format

/-- In every run, with answers in any order and monitors that come and go between the calls, every
request carries the format of its data point until a monitor has replaced the payload, exactly if
every answer to a flow spares it. -/
theorem carried_iff {env : PublishEnv} {points : UInt32 → Option RefresherPoint}
    {events : List PublishEvent} {log : FormatLog} {final : PublishWorld}
    (ran : runAll (performLogged env) events (.start, idle points) = some (log, final)) :
    Carried log ↔ ∀ visit ∈ visited (performLogged env) events (.start, idle points),
    SparesFormat visit.1 visit.2 := by
  have carries := runAll_iff_visited (fun state => Tracked state) (fun state => Carried state.1)
    (fun tracked performed => tracked.step performed) ran (Tracked.idle points)
  exact carries.trans (and_iff_right fun _ member => absurd member not_mem_nil)

/-- A monitor that processes the data before one that does not. -/
def twoMonitors : UInt32 → Option RefresherPoint :=
  update (fun _ => none) 1
    (some (samplePoint [sampleMonitor 0 true 0 0, sampleMonitor 1 false 0 0]))

/-- Data of format 50, and the answer of the first monitor. -/
def dataAnswered (data : Option Answer) : List PublishEvent :=
  [.refresherData Directory.start 1 0 50 [0x31], .answer 0 data]

/-- The monitor answers with a payload of its own. -/
theorem carried_iff_replaced : ∃ log final, runAll (performLogged sampleEnv)
      (dataAnswered (some (.coapParsed content205 [0x32]))) (.start, idle twoMonitors) =
      some (log, final) ∧ log.sent.map (·.2.fmt) = [50, 0] ∧ Carried log := by
  have carried :=
    @carried_iff sampleEnv twoMonitors (dataAnswered (some (.coapParsed content205 [0x32]))) _ _ rfl
  refine ⟨_, _, rfl, rfl, carried.mpr fun visit member => ?_⟩
  rcases mem_cons.mp member with rfl | later
  · trivial
  · cases mem_singleton.mp later
    intro address ctx point refresherPoint pending here known found continues
    exact .inr (.inr (.inl (by decide)))

/-- The monitor times out, and the next one is sent the data of format 50 with format 0. -/
theorem carried_timeout_fails : ∃ log final, runAll
      (performLogged sampleEnv) (dataAnswered none) (.start, idle twoMonitors) = some (log, final) ∧
    log.sent.map (·.1) = [⟨50, false⟩, ⟨50, false⟩] ∧ log.sent.map (·.2.fmt) = [50, 0] ∧
    ¬Carried log := by
  refine ⟨_, _, rfl, rfl, rfl, fun carried => ?_⟩
  exact absurd (carried _ (mem_cons_of_mem _ mem_cons_self) rfl) (by decide)

end PublishWorld

end Idrm.Devices
