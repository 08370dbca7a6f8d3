import Idrm.Devices.Publish

/-!
# Who owns the contexts of publishing

Every context belongs to one pending handler, or to the handler that runs, until it is freed,
and a retry of a failed monitor names that monitor. `Held` is this accounting, with the
contexts of the running handler set apart; between events nothing runs.

The walk behind an answer breaks it when it meets a failed monitor that is due for a retry: it
hands the context of the flow to the handler of the retry.
-/

namespace Idrm.Devices

open Idrm.Lib Idrm.Coap Function Option List

/-- What happens to points and flows. The monitors of a point may change in between, and the
point may go. -/
inductive PublishEvent where
  | refresherData (directory : Directory) (id : UInt32) (notified : UInt32) (fmt : Int32)
      (payload : List UInt8)
  | answer (index : Nat) (data : Option Answer)
  | change (id : UInt32) (point : Option RefresherPoint)

namespace PublishWorld

/-- One event. -/
def perform (env : PublishEnv) : PublishEvent → PublishWorld → Option PublishWorld
  | .refresherData directory id notified fmt payload, world =>
    world.onRefresherData env directory id notified fmt payload
  | .answer index data, world => world.answer env index data
  | .change id point, world => some { world with points := update world.points id point }

/-- A retry goes to the monitor's publish point, followed by the url of the data, and its
handler gets a context of its own that names the monitor. -/
def RightlyRetried (retry : Retry) : Prop :=
  retry.request.url = some (retry.monitor.publishPoint ++ retry.dataUrl) ∧
  (∃ address, retry.request.handler = some (.failedMonitor, address)) ∧
  retry.context = some (.failedMonitor ⟨retry.refreshPointId, retry.monitor.id⟩)

/-- The context that a pending handler will be called with. -/
def OwnContext (world : PublishWorld) : ResponseHandler × Nat → Prop
  | (.dataProcessing, address) => ∃ ctx, world.heap address = some (.dataProcessing ctx)
  | (.failedMonitor, address) => ∃ retry ∈ world.retries,
      retry.request.handler = some (.failedMonitor, address) ∧
      world.heap address = some (.failedMonitor ⟨retry.refreshPointId, retry.monitor.id⟩)

/-- Every context is owned by one pending handler or by the running one, or was freed once. -/
structure Held (running : List Nat) (world : PublishWorld) : Prop where
  owned : (running ++ (world.pending.map (·.2) ++ world.freed)).Perm (List.range world.nextAddress)
  own : ∀ owner ∈ world.pending, OwnContext world owner
  retried : ∀ retry ∈ world.retries, RightlyRetried retry

/-- An event changes nothing about the monitors but those of one id at one point. -/
def OnlyChanges (refreshPointId monitorId : UInt32) (world next : PublishWorld) : Prop :=
  (∀ id, id ≠ refreshPointId → next.points id = world.points id) ∧
  (next.points refreshPointId).map (·.monitors.filter (·.id ≠ monitorId)) =
    (world.points refreshPointId).map (·.monitors.filter (·.id ≠ monitorId))

/-! ## When the accounting is kept -/

/-- The monitors that a walk passes, up to the next one that processes the data. -/
def passed (monitors : List RefresherPara) : List RefresherPara :=
  monitors.takeWhile fun param => !(param.processing && param.errorCnt == 0)

/-- The monitors behind the one that answered. -/
def behind (monitorId : UInt32) (monitors : List RefresherPara) : List RefresherPara :=
  (monitors.dropWhile (·.id ≠ monitorId)).tail

/-- A failed monitor that has been skipped often enough. -/
def DueForRetry (param : RefresherPara) : Prop :=
  param.processing = true ∧ 0 < param.errorCnt ∧ ¬param.skipCnt < param.errorCnt

/-- No failed monitor is due behind a monitor that answers. With new data, a failed monitor has
a url that fits the buffer, and it is not refused when it is about to be removed. -/
def RetriesSafely (env : PublishEnv) (world : PublishWorld) : PublishEvent → Prop
  | .answer index data => ∀ address ctx point,
      world.pending[index]? = some (.dataProcessing, address) →
      world.heap address = some (.dataProcessing ctx) →
      world.points ctx.refreshPointId = some point → (takeIn ctx data).isSome →
      ∀ param ∈ passed (behind ctx.monitorId point.monitors), ¬DueForRetry param
  | .refresherData directory id _ _ payload => ∀ point, world.points id = some point →
      payload ≠ [] →
      ∀ position param, (passed point.monitors)[position]? = some param → param.processing = true →
      (param.publishPoint ++ dataUrl directory point param.publishPoint).bytes.length < purlSize ∧
      ¬(env.refuses (world.requests.length + position) = true ∧ param.errorCnt + 1 > 10)
  | .change .. => True

section Held

variable {env : PublishEnv} {running : List Nat} {world : PublishWorld} {address : Nat}

variable {owner : ResponseHandler × Nat}

theorem Held.lt_nextAddress (held : Held running world) (pending : owner ∈ world.pending) :
    owner.2 < world.nextAddress := by
  have listed : owner.2 ∈ world.pending.map (·.2) := List.mem_map_of_mem pending
  exact mem_range.mp (held.owned.subset (mem_append_right _ (mem_append_left _ listed)))

/-- A context of the running handler belongs to no pending one. -/
theorem Held.running_ne (held : Held (address :: running) world)
    (pending : owner ∈ world.pending) : owner.2 ≠ address := by
  have distinct := held.owned.nodup_iff.mpr nodup_range
  rintro rfl
  have listed : owner.2 ∈ world.pending.map (·.2) := List.mem_map_of_mem pending
  exact (nodup_cons.mp distinct).1 (mem_append_right _ (mem_append_left _ listed))

/-- What is at other addresses does not matter to a handler. -/
theorem OwnContext.frame {after : PublishWorld} (own : OwnContext world owner)
    (same : after.heap owner.2 = world.heap owner.2)
    (retries : ∀ retry ∈ world.retries, retry ∈ after.retries) : OwnContext after owner := by
  obtain ⟨handler, address⟩ := owner
  cases handler with
  | dataProcessing =>
    obtain ⟨ctx, here⟩ := own
    exact ⟨ctx, same.trans here⟩
  | failedMonitor =>
    obtain ⟨retry, member, handler, here⟩ := own
    exact ⟨retry, retries retry member, handler, same.trans here⟩

/-- The points and the requests do not matter to the accounting. -/
theorem Held.points (held : Held running world)
    (points : UInt32 → Option RefresherPoint) (requests : List PublishRequest) :
    Held running { world with points := points, requests := requests } :=
  ⟨held.owned, fun owner pending => (held.own owner pending).frame rfl fun _ member => member,
    held.retried⟩

theorem Held.malloc (held : Held running world) (block : Block) :
    Held (world.nextAddress :: running) (world.malloc block) := by
  refine ⟨?_, fun owner pending => ?_, held.retried⟩
  · have more := held.owned.append_right [world.nextAddress]
    rw [← range_succ] at more
    exact (perm_append_singleton _ _).symm.trans more
  · refine (held.own owner pending).frame ?_ fun _ member => member
    exact update_of_ne (Nat.ne_of_lt (held.lt_nextAddress pending)) ..

theorem Held.free (held : Held (address :: running) world) : Held running (world.free address) := by
  refine ⟨?_, fun owner pending => ?_, held.retried⟩
  · refine List.Perm.trans ?_ held.owned
    simp only [PublishWorld.free, ← append_assoc]
    exact perm_append_singleton _ _
  · refine (held.own owner pending).frame ?_ fun _ member => member
    exact update_of_ne (held.running_ne pending) ..

/-- The running handler changes its context. -/
theorem Held.write (held : Held (address :: running) world) (block : Block) :
    Held (address :: running) { world with heap := update world.heap address (some block) } := by
  refine ⟨held.owned, fun owner pending => ?_, held.retried⟩
  refine (held.own owner pending).frame ?_ fun _ member => member
  exact update_of_ne (held.running_ne pending) ..

/-- The running handler hands its context over. -/
theorem Held.handOver (held : Held (address :: running) world) {handler : ResponseHandler}
    (own : OwnContext world (handler, address)) (requests : List PublishRequest) : Held running
      { world with requests := requests, pending := world.pending ++ [(handler, address)] } := by
  refine ⟨?_, fun owner pending => ?_, held.retried⟩
  · refine List.Perm.trans ?_ held.owned
    simp only [map_append, map_cons, map_nil, append_assoc, cons_append, nil_append]
    have moved := @perm_middle _ address (running ++ world.pending.map (·.2)) world.freed
    simpa only [append_assoc] using moved
  · have kept : OwnContext world owner := by
      rcases mem_append.mp pending with before | new
      · exact held.own owner before
      · rw [mem_singleton.mp new]
        exact own
    exact kept.frame rfl fun _ member => member

/-- A handler is called: its context is the running one's. -/
theorem Held.take (held : Held [] world) {index : Nat} {handler : ResponseHandler}
    (found : world.pending[index]? = some (handler, address)) :
    OwnContext world (handler, address) ∧ Held [address]
    { world with pending := world.pending.eraseIdx index } := by
  obtain ⟨bound, here⟩ := List.getElem?_eq_some_iff.mp found
  refine ⟨held.own _ (mem_of_getElem? found), ?_, fun owner pending => ?_, held.retried⟩
  · have erased := (getElem_cons_eraseIdx_perm bound).map (·.2)
    rw [here, map_cons] at erased
    exact (erased.append_right world.freed).trans held.owned
  · exact (held.own owner (mem_of_mem_eraseIdx pending)).frame rfl fun _ member => member

/-- A right retry is recorded. -/
theorem Held.recordRetry (held : Held running world) {id : UInt32} {monitor : RefresherPara}
    {url : CString} {request : PublishRequest} (right : RightlyRetried ⟨id, monitor, url, request,
      request.handler.bind fun handler => world.heap handler.2⟩) :
    Held running (world.recordRetry id monitor url request) := by
  refine ⟨held.owned, fun owner pending => ?_, fun retry member => ?_⟩
  · exact (held.own owner pending).frame rfl fun _ member => mem_append_left _ member
  · rcases mem_append.mp member with before | new
    · exact held.retried retry before
    · rw [mem_singleton.mp new]
      exact right

/-! ## New data -/

theorem passed_cons {param : RefresherPara}
    (passes : (param.processing && param.errorCnt == 0) = false)
    (rest : List RefresherPara) : passed (param :: rest) = param :: passed rest := by
  simp only [passed, takeWhile_cons, passes]
  rfl

/-- The handler of a failed monitor frees its context. -/
theorem Held.failedMonitorHandler (held : Held (address :: running) world) {block : Block}
    (here : world.heap address = some block) (data : Option Answer) :
    ∃ next, world.failedMonitorHandler address data = some next ∧ Held running next ∧
    next.requests = world.requests := by
  unfold PublishWorld.failedMonitorHandler
  simp only [here, bind_eq_bind, bind_some]
  cases world.points block.front.refreshPointId with
  | none => exact ⟨_, rfl, held.free, rfl⟩
  | some point => exact ⟨_, rfl, (held.points _ world.requests).free, rfl⟩

/-- A failed monitor is retried with a context of its own. -/
theorem Held.retry (held : Held [] world) (env : PublishEnv)
    (id : UInt32) (param : RefresherPara) (url : CString) (fmt : Int32) (payload : List UInt8) :
    ∃ next, ((world.malloc (.failedMonitor ⟨id, param.id⟩)).recordRetry id param url
      ⟨some (param.publishPoint ++ url), fmt, payload, coapPost, none,
      some (.failedMonitor, world.nextAddress)⟩).sendRequest env ⟨some (param.publishPoint ++ url),
      fmt, payload, coapPost, none, some (.failedMonitor, world.nextAddress)⟩ = some next ∧
    Held [] next ∧ next.requests.length = world.requests.length + 1 := by
  let request : PublishRequest :=
    ⟨some (param.publishPoint ++ url), fmt, payload, coapPost, none,
      some (.failedMonitor, world.nextAddress)⟩
  have fresh : (world.malloc (.failedMonitor ⟨id, param.id⟩)).heap world.nextAddress =
      some (.failedMonitor ⟨id, param.id⟩) := update_self ..
  have allocated : Held [world.nextAddress]
      ((world.malloc (.failedMonitor ⟨id, param.id⟩)).recordRetry id param url request) := by
    refine (held.malloc _).recordRetry ⟨rfl, ⟨_, rfl⟩, ?_⟩
    exact fresh
  unfold sendRequest
  simp only
  split
  · have sent := allocated.points
      ((world.malloc (.failedMonitor ⟨id, param.id⟩)).recordRetry id param url request).points
      (world.requests ++ [request])
    obtain ⟨next, handled, kept, requests⟩ := sent.failedMonitorHandler fresh none
    refine ⟨next, handled, kept, ?_⟩
    rw [requests]
    simp
  · refine ⟨_, rfl, allocated.handOver ?_ _, by simp [PublishWorld.recordRetry,
      PublishWorld.malloc]⟩
    exact ⟨_, mem_append_right _ mem_cons_self, rfl, fresh⟩

/-- What the condition says about the failed monitors that a walk of new data passes. -/
def Publishable (env : PublishEnv) (directory : Directory) (point : RefresherPoint) (sent : Nat)
    (monitors : List RefresherPara) : Prop :=
  ∀ position param, (passed monitors)[position]? = some param → param.processing = true →
    (param.publishPoint ++ dataUrl directory point param.publishPoint).bytes.length < purlSize ∧
    ¬(env.refuses (sent + position) = true ∧ param.errorCnt + 1 > 10)

variable {directory : Directory}

theorem Publishable.tail {point : RefresherPoint} {sent : Nat} {param : RefresherPara}
    {rest : List RefresherPara} (publishable : Publishable env directory point sent (param :: rest))
    (passes : (param.processing && param.errorCnt == 0) = false) :
    Publishable env directory point (sent + 1) rest := by
  intro position other found
  have here : (passed (param :: rest))[position + 1]? = some other := by
    rw [passed_cons passes]
    exact found
  have shifted : sent + 1 + position = sent + (position + 1) := by omega
  rw [shifted]
  exact publishable (position + 1) other here

variable {monitors : List RefresherPara}

/-- The walk of new data keeps the accounting. -/
theorem Held.publishFrom {id : UInt32}
    {point : RefresherPoint} {fmt : Int32} {payload : List UInt8} (held : Held [] world)
    (publishable : Publishable env directory point world.requests.length monitors) : ∃ next,
    publishFrom env directory id point fmt payload monitors world = some next ∧ Held [] next := by
  induction monitors generalizing world with
  | nil => exact ⟨world, rfl, held⟩
  | cons param rest ih =>
    by_cases processing : param.processing = true
    · by_cases healthy : param.errorCnt = 0
      · have allocated := held.malloc (.dataProcessing ⟨id, param.id, 0, payload, none,
          urlBehind env param.publishPoint (CString.snprintf purlSize
            (param.publishPoint ++ dataUrl directory point param.publishPoint))⟩)
        refine ⟨_, by simp only [PublishWorld.publishFrom, processing, healthy, if_true]; rfl,
          allocated.handOver ?_ _⟩
        exact ⟨_, update_self ..⟩
      · have passes : (param.processing && param.errorCnt == 0) = false := by
          simp [processing, healthy]
        have first : (passed (param :: rest))[0]? = some param := by
          rw [passed_cons passes]
          rfl
        obtain ⟨fits, notErased⟩ := publishable 0 param first processing
        rw [Nat.add_zero] at notErased
        obtain ⟨next, sent, kept, count⟩ :=
          held.retry env id param (dataUrl directory point param.publishPoint) fmt payload
        have later := publishable.tail passes
        rw [← count] at later
        obtain ⟨final, published, heldAfter⟩ := ih kept later
        refine ⟨final, ?_, heldAfter⟩
        simp only [PublishWorld.publishFrom, processing, healthy, notErased,
          CString.snprintf_of_lt fits, if_true, if_false, sent, bind_eq_bind, bind_some]
        exact published
    · have passes : (param.processing && param.errorCnt == 0) = false := by simp [processing]
      have later := publishable.tail passes
      let request : PublishRequest := ⟨some (CString.snprintf purlSize
        (param.publishPoint ++ dataUrl directory point param.publishPoint)), fmt, payload,
        coapPut, none, none⟩
      have sent := held.points world.points (world.requests ++ [request])
      have count : (world.requests ++ [request]).length = world.requests.length + 1 := by simp
      rw [← count] at later
      obtain ⟨final, published, heldAfter⟩ := ih sent later
      refine ⟨final, ?_, heldAfter⟩
      simp only [PublishWorld.publishFrom, processing, bind_eq_bind]
      exact published

theorem Held.onRefresherData (held : Held [] world) {id notified : UInt32} {fmt : Int32}
    {payload : List UInt8}
    (safe : RetriesSafely env world (.refresherData directory id notified fmt payload)) : ∃ next,
    world.onRefresherData env directory id notified fmt payload = some next ∧ Held [] next := by
  unfold PublishWorld.onRefresherData
  cases found : world.points id with
  | none => exact ⟨world, rfl, held⟩
  | some point =>
    by_cases given : payload = []
    · simp only [if_pos given]
      exact ⟨world, rfl, held⟩
    · simp only [if_neg given]
      exact (held.points _ world.requests).publishFrom (safe point found given)

/-! ## Answers -/

/-- Where no failed monitor is due, the walk behind an answer only sends requests. -/
theorem walkBehind_sends (env : PublishEnv) (address : Nat) (ctx : DataProcessingCtx)
    (notDue : ∀ param ∈ passed monitors, ¬DueForRetry param)
    (purl : Option CString) (world : PublishWorld) :
    ∃ walk sent, walkBehind env address ctx monitors purl world = some walk ∧
    walk.world = { world with requests := world.requests ++ sent } := by
  induction monitors generalizing purl world with
  | nil => exact ⟨_, [], rfl, by simp⟩
  | cons param rest ih =>
    by_cases processing : param.processing = true
    · by_cases healthy : param.errorCnt = 0
      · refine ⟨⟨param :: rest, some (param, rest.isEmpty), world⟩, [], ?_, by simp⟩
        simp [walkBehind, processing, healthy]
      · have passes : (param.processing && param.errorCnt == 0) = false := by
          simp [processing, healthy]
        have failed : 0 < param.errorCnt := by
          rw [UInt32.pos_iff_ne_zero]
          exact healthy
        rw [passed_cons passes] at notDue
        have skipped : param.skipCnt < param.errorCnt :=
          Decidable.not_not.mp fun enough => notDue param mem_cons_self ⟨processing, failed, enough⟩
        obtain ⟨walk, sent, walked, after⟩ :=
          ih (fun other member => notDue other (mem_cons_of_mem _ member)) purl world
        refine ⟨{ walk with
          monitors := { param with skipCnt := param.skipCnt + 1 } :: walk.monitors },
          sent, ?_, after⟩
        simp [walkBehind, processing, failed, skipped, walked]
    · have passes : (param.processing && param.errorCnt == 0) = false := by simp [processing]
      rw [passed_cons passes] at notDue
      let request : PublishRequest :=
        ⟨some (CString.snprintf purlSize (param.publishPoint ++ ctx.url)), ctx.payloadFmt,
        ctx.payload, coapPost, ctx.query, none⟩
      obtain ⟨walk, sent, walked, after⟩ :=
        ih (fun other member => notDue other (mem_cons_of_mem _ member)) request.url
          { world with requests := world.requests ++ [request] }
      refine ⟨{ walk with monitors := param :: walk.monitors }, request :: sent, ?_, ?_⟩
      · rw [walkBehind, if_neg processing]
        show Option.bind (walkBehind env address ctx rest request.url
          { world with requests := world.requests ++ [request] }) _ = _
        rw [walked]
        rfl
      · rw [after, append_assoc, singleton_append]

theorem walkFrom_sends (env : PublishEnv)
    (address : Nat) (answered : Bool) {ctx : DataProcessingCtx}
    (notDue : ∀ param ∈ passed (behind ctx.monitorId monitors), ¬DueForRetry param)
    (world : PublishWorld) :
    ∃ walk sent, walkFrom env address ctx answered monitors world = some walk ∧
    walk.world = { world with requests := world.requests ++ sent } := by
  induction monitors with
  | nil => exact ⟨_, [], rfl, by simp⟩
  | cons param rest ih =>
    by_cases here : param.id = ctx.monitorId
    · rw [behind, dropWhile_cons_of_neg (by simp [here])] at notDue
      obtain ⟨walk, sent, walked, after⟩ := walkBehind_sends env address ctx notDue none world
      refine ⟨{ walk with monitors := settleAnswered answered param :: walk.monitors },
        sent, ?_, after⟩
      rw [tail_cons] at walked
      simp [walkFrom, here, walked]
    · rw [behind, dropWhile_cons_of_pos (by simp [here])] at notDue
      obtain ⟨walk, sent, walked, after⟩ := ih notDue
      refine ⟨{ walk with monitors := param :: walk.monitors }, sent, ?_, after⟩
      simp [walkFrom, here, walked]

/-- Behind the walk the context is freed, or handed to the handler of the next answer. -/
theorem Held.proceed (held : Held [address] world) (env : PublishEnv) (ctx : DataProcessingCtx)
    (next : Option (RefresherPara × Bool)) :
    ∃ after, proceed env address ctx next world = some after ∧ Held [] after := by
  cases next with
  | none => exact ⟨_, rfl, held.free⟩
  | some stop =>
    obtain ⟨param, last⟩ := stop
    cases last with
    | true => exact ⟨_, rfl, (held.points world.points _).free⟩
    | false =>
      refine ⟨_, rfl,
        (held.write (.dataProcessing { ctx with monitorId := param.id })).handOver ?_ _⟩
      exact ⟨_, update_self ..⟩

variable {data : Option Answer}

theorem takeIn_monitor {ctx taken : DataProcessingCtx} (takes : takeIn ctx data = some taken) :
    taken.refreshPointId = ctx.refreshPointId ∧ taken.monitorId = ctx.monitorId := by
  unfold takeIn at takes
  split at takes
  · cases takes
    exact ⟨rfl, rfl⟩
  · split at takes
    · cases takes
    · split at takes
      · cases takes
        exact ⟨rfl, rfl⟩
      · cases takes
        exact ⟨rfl, rfl⟩
  · cases takes
    exact ⟨rfl, rfl⟩
  · cases takes

theorem Held.dataProcessingResponseHandler (held : Held [address] world) {ctx : DataProcessingCtx}
    (here : world.heap address = some (.dataProcessing ctx))
    (notDue : ∀ point, world.points ctx.refreshPointId = some point → (takeIn ctx data).isSome →
      ∀ param ∈ passed (behind ctx.monitorId point.monitors), ¬DueForRetry param) :
    ∃ next, dataProcessingResponseHandler env address data world = some next ∧ Held [] next := by
  unfold PublishWorld.dataProcessingResponseHandler
  simp only [here, bind_eq_bind, bind_some]
  cases found : world.points ctx.refreshPointId with
  | none => exact ⟨_, rfl, held.free⟩
  | some point =>
    cases takes : takeIn ctx data with
    | none => exact ⟨_, rfl, held.free⟩
    | some taken =>
      obtain ⟨samePoint, sameMonitor⟩ := takeIn_monitor takes
      have spared := notDue point found (by rw [takes]; rfl)
      rw [← sameMonitor] at spared
      obtain ⟨walk, sent, walked, after⟩ := walkFrom_sends env address data.isSome spared world
      have heldAfter :
          Held [address] (walk.world.setMonitors taken.refreshPointId walk.monitors) := by
        rw [after]
        exact held.points _ _
      simp only [walked, bind_some]
      exact heldAfter.proceed env taken walk.next

theorem Held.answer (held : Held [] world) {index : Nat}
    (safe : RetriesSafely env world (.answer index data)) :
    ∃ next, world.answer env index data = some next ∧ Held [] next := by
  unfold PublishWorld.answer
  cases found : world.pending[index]? with
  | none => exact ⟨world, rfl, held⟩
  | some owner =>
    obtain ⟨handler, address⟩ := owner
    obtain ⟨own, taken⟩ := held.take found
    cases handler with
    | dataProcessing =>
      obtain ⟨ctx, here⟩ := own
      exact taken.dataProcessingResponseHandler here fun point at_ continues =>
        safe address ctx point found here at_ continues
    | failedMonitor =>
      obtain ⟨retry, -, -, here⟩ := own
      obtain ⟨next, handled, kept, -⟩ := taken.failedMonitorHandler here data
      exact ⟨next, handled, kept⟩

/-- Every event that meets the condition has a result and keeps the accounting. -/
theorem Held.perform (held : Held [] world)
    {event : PublishEvent} (safe : RetriesSafely env world event) :
    ∃ next, world.perform env event = some next ∧ Held [] next := by
  cases event with
  | refresherData directory id notified fmt payload => exact held.onRefresherData safe
  | answer index data => exact held.answer safe
  | change id point => exact ⟨_, rfl, held.points _ world.requests⟩

/-! ## What an answer changes -/

theorem settleFailed_others (monitorId : UInt32) (answered : Bool) (monitors : List RefresherPara) :
    (settleFailed monitorId answered monitors).filter (·.id ≠ monitorId) = monitors.filter
      (·.id ≠ monitorId) := by
  induction monitors with
  | nil => rfl
  | cons param rest ih =>
    unfold settleFailed
    split
    · rename_i same
      split
      · simp [same]
      · split
        · simp [same]
        · simp [same]
    · rename_i other
      simp only [filter_cons, ih]

/-- The handler of a failed monitor changes the monitor that its context names. -/
theorem failedMonitorHandler_onlyChanges {ctx : FailedMonitorCtx}
    (here : world.heap address = some (.failedMonitor ctx))
    (data : Option Answer) : ∃ next, world.failedMonitorHandler address data = some next ∧
    OnlyChanges ctx.refreshPointId ctx.monitorId world next := by
  unfold PublishWorld.failedMonitorHandler
  simp only [here, bind_eq_bind, bind_some, Block.front]
  cases found : world.points ctx.refreshPointId with
  | none => exact ⟨_, rfl, fun _ _ => rfl, rfl⟩
  | some point =>
    refine ⟨_, rfl, fun id other => update_of_ne other .., ?_⟩
    simp only [PublishWorld.free, setMonitors, update_self, found, map_some, settleFailed_others]

/-- The answer to a retry changes the monitor that was retried. -/
theorem Held.answersRetry (held : Held [] world) {index : Nat}
    (found : world.pending[index]? = some (.failedMonitor, address)) :
    ∃ retry ∈ world.retries, retry.request.handler = some (.failedMonitor, address) ∧
    ∀ data, ∃ next, world.answer env index data = some next ∧
    OnlyChanges retry.refreshPointId retry.monitor.id world next := by
  obtain ⟨retry, member, handler, here⟩ := held.own _ (mem_of_getElem? found)
  refine ⟨retry, member, handler, fun data => ?_⟩
  have here' : ({ world with pending := world.pending.eraseIdx index } : PublishWorld).heap
    address = some (.failedMonitor ⟨retry.refreshPointId, retry.monitor.id⟩) := here
  obtain ⟨next, handled, only⟩ := failedMonitorHandler_onlyChanges here' data
  refine ⟨next, ?_, only⟩
  simp only [PublishWorld.answer, found]
  exact handled

/-- In every run that never meets a failed monitor due for a retry behind an answer, contexts
are owned by one handler and freed once, retries go to the monitors they are for, and the
answer to a retry changes no other monitor. -/
theorem held_of_retriesSafely {start final : PublishWorld} {events : List PublishEvent}
    (held : Held [] start) (runs : RunsUnder (perform env) (RetriesSafely env) start events final) :
    Held [] final ∧ (∀ index address, final.pending[index]? = some (.failedMonitor, address) →
      ∃ retry ∈ final.retries, retry.request.handler = some (.failedMonitor, address) ∧
      ∀ data, ∃ next, final.answer env index data = some next ∧
      OnlyChanges retry.refreshPointId retry.monitor.id final next) ∧
    ∀ event, RetriesSafely env final event → ∃ next, final.perform env event = some next := by
  have heldAfter : Held [] final := by
    refine runs.keeps ?_ held
    intro before after event held safe performed
    obtain ⟨next, performs, kept⟩ := held.perform safe
    rw [performs] at performed
    exact some.inj performed ▸ kept
  refine ⟨heldAfter, fun index address found => heldAfter.answersRetry found, fun event safe => ?_⟩
  exact (heldAfter.perform safe).imp fun next performed => performed.1

end Held

theorem sampleWorld_held (monitors : List RefresherPara) : Held [] (sampleWorld monitors) :=
  ⟨List.Perm.refl _, fun _ member => absurd member not_mem_nil,
    fun _ member => absurd member not_mem_nil⟩

/-- A failed monitor before a healthy one is retried and answers; the healthy one times out. -/
def retriedFirst : List PublishEvent :=
  [.refresherData Directory.start 1 0 0 [0x31], .answer 0 (some .brokerMessage), .answer 0 none]

theorem retriedFirst_runs :
    ∃ final, RunsUnder (perform sampleEnv) (RetriesSafely sampleEnv)
        (sampleWorld [sampleMonitor 0 true 1 0, sampleMonitor 1 true 0 0]) retriedFirst final ∧
      final.retries.map (·.monitor.id) = [0] ∧ final.freed = [0, 1] := by
  refine ⟨_, .call ?_ rfl (.call ?_ rfl (.call ?_ rfl (.done _))), rfl, rfl⟩
  · intro point found _ position param listed _
    cases found
    cases position with
    | zero =>
      cases listed
      exact ⟨by decide, by decide⟩
    | succ position => cases listed
  · intro address ctx point pending
    cases pending
  · intro address ctx point pending here found _ param listed
    cases pending
    cases here
    cases found
    cases listed

theorem held_of_retriesSafely_retriedFirst :
    ∃ final, RunsUnder (perform sampleEnv) (RetriesSafely sampleEnv)
        (sampleWorld [sampleMonitor 0 true 1 0, sampleMonitor 1 true 0 0]) retriedFirst final ∧
      final.retries.map (·.monitor.id) = [0] ∧ final.freed = [0, 1] ∧ Held [] final := by
  obtain ⟨final, runs, retried, freed⟩ := retriedFirst_runs
  exact ⟨final, runs, retried, freed, (held_of_retriesSafely (sampleWorld_held _) runs).1⟩

/-- Behind an answer a failed monitor that is due gets the context of the flow, which is freed
while the handler of the retry is pending; the context that was meant for it stays. -/
theorem held_dueBehind_fails : ∃ final, runAll (perform sampleEnv)
      [.refresherData Directory.start 1 0 0 [0x31], .answer 0 (some .brokerMessage)]
      (sampleWorld [sampleMonitor 0 true 0 0, sampleMonitor 1 true 1 1]) = some final ∧
      ¬Held [] final := by
  refine ⟨_, rfl, fun held => ?_⟩
  obtain ⟨retry, -, -, here⟩ := held.own (.failedMonitor, 0) mem_cons_self
  cases here

end PublishWorld

end Idrm.Devices
