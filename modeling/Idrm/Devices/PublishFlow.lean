import Idrm.Devices.Publish

/-!
# The data reaches every monitor

With monitors that all answer, one call of `OnRefresherData` leads to one request for each
monitor, in the order of the list. What a monitor is sent is what the last monitor before it
made of the data.
-/

namespace Idrm.Devices

open Idrm.Lib Idrm.Coap Function List

/-! ## The ids of the monitors -/

namespace RefresherPoint

/-- The monitors of a point have ids of their own, given out before `next`. -/
structure Numbered (next : Nat) (point : RefresherPoint) : Prop where
  distinct : (point.monitors.map (·.id)).Nodup
  earlier : ∀ param ∈ point.monitors, param.id.toNat < next

variable {next : Nat} {point : RefresherPoint}

theorem insertMonitor_perm (monitor : RefresherPara) (monitors : List RefresherPara) :
    (insertMonitor monitor monitors).Perm (monitor :: monitors) := by
  induction monitors with
  | nil => exact List.Perm.refl _
  | cons other rest ih =>
    unfold insertMonitor
    split
    · exact List.Perm.refl _
    · exact (ih.cons other).trans (List.Perm.swap monitor other rest)

theorem removeMonitor_sublist (purl : CString) (point : RefresherPoint) :
    (point.removeMonitor purl).monitors.Sublist point.monitors := by
  unfold removeMonitor
  split
  · exact eraseP_sublist
  · exact List.Sublist.refl _

/-- `AddMonitor` keeps the ids apart while the counter has not come round. -/
theorem Numbered.addMonitor (numbered : Numbered next point) (inRange : next < 2 ^ 32)
    (para : FresherPara) : Numbered (next + 1) (point.addMonitor (UInt32.ofNat next) para) := by
  have kept := removeMonitor_sublist para.publishPoint point
  have own : (UInt32.ofNat next).toNat = next := by simpa using inRange
  have monitors : (point.addMonitor (UInt32.ofNat next) para).monitors.Perm
      (⟨UInt32.ofNat next, 0, 0, para.sequence, para.process, para.minDuration,
      para.publishPoint⟩ :: (point.removeMonitor para.publishPoint).monitors) := by
    unfold RefresherPoint.addMonitor
    simp only
    split
    · exact insertMonitor_perm _ _
    · exact insertMonitor_perm _ _
  constructor
  · rw [(monitors.map _).nodup_iff, map_cons, nodup_cons]
    refine ⟨fun member => ?_, (kept.map _).nodup numbered.distinct⟩
    obtain ⟨param, listed, same⟩ := mem_map.mp member
    have before := numbered.earlier param (kept.subset listed)
    rw [same, own] at before
    exact Nat.lt_irrefl next before
  · intro param member
    rcases mem_cons.mp (monitors.subset member) with rfl | listed
    · rw [own]
      exact Nat.lt_succ_self next
    · exact Nat.lt_succ_of_lt (numbered.earlier param (kept.subset listed))

theorem Numbered.removeMonitor (numbered : Numbered next point) (purl : CString) :
    Numbered next (point.removeMonitor purl) := by
  have kept := removeMonitor_sublist purl point
  exact ⟨(kept.map _).nodup numbered.distinct,
    fun param member => numbered.earlier param (kept.subset member)⟩

end RefresherPoint

namespace PublishWorld

/-! ## What is to be delivered -/

/-- A monitor that is sent a request answers with a code and a payload. -/
abbrev Answers := PublishRequest → UInt8 × List UInt8

/-- The data that a monitor makes of the data it is sent. -/
def produces (answers : Answers) (delivery : RefresherPara × PublishRequest) :
    Option (List UInt8) :=
  let (code, payload) := answers delivery.2
  if delivery.1.processing ∧ (content205 = code ∨ code = changed204) ∧ payload ≠ [] then
    some payload else none

/-- What the last of some monitors made of the data, or the original data. -/
def lastProduced (answers : Answers) (original : List UInt8)
    (before : List (RefresherPara × PublishRequest)) : List UInt8 :=
  (before.reverse.findSome? (produces answers)).getD original

/-- A request goes to the publish point of a monitor. -/
def AddressedTo (param : RefresherPara) (request : PublishRequest) : Prop :=
  ∃ url, request.url = some (CString.snprintf purlSize (param.publishPoint ++ url))

/-- Each monitor is sent one request, in order, with what the monitors before it made of the
data. -/
inductive Delivers (answers : Answers) (original : List UInt8) :
    List (RefresherPara × PublishRequest) → List RefresherPara → List PublishRequest → Prop
  | done (before : List (RefresherPara × PublishRequest)) : Delivers answers original before [] []
  | next {before : List (RefresherPara × PublishRequest)} {param : RefresherPara}
      {rest : List RefresherPara} {request : PublishRequest} {requests : List PublishRequest} :
      AddressedTo param request → request.payload = lastProduced answers original before →
      Delivers answers original (before ++ [(param, request)]) rest requests →
      Delivers answers original before (param :: rest) (request :: requests)

/-- As long as a handler is pending at a place, the monitor its request went to answers. -/
def answerFlow (env : PublishEnv) (answers : Answers) (place : Nat) : Nat → PublishWorld →
    Option PublishWorld
  | 0, world => some world
  | rounds + 1, world =>
    match world.pending[place]? with
    | none => some world
    | some owner => do
        let request ← world.requests.reverse.find? (·.handler = some owner)
        let (code, payload) := answers request
        answerFlow env answers place rounds
          (← world.answer env place (some (.coapParsed code payload)))

section Flow

variable {env : PublishEnv} {answers : Answers} {original : List UInt8}

theorem lastProduced_concat (before : List (RefresherPara × PublishRequest))
    (delivery : RefresherPara × PublishRequest) :
    lastProduced answers original (before ++ [delivery]) =
      (produces answers delivery).getD (lastProduced answers original before) := by
  unfold lastProduced
  rw [reverse_concat, List.findSome?_cons]
  cases produces answers delivery with
  | none => rfl
  | some payload => rfl

/-- A monitor that does not process the data produces none. -/
theorem produces_plain {param : RefresherPara} (plain : param.processing = false)
    (request : PublishRequest) : produces answers (param, request) = none := by
  simp [produces, plain]

/-- An answer that is taken in leaves the data that the monitor produced. -/
theorem takeIn_produces {param : RefresherPara}
    (processing : param.processing = true) {request : PublishRequest}
    (allowed : (answers request).1 ≠ forbidden403) (ctx : DataProcessingCtx) :
    takeIn ctx (some (.coapParsed (answers request).1 (answers request).2)) =
      some { ctx with payload := (produces answers (param, request)).getD ctx.payload } := by
  simp only [takeIn, if_neg allowed, produces, processing, true_and]
  split
  · rfl
  · rfl

/-- The request that the flow of a context sends a monitor without waiting. -/
def flowRequest (ctx : DataProcessingCtx) (handler : Option (ResponseHandler × Nat))
    (param : RefresherPara) : PublishRequest :=
  ⟨some (CString.snprintf purlSize (param.publishPoint ++ ctx.url)), ctx.payloadFmt, ctx.payload,
    coapPost, ctx.query, handler⟩

variable {before : List (RefresherPara × PublishRequest)}

/-- Monitors that do not process the data are all sent the same data. -/
theorem Delivers.plain {plains rest : List RefresherPara} {requests : List PublishRequest}
    (plain : ∀ param ∈ plains, param.processing = false) {make : RefresherPara → PublishRequest}
    (addressed : ∀ param, AddressedTo param (make param))
    (payload : ∀ param, (make param).payload = lastProduced answers original before)
    (later : Delivers answers original
      (before ++ plains.map fun param => (param, make param)) rest requests) :
    Delivers answers original before (plains ++ rest) (plains.map make ++ requests) := by
  induction plains generalizing before with
  | nil => simpa using later
  | cons param plains ih =>
    refine .next (addressed param) (payload param) ?_
    refine ih (fun other member => plain other (mem_cons_of_mem _ member)) ?_ ?_
    · intro other
      rw [lastProduced_concat, produces_plain (plain param mem_cons_self)]
      exact payload other
    · simpa using later

variable {next : Option (RefresherPara × Bool)}

/-- Behind the monitor that answered, the walk sends the data to the monitors before the next
one that processes it. -/
theorem walkBehind_plain {address : Nat} {ctx : DataProcessingCtx}
    {plains rest : List RefresherPara} (plain : ∀ param ∈ plains, param.processing = false)
    (stops : ∀ purl world, walkBehind env address ctx rest purl world = some ⟨rest, next, world⟩)
    (purl : Option CString) (world : PublishWorld) :
    walkBehind env address ctx (plains ++ rest) purl world = some ⟨plains ++ rest, next,
      { world with requests := world.requests ++ plains.map (flowRequest ctx none) }⟩ := by
  induction plains generalizing purl world with
  | nil => simpa using stops purl world
  | cons param plains ih =>
    have later := ih fun other member => plain other (mem_cons_of_mem _ member)
    simp [walkBehind, plain param mem_cons_self, sendRequest, later, flowRequest]

/-- The walk finds the monitor that answered by its id. -/
theorem walkFrom_found (answered : Bool) {address : Nat} {ctx : DataProcessingCtx}
    {front rest : List RefresherPara}
    {param : RefresherPara} (others : ∀ other ∈ front, other.id ≠ ctx.monitorId)
    (here : param.id = ctx.monitorId) {world : PublishWorld}
    {walk : Walk} (behind : walkBehind env address ctx rest none world = some walk) :
    walkFrom env address ctx answered (front ++ param :: rest) world =
      some { walk with monitors := front ++ settleAnswered answered param :: walk.monitors } := by
  induction front with
  | nil => simp [walkFrom, here, behind]
  | cons other front ih =>
    have later := ih fun other member => others other (mem_cons_of_mem _ member)
    simp [walkFrom, others other mem_cons_self, later]

/-! ## A suspended flow -/

/-- The flow waits for the answer of `param`, to which it sent `request`; the monitors in
`front` are behind it, those in `rest` are to come. -/
structure Suspended (others : List (ResponseHandler × Nat)) (address : Nat)
    (ctx : DataProcessingCtx) (front : List RefresherPara) (param : RefresherPara)
    (rest : List RefresherPara) (request : PublishRequest) (world : PublishWorld) : Prop where
  point : ∃ point, world.points ctx.refreshPointId = some point ∧
    point.monitors = front ++ param :: rest
  context : world.heap address = some (.dataProcessing ctx)
  monitor : ctx.monitorId = param.id
  payload : ctx.payload = request.payload
  pending : world.pending = others ++ [(.dataProcessing, address)]
  sent : ∃ earlier, world.requests = earlier ++ [request]
  handler : request.handler = some (.dataProcessing, address)
  processing : param.processing = true
  distinct : ((front ++ param :: rest).map (·.id)).Nodup

variable {others : List (ResponseHandler × Nat)} {address : Nat} {ctx : DataProcessingCtx}
  {front rest plains stop : List RefresherPara}
  {param : RefresherPara} {request : PublishRequest} {world : PublishWorld}

/-- The context with the data that the monitor made. -/
def fed (answers : Answers) (param : RefresherPara) (request : PublishRequest)
    (ctx : DataProcessingCtx) : DataProcessingCtx :=
  { ctx with payload := (produces answers (param, request)).getD ctx.payload }

/-- The world at the end of the walk behind a suspended flow. -/
def resumed (others : List (ResponseHandler × Nat)) (id : UInt32) (monitors : List RefresherPara)
    (sent : List PublishRequest) (world : PublishWorld) : PublishWorld :=
  ({ world with pending := others, requests := world.requests ++ sent } : PublishWorld).setMonitors
    id monitors

/-- The pending handler is the one of the flow, and the answer is that of its monitor. -/
theorem Suspended.round (suspended : Suspended others address ctx front param rest request world)
    (rounds : Nat) :
    answerFlow env answers others.length (rounds + 1) world = (dataProcessingResponseHandler
      env address (some (.coapParsed (answers request).1 (answers request).2))
      { world with pending := others }).bind (answerFlow env answers others.length rounds) := by
  obtain ⟨earlier, sent⟩ := suspended.sent
  have own : world.pending[others.length]? = some (.dataProcessing, address) := by
    simp [suspended.pending]
  have left : world.pending.eraseIdx others.length = others := by
    simp [suspended.pending, eraseIdx_append_of_length_le]
  have last : world.requests.reverse.find? (·.handler = some (.dataProcessing, address)) =
      some request := by
    simp [sent, suspended.handler]
  simp [answerFlow, answer, own, last, left]

/-- Where the walk behind the answered monitor ends, the handler goes on from there. -/
theorem Suspended.handled (env : PublishEnv)
    (suspended : Suspended others address ctx front param (plains ++ stop) request world)
    (allowed : (answers request).1 ≠ forbidden403)
    (plain : ∀ other ∈ plains, other.processing = false)
    (stops : ∀ purl world, walkBehind env address (fed answers param request ctx) stop purl world =
      some ⟨stop, next, world⟩) : dataProcessingResponseHandler env address
      (some (.coapParsed (answers request).1 (answers request).2))
    { world with pending := others } =
      proceed env address (fed answers param request ctx) next
        (resumed others ctx.refreshPointId (front ++ settleAnswered true param :: (plains ++ stop))
          (plains.map (flowRequest (fed answers param request ctx) none)) world) := by
  obtain ⟨point, found, monitors⟩ := suspended.point
  have taken : takeIn ctx (some (.coapParsed (answers request).1 (answers request).2)) =
      some (fed answers param request ctx) :=
    takeIn_produces suspended.processing allowed ctx
  have apart : ∀ other ∈ front, other.id ≠ (fed answers param request ctx).monitorId := by
    have distinct := suspended.distinct
    rw [map_append] at distinct
    intro other member same
    exact (nodup_append.mp distinct).2.2 _ (mem_map_of_mem member) _ mem_cons_self
      (same.trans suspended.monitor)
  have behind := walkBehind_plain plain stops none { world with pending := others }
  have walked := walkFrom_found true apart suspended.monitor.symm behind
  rw [← monitors] at walked
  simp only [dataProcessingResponseHandler, suspended.context, Option.bind_eq_bind,
    Option.bind_some, found, taken, Option.isSome_some, walked]
  rfl

/-- The flow is over: the monitors to come were sent their data, and the context was released. -/
structure Finished (answers : Answers)
    (original : List UInt8) (others : List (ResponseHandler × Nat)) (address : Nat)
    (before : List (RefresherPara × PublishRequest)) (rest : List RefresherPara)
    (world final : PublishWorld) : Prop where
  pending : final.pending = others
  freed : final.freed = world.freed ++ [address]
  nextAddress : final.nextAddress = world.nextAddress
  sent : ∃ sent, final.requests = world.requests ++ sent ∧
    Delivers answers original before rest sent

/-- Without a pending handler there are no more answers. -/
theorem answerFlow_done (done : world.pending = others) (rounds : Nat) :
    answerFlow env answers others.length rounds world = some world := by
  cases rounds with
  | zero => rfl
  | succ rounds => simp [answerFlow, done]

theorem flowRequest_addressedTo (ctx : DataProcessingCtx) (handler : Option (ResponseHandler × Nat))
    (param : RefresherPara) : AddressedTo param (flowRequest ctx handler param) := ⟨ctx.url, rfl⟩

/-- A list of monitors up to the first one that processes the data. -/
theorem split_processing (monitors : List RefresherPara) :
    (∀ param ∈ monitors, param.processing = false) ∨ ∃ plains param rest,
    monitors = plains ++ param :: rest ∧ (∀ other ∈ plains, other.processing = false) ∧
    param.processing = true := by
  induction monitors with
  | nil => exact .inl fun _ member => absurd member not_mem_nil
  | cons first monitors ih =>
    cases processing : first.processing with
    | true =>
      exact .inr ⟨[], first, monitors, rfl, fun _ member => absurd member not_mem_nil, processing⟩
    | false =>
      rcases ih with plain | ⟨plains, param, rest, rfl, plain, stops⟩
      · exact .inl (forall_mem_cons.mpr ⟨processing, plain⟩)
      · exact .inr ⟨first :: plains, param, rest, rfl,
          forall_mem_cons.mpr ⟨processing, plain⟩, stops⟩

/-- The walk stops at a monitor that processes the data and has not failed. -/
theorem walkBehind_stops (processing : param.processing = true) (healthy : param.errorCnt = 0)
    (purl : Option CString) (world : PublishWorld) : walkBehind env address ctx
      (param :: rest) purl world = some ⟨param :: rest, some (param, rest.isEmpty), world⟩ := by
  simp [walkBehind, processing, healthy]

/-- Monitors that do not process the data leave it as it is. -/
theorem lastProduced_plains (answers : Answers) (original : List UInt8)
    (plain : ∀ other ∈ plains, other.processing = false) (make : RefresherPara → PublishRequest)
    (before : List (RefresherPara × PublishRequest)) :
    lastProduced answers original (before ++ plains.map fun other => (other, make other)) =
      lastProduced answers original before := by
  induction plains generalizing before with
  | nil => rw [map_nil, append_nil]
  | cons first plains ih =>
    have later := ih (fun other member => plain other (mem_cons_of_mem _ member))
      (before ++ [(first, make first)])
    rw [append_assoc, singleton_append] at later
    rw [map_cons, later, lastProduced_concat, produces_plain (plain first mem_cons_self)]
    rfl

/-- An answer that leaves no handler pending is the last one. -/
theorem Suspended.ends (suspended : Suspended others address ctx front param rest request world)
    (rounds : Nat) {final : PublishWorld}
    (handled : dataProcessingResponseHandler env address (some (.coapParsed (answers request).1
      (answers request).2)) { world with pending := others } = some final)
    (done : final.pending = others) :
      answerFlow env answers others.length (rounds + 1) world = some final := by
  rw [suspended.round, handled, Option.bind_some]
  exact answerFlow_done done rounds

variable {rounds : Nat}

/-- The flow ends where no monitor is to come. -/
theorem Suspended.finishes_plain
      (suspended : Suspended others address ctx front param rest request world)
    (allowed : (answers request).1 ≠ forbidden403)
    (plain : ∀ other ∈ rest, other.processing = false)
    (payload : (fed answers param request ctx).payload = lastProduced answers original before) :
    ∃ final, answerFlow env answers others.length (rounds + 1) world = some final ∧
    Finished answers original others address before rest world final := by
  have whole : Suspended others address ctx front param (rest ++ []) request world := by
    rw [append_nil]
    exact suspended
  have handled := whole.handled env allowed plain (fun purl world => rfl)
  let sent := rest.map (flowRequest (fed answers param request ctx) none)
  have deliver : Delivers answers original before (rest ++ []) (sent ++ []) :=
    .plain plain (flowRequest_addressedTo _ none) (fun _ => payload) (.done _)
  rw [append_nil, append_nil] at deliver
  exact ⟨_, suspended.ends rounds (handled.trans rfl) rfl, rfl, rfl, rfl, sent, rfl, deliver⟩

/-- The flow ends where the next monitor that processes the data is the last one. -/
theorem Suspended.finishes_last {last : RefresherPara}
    (suspended : Suspended others address ctx front param (plains ++ [last]) request world)
    (allowed : (answers request).1 ≠ forbidden403)
    (plain : ∀ other ∈ plains, other.processing = false)
    (processing : last.processing = true) (healthy : last.errorCnt = 0)
    (payload : (fed answers param request ctx).payload = lastProduced answers original before) :
    ∃ final, answerFlow env answers others.length (rounds + 1) world = some final ∧
    Finished answers original others address before (plains ++ [last]) world final := by
  have stops : ∀ purl world, walkBehind env address (fed answers param request ctx) [last] purl
    world = some ⟨[last], some (last, true), world⟩ := walkBehind_stops processing healthy
  have handled := suspended.handled env allowed plain stops
  let sent := plains.map (flowRequest (fed answers param request ctx) none)
  have unchanged := (lastProduced_plains answers original plain
    (flowRequest (fed answers param request ctx) none) before).symm
  have deliver : Delivers answers original before (plains ++ [last])
      (sent ++ [flowRequest (fed answers param request ctx) none last]) := by
    refine .plain plain (flowRequest_addressedTo _ none) (fun _ => payload) ?_
    exact .next (flowRequest_addressedTo _ none last) (payload.trans unchanged) (.done _)
  refine ⟨_, suspended.ends rounds (handled.trans rfl) rfl, rfl, rfl, rfl, _, ?_, deliver⟩
  exact append_assoc ..

/-- The flow goes on to the next monitor that processes the data. -/
theorem Suspended.goesOn (rounds : Nat) {next : RefresherPara} {more : List RefresherPara}
    (suspended : Suspended others address ctx front param (plains ++ next :: more) request world)
    (allowed : (answers request).1 ≠ forbidden403)
    (plain : ∀ other ∈ plains, other.processing = false)
    (processing : next.processing = true) (healthy : next.errorCnt = 0) (notLast : more ≠ []) :
    ∃ after, answerFlow env answers others.length (rounds + 1) world =
      answerFlow env answers others.length rounds after ∧
    Suspended others address { fed answers param request ctx with monitorId := next.id }
        (front ++ settleAnswered true param :: plains) next more
          (flowRequest (fed answers param request ctx) (some (.dataProcessing, address)) next)
          after ∧ after.freed = world.freed ∧ after.nextAddress = world.nextAddress ∧
        after.requests = world.requests ++
          plains.map (flowRequest (fed answers param request ctx) none) ++
          [flowRequest (fed answers param request ctx) (some (.dataProcessing, address)) next] := by
  have stops : ∀ purl world, walkBehind env address (fed answers param request ctx)
      (next :: more) purl world = some ⟨next :: more, some (next, false), world⟩ := by
    have notEmpty : more.isEmpty = false := by simpa using notLast
    intro purl world
    rw [walkBehind_stops processing healthy, notEmpty]
  rw [suspended.round, suspended.handled env allowed plain stops]
  refine ⟨_, rfl, ?_, rfl, rfl, rfl⟩
  obtain ⟨point, found, monitors⟩ := suspended.point
  refine ⟨?_, ?_, rfl, rfl, rfl, ⟨_, rfl⟩, rfl, processing, ?_⟩
  · refine ⟨{ point with
      monitors := front ++ settleAnswered true param :: (plains ++ next :: more) }, ?_, ?_⟩
    · simp [resumed, setMonitors, found, fed]
    · simp
  · exact update_self ..
  · have distinct := suspended.distinct
    simpa [settleAnswered] using distinct

/-- A suspended flow is finished by the answers of the monitors. -/
theorem Suspended.finishes (env : PublishEnv)
    (suspended : Suspended others address ctx front param rest request world)
    (allowed : ∀ request, (answers request).1 ≠ forbidden403)
    (healthy : ∀ other ∈ rest, other.errorCnt = 0)
    (delivered : request.payload = lastProduced answers original before)
    (enough : rest.length < rounds) :
    ∃ final, answerFlow env answers others.length rounds world = some final ∧
    Finished answers original others address (before ++ [(param, request)]) rest world final := by
  induction rounds generalizing ctx front param rest request world before with
  | zero => exact absurd enough (Nat.not_lt_zero _)
  | succ rounds ih =>
    have payload : (fed answers param request ctx).payload = lastProduced answers original
        (before ++ [(param, request)]) := by
      rw [lastProduced_concat, ← delivered, ← suspended.payload]
      rfl
    rcases split_processing rest with plain | ⟨plains, next, more, rfl, plain, processing⟩
    · exact suspended.finishes_plain (allowed request) plain payload
    · have fresh : next.errorCnt = 0 := healthy next (by simp)
      by_cases isLast : more = []
      · subst isLast
        exact suspended.finishes_last (allowed request) plain processing fresh payload
      · obtain ⟨after, goesOn, again, freed, nextAddress, sent⟩ :=
          suspended.goesOn rounds (allowed request) plain processing fresh isLast
        have unchanged := (lastProduced_plains answers original plain
          (flowRequest (fed answers param request ctx) none) (before ++ [(param, request)])).symm
        have fewer : more.length < rounds := by
          simp at enough
          omega
        obtain ⟨final, answered, finished⟩ :=
          ih again (fun other member => healthy other (by simp [member]))
          (payload.trans unchanged) fewer
        refine ⟨final, goesOn.trans answered, finished.pending,
          finished.freed.trans (by rw [freed]), finished.nextAddress.trans nextAddress, ?_⟩
        obtain ⟨later, requests, deliver⟩ := finished.sent
        refine ⟨plains.map (flowRequest (fed answers param request ctx) none) ++ flowRequest
          (fed answers param request ctx) (some (.dataProcessing, address)) next :: later, ?_, ?_⟩
        · rw [requests, sent]
          simp
        · exact .plain plain (flowRequest_addressedTo _ none) (fun _ => payload)
            (.next (flowRequest_addressedTo _ _ next) (payload.trans unchanged) deliver)

/-! ## The whole flow -/

/-- The contexts that a flow allocates. -/
def flowContexts (monitors : List RefresherPara) (world : PublishWorld) : List Nat :=
  if monitors.any (·.processing) then [world.nextAddress] else []

/-- Every monitor was sent its data, and the context of the flow was released once. -/
structure Delivered (answers : Answers) (original : List UInt8) (monitors : List RefresherPara)
    (world final : PublishWorld) : Prop where
  sent : ∃ sent, final.requests = world.requests ++ sent ∧
    Delivers answers original [] monitors sent
  pending : final.pending = world.pending
  allocated : final.nextAddress = world.nextAddress + (flowContexts monitors world).length
  released : final.freed = world.freed ++ flowContexts monitors world

/-- The request for a monitor that does not process the data. -/
def dataRequest (directory : Directory) (point : RefresherPoint) (fmt : Int32)
    (payload : List UInt8) (param : RefresherPara) : PublishRequest :=
  ⟨some (CString.snprintf purlSize
    (param.publishPoint ++ dataUrl directory point param.publishPoint)), fmt, payload, coapPut,
    none, none⟩

theorem publishFrom_plain (env : PublishEnv) (directory : Directory) (id : UInt32)
    (point : RefresherPoint) (fmt : Int32) (payload : List UInt8)
    (rest : List RefresherPara) (plain : ∀ param ∈ plains, param.processing = false)
    (world : PublishWorld) : publishFrom env directory id point fmt payload (plains ++ rest) world =
      publishFrom env directory id point fmt payload rest
      { world with
        requests := world.requests ++ plains.map (dataRequest directory point fmt payload) } := by
  induction plains generalizing world with
  | nil => simp
  | cons param plains ih =>
    have later := ih fun other member => plain other (mem_cons_of_mem _ member)
    simp [publishFrom, plain param mem_cons_self, sendRequest, later, dataRequest]

variable {directory : Directory} {id : UInt32} {point : RefresherPoint} {fmt : Int32}
  {payload : List UInt8}

/-- The walk of new data ends, or is suspended at the first monitor that processes it. -/
theorem publishFrom_delivers {monitors : List RefresherPara} (here : world.points id = some point)
    (same : point.monitors = monitors)
    (distinct : (monitors.map (·.id)).Nodup) (healthy : ∀ param ∈ monitors, param.errorCnt = 0)
    (allowed : ∀ request, (answers request).1 ≠ forbidden403) (enough : monitors.length ≤ rounds) :
    ∃ started final, publishFrom env directory id point fmt payload monitors world = some started ∧
    answerFlow env answers world.pending.length rounds started = some final ∧
    Delivered answers payload monitors world final := by
  have nothingBefore : payload = lastProduced answers payload [] := rfl
  have addressed : ∀ param, AddressedTo param (dataRequest directory point fmt payload param) :=
    fun param => ⟨_, rfl⟩
  rcases split_processing monitors with plain | ⟨plains, param, rest, rfl, plain, processing⟩
  · have published := publishFrom_plain env directory id point fmt payload [] plain world
    rw [append_nil] at published
    have deliver : Delivers answers payload [] (monitors ++ []) _ :=
      .plain plain addressed (fun _ => nothingBefore) (.done _)
    rw [append_nil, append_nil] at deliver
    have none_ : flowContexts monitors world = [] := by
      simpa [flowContexts] using plain
    let started : PublishWorld :=
      { world with
        requests := world.requests ++ monitors.map (dataRequest directory point fmt payload) }
    have done : started.pending = world.pending := rfl
    refine ⟨started, started, published, answerFlow_done done rounds,
      ⟨_, rfl, deliver⟩, rfl, ?_, ?_⟩
    · rw [none_]
      rfl
    · rw [none_, append_nil]
  · have fresh : param.errorCnt = 0 := healthy param (by simp)
    have one : flowContexts (plains ++ param :: rest) world = [world.nextAddress] := by
      simp [flowContexts, processing]
    have published :=
      publishFrom_plain env directory id point fmt payload (param :: rest) plain world
    let purl := CString.snprintf purlSize
      (param.publishPoint ++ dataUrl directory point param.publishPoint)
    let request : PublishRequest :=
      ⟨some purl, fmt, payload, coapPost, none, some (.dataProcessing, world.nextAddress)⟩
    let ctx : DataProcessingCtx :=
      ⟨id, param.id, 0, payload, none, urlBehind env param.publishPoint purl⟩
    let started : PublishWorld :=
      { world.malloc (.dataProcessing ctx) with
        requests :=
          world.requests ++ plains.map (dataRequest directory point fmt payload) ++ [request]
        pending := world.pending ++ [(.dataProcessing, world.nextAddress)] }
    have starts : publishFrom env directory id point fmt payload (plains ++ param :: rest) world =
        some started := by
      rw [published]
      simp [publishFrom, processing, fresh, sendRequest, malloc, started, request, ctx, purl]
    have suspended :
        Suspended world.pending world.nextAddress ctx plains param rest request started :=
      ⟨⟨point, here, same⟩, update_self .., rfl, rfl, rfl, ⟨_, rfl⟩, rfl, processing, distinct⟩
    have unchanged :=
      lastProduced_plains answers payload plain (dataRequest directory point fmt payload) []
    have fewer : rest.length < rounds := by
      simp at enough
      omega
    obtain ⟨final, answered, finished⟩ := suspended.finishes env allowed
      (fun other member => healthy other (by simp [member])) unchanged.symm fewer
    refine ⟨started, final, starts, answered, ?_, finished.pending, ?_, ?_⟩
    · obtain ⟨later, requests, deliver⟩ := finished.sent
      refine ⟨plains.map (dataRequest directory point fmt payload) ++ request :: later, ?_, ?_⟩
      · rw [requests]
        simp [started]
      · exact .plain plain addressed (fun _ => nothingBefore)
          (.next ⟨_, rfl⟩ unchanged.symm deliver)
    · rw [one]
      exact finished.nextAddress
    · rw [one]
      exact finished.freed

end Flow

/-- With monitors that all answer, new data is delivered to each monitor; empty data is not. -/
theorem onRefresherData_delivers (env : PublishEnv)
    (directory : Directory) (notified : UInt32) (fmt : Int32) (payload : List UInt8)
    {id : UInt32} {answers : Answers} {world : PublishWorld} {point : RefresherPoint} {rounds : Nat}
    (here : world.points id = some point) (distinct : (point.monitors.map (·.id)).Nodup)
    (healthy : ∀ param ∈ point.monitors, param.errorCnt = 0)
    (allowed : ∀ request, (answers request).1 ≠ forbidden403)
    (enough : point.monitors.length ≤ rounds) :
    (payload ≠ [] → ∃ started final, onRefresherData env directory id notified fmt payload world =
      some started ∧ answerFlow env answers world.pending.length rounds started = some final ∧
      Delivered answers (calibrated env point fmt payload) point.monitors world final) ∧
    (payload = [] → onRefresherData env directory id notified fmt payload world = some world) := by
  constructor
  · intro given
    let stamped := { point with lastNotified := notified }
    let stampedWorld : PublishWorld :=
      { world with points := update world.points id (some stamped) }
    have updated : stampedWorld.points id = some stamped := update_self ..
    obtain ⟨started, final, published, answered, delivered⟩ :=
      publishFrom_delivers updated rfl distinct healthy allowed enough
    refine ⟨started, final, ?_, answered, delivered.sent, delivered.pending, delivered.allocated,
      delivered.released⟩
    rw [onRefresherData, here]
    simp only [if_neg given]
    exact published
  · rintro rfl
    rw [onRefresherData, here]
    rfl

/-- Every monitor answers with one more byte. -/
def sampleAnswers : Answers := fun request => (content205, request.payload ++ [0x2B])

/-- Two of four monitors process the data. -/
def sampleMonitors : List RefresherPara :=
  [sampleMonitor 0 false 0 0, sampleMonitor 1 true 0 0, sampleMonitor 2 false 0 0,
    sampleMonitor 3 true 0 0]

theorem onRefresherData_delivers_fourMonitors : ∃ started final, onRefresherData
      sampleEnv Directory.start 1 0 0 [0x31] (sampleWorld sampleMonitors) = some started ∧
    answerFlow sampleEnv sampleAnswers 0 4 started = some final ∧
    Delivered sampleAnswers [0x31] sampleMonitors (sampleWorld sampleMonitors) final ∧
    started.requests.map (·.payload) = [[0x31], [0x31]] := by
  have here : (sampleWorld sampleMonitors).points 1 = some (samplePoint sampleMonitors) := rfl
  have allowed : ∀ request, (sampleAnswers request).1 ≠ forbidden403 := by
    intro request
    show content205 ≠ forbidden403
    decide
  obtain ⟨started, final, starts, answered, delivered⟩ :=
    (onRefresherData_delivers sampleEnv Directory.start 0 0 [0x31] here (by decide)
      (by decide) allowed (Nat.le_refl _)).1
      (by decide)
  refine ⟨started, final, starts, answered, delivered, ?_⟩
  cases starts
  rfl

/-- Empty data is not sent to any monitor. -/
theorem onRefresherData_empty_fails : ∃ started, onRefresherData sampleEnv Directory.start 1 0 0
      [] (sampleWorld [sampleMonitor 0 false 0 0]) = some started ∧
    answerFlow sampleEnv sampleAnswers 0 1 started = some started ∧ ¬Delivered sampleAnswers []
      [sampleMonitor 0 false 0 0] (sampleWorld [sampleMonitor 0 false 0 0]) started := by
  refine ⟨_, rfl, rfl, fun delivered => ?_⟩
  obtain ⟨sent, requests, delivers⟩ := delivered.sent
  cases delivers
  cases requests

end PublishWorld

end Idrm.Devices
