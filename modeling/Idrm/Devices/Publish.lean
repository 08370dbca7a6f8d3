import Idrm.Coap.Packet
import Idrm.Devices.Refresher

/-!
# Publishing data to monitors

`OnRefresherData` posts the data of a refresher point to its monitors, in the order of their
list. At a monitor that processes the data the walk is suspended: a context keeps the data,
and `data_processing_response_handler` resumes the walk behind that monitor when the answer
is there. A monitor that failed to answer is left out of the flow and only retried now and
then, with a context and a handler of its own.

`SendRequest` takes over the handler with its context, and calls it once: with the answer, or
with `NULL` after a timeout. If it cannot send the request it calls the handler with `NULL`
before it returns. For the handler of a flow, whose request is the last thing its caller
does, that is a timeout right behind the call; for a failed monitor, whose request is sent
in the middle of a walk, it is modelled where it happens.

The contexts live in a heap. Who reads one that was freed has no result, and neither has the
walk that stands at a monitor which is erased.
-/

namespace Idrm.Devices

open Idrm.Lib Idrm.Coap Function

/-- `FORBIDDEN_4_03` -/
def forbidden403 : UInt8 := 131

/-- `data_processing_ctx_t` -/
structure DataProcessingCtx where
  refreshPointId : UInt32
  monitorId : UInt32
  payloadFmt : Int32
  payload : List UInt8
  query : Option CString
  url : CString
deriving DecidableEq

/-- `failed_monitor_ctx_t` -/
structure FailedMonitorCtx where
  refreshPointId : UInt32
  monitorId : UInt32
deriving DecidableEq

/-- What lies at the address of a context. -/
inductive Block where
  | dataProcessing (ctx : DataProcessingCtx)
  | failedMonitor (ctx : FailedMonitorCtx)
deriving DecidableEq

/-- Both contexts start with the same two members. -/
def Block.front : Block → FailedMonitorCtx
  | .dataProcessing ctx => ⟨ctx.refreshPointId, ctx.monitorId⟩
  | .failedMonitor ctx => ctx

/-- The two response handlers. -/
inductive ResponseHandler where
  | dataProcessing
  | failedMonitor
deriving DecidableEq

/-- The arguments of `SendRequest`; a handler comes with the address of its context. The url is
`none` where its buffer was never written. -/
structure PublishRequest where
  url : Option CString
  fmt : Int32
  payload : List UInt8
  code : UInt8
  query : Option CString
  handler : Option (ResponseHandler × Nat)
deriving DecidableEq

/-- What a response handler is called with, if not with `NULL`. -/
inductive Answer where
  | coapParsed (code : UInt8) (payload : List UInt8)
  | brokerMessage
  | other
deriving DecidableEq

/-- A retry of a failed monitor: the monitor with its point, the url of the data, the request
and the context its handler will be called with. -/
structure Retry where
  refreshPointId : UInt32
  monitor : RefresherPara
  dataUrl : CString
  request : PublishRequest
  context : Option Block
deriving DecidableEq

/-- The points and the contexts, with the requests sent and the retries among them. -/
structure PublishWorld where
  points : UInt32 → Option RefresherPoint
  heap : Nat → Option Block
  nextAddress : Nat
  freed : List Nat
  pending : List (ResponseHandler × Nat)
  requests : List PublishRequest
  retries : List Retry

/-- What publishing depends on: the calibration of a point (an empty result keeps the data),
what a read behind a buffer finds, and which requests cannot be sent. -/
structure PublishEnv where
  calibrate : RefresherPoint → Int32 → List UInt8 → List UInt8
  outside : CString
  refuses : Nat → Bool

namespace PublishWorld

/-- `malloc` of a context. -/
def malloc (block : Block) (world : PublishWorld) : PublishWorld :=
  { world with
    heap := update world.heap world.nextAddress (some block)
    nextAddress := world.nextAddress + 1 }

/-- `free` -/
def free (address : Nat) (world : PublishWorld) : PublishWorld :=
  { world with heap := update world.heap address none, freed := world.freed ++ [address] }

/-- The monitors of a point are changed. -/
def setMonitors (id : UInt32) (monitors : List RefresherPara)
    (world : PublishWorld) : PublishWorld :=
  { world with
    points := update world.points id
      ((world.points id).map fun point => { point with monitors := monitors }) }

/-! ## Failed monitors -/

/-- The walk of `data_processing_response_handler_for_failed_monitor`. -/
def settleFailed (monitorId : UInt32) (answered : Bool) : List RefresherPara → List RefresherPara
  | [] => []
  | param :: rest =>
    if param.id = monitorId then
      if answered then { param with errorCnt := 0, skipCnt := 0 } :: rest
      else if param.errorCnt + 1 > 10 then rest
      else { param with errorCnt := param.errorCnt + 1 } :: rest
    else param :: settleFailed monitorId answered rest

/-- `data_processing_response_handler_for_failed_monitor` -/
def failedMonitorHandler (address : Nat) (data : Option Answer) (world : PublishWorld) :
    Option PublishWorld := do
  let ctx := (← world.heap address).front
  match world.points ctx.refreshPointId with
  | none => some (world.free address)
  | some point =>
    let monitors := settleFailed ctx.monitorId data.isSome point.monitors
    some ((world.setMonitors ctx.refreshPointId monitors).free address)

/-- `SendRequest`, as far as the callers see it. -/
def sendRequest (env : PublishEnv) (request : PublishRequest) (world : PublishWorld) :
    Option PublishWorld :=
  let sent := { world with requests := world.requests ++ [request] }
  match request.handler with
  | none => some sent
  | some (.dataProcessing, address) =>
    some { sent with pending := sent.pending ++ [(.dataProcessing, address)] }
  | some (.failedMonitor, address) =>
    if env.refuses world.requests.length then failedMonitorHandler address none sent
    else some { sent with pending := sent.pending ++ [(.failedMonitor, address)] }

/-- A retry is recorded. -/
def recordRetry (refreshPointId : UInt32) (monitor : RefresherPara) (dataUrl : CString)
    (request : PublishRequest) (world : PublishWorld) : PublishWorld :=
  { world with
    retries := world.retries ++ [⟨refreshPointId, monitor, dataUrl, request,
      request.handler.bind fun handler => world.heap handler.2⟩] }

/-! ## New data -/

/-- `"/"` -/
def slash : CString := ⟨[0x2F], by decide⟩
/-- `"dev"` -/
def standardDev : CString := ⟨[0x64, 0x65, 0x76], by decide⟩
/-- `"/ibroker"` -/
def ibrokerPath : List UInt8 := [0x2F, 0x69, 0x62, 0x72, 0x6F, 0x6B, 0x65, 0x72]

/-- The size of `purl`. -/
def purlSize : Nat := 512

/-- The device and the resource of the data; the cloud is told the global name of the device. -/
def dataUrl (directory : Directory) (point : RefresherPoint) (publishPoint : CString) : CString :=
  match directory.findClient point.clientId with
  | none => slash ++ standardDev ++ slash ++ point.clientId ++ point.resourceUrl
  | some client =>
    let di :=
      if publishPoint.bytes.take 8 = ibrokerPath then client.epname
      else if client.aliasName ≠ .empty then client.aliasName
      else client.epname
    slash ++ client.standard ++ slash ++ di ++ point.resourceUrl

/-- `purl + strlen(cpurl)` -/
def urlBehind (env : PublishEnv) (publishPoint purl : CString) : CString :=
  if publishPoint.bytes.length ≤ purl.bytes.length then purl.drop publishPoint.bytes.length
    else env.outside

/-- The walk of `OnRefresherData` from a monitor on. -/
def publishFrom (env : PublishEnv) (directory : Directory) (id : UInt32) (point : RefresherPoint)
    (fmt : Int32) (payload : List UInt8) : List RefresherPara → PublishWorld → Option PublishWorld
  | [], world => some world
  | param :: rest, world => do
      let url := dataUrl directory point param.publishPoint
      let purl := CString.snprintf purlSize (param.publishPoint ++ url)
      let address := world.nextAddress
      if param.processing then
        if param.errorCnt = 0 then
          let ctx : DataProcessingCtx :=
            ⟨id, param.id, 0, payload, none, urlBehind env param.publishPoint purl⟩
          let world := world.malloc (.dataProcessing ctx)
          -- the walk goes on when the answer is there
          world.sendRequest env ⟨some purl, fmt, payload, coapPost, none,
            some (.dataProcessing, address)⟩
        else if env.refuses world.requests.length ∧ param.errorCnt + 1 > 10 then
          -- the handler erases the monitor the walk stands at
          none
        else
          let request : PublishRequest :=
            ⟨some purl, fmt, payload, coapPost, none, some (.failedMonitor, address)⟩
          let world := (world.malloc (.failedMonitor ⟨id, param.id⟩)).recordRetry id
            param url request
          publishFrom env directory id point fmt payload rest (← world.sendRequest env request)
      else
        let request : PublishRequest := ⟨some purl, fmt, payload, coapPut, none, none⟩
        publishFrom env directory id point fmt payload rest (← world.sendRequest env request)

/-- The data after calibration. -/
def calibrated (env : PublishEnv) (point : RefresherPoint) (fmt : Int32)
    (payload : List UInt8) : List UInt8 :=
  if env.calibrate point fmt payload = [] then payload else env.calibrate point fmt payload

/-- `OnRefresherData` of the point with an id; `notified` is the millisecond clock. -/
def onRefresherData (env : PublishEnv) (directory : Directory) (id : UInt32) (notified : UInt32)
    (fmt : Int32) (payload : List UInt8) (world : PublishWorld) : Option PublishWorld :=
  match world.points id with
  | none => some world
  | some point =>
    if payload = [] then some world
    else
      let payload := calibrated env point fmt payload
      let point := { point with lastNotified := notified }
      let world := { world with points := update world.points id (some point) }
      publishFrom env directory id point fmt payload point.monitors world

/-! ## Answers -/

/-- What an answer does to the flow; `none` ends it. -/
def takeIn (ctx : DataProcessingCtx) : Option Answer → Option DataProcessingCtx
  | none => some ctx
  | some (.coapParsed code payload) =>
    if code = forbidden403 then none
    else if (content205 = code ∨ code = changed204) ∧ payload ≠ [] then
      some { ctx with payload := payload }
    else some ctx
  | some .brokerMessage => some ctx
  | some .other => none

/-- What an answer, or its absence, does to the monitor it was expected from. -/
def settleAnswered (answered : Bool) (param : RefresherPara) : RefresherPara :=
  if answered then { param with errorCnt := 0, skipCnt := 0 }
    else { param with errorCnt := param.errorCnt + 1 }

/-- What a walk found: the monitors as it left them, the next monitor that processes the data
and whether it is the last one. -/
structure Walk where
  monitors : List RefresherPara
  next : Option (RefresherPara × Bool)
  world : PublishWorld

/-- The walk of `data_processing_response_handler` behind the monitor that answered. `purl` is
only written for monitors that do not process the data. -/
def walkBehind (env : PublishEnv) (address : Nat) (ctx : DataProcessingCtx) :
    List RefresherPara → Option CString → PublishWorld → Option Walk
  | [], _, world => some ⟨[], none, world⟩
  | param :: rest, purl, world => do
      if param.processing then
        if param.errorCnt > 0 then
          if param.skipCnt < param.errorCnt then
            let walk ← walkBehind env address ctx rest purl world
            some
              { walk with monitors := { param with skipCnt := param.skipCnt + 1 } :: walk.monitors }
          else
            let world := world.malloc (.failedMonitor ⟨ctx.refreshPointId, ctx.monitorId⟩)
            -- the handler is given the context of the flow
            let request : PublishRequest :=
              ⟨purl, ctx.payloadFmt, ctx.payload, coapPost, ctx.query,
                some (.failedMonitor, address)⟩
            -- a handler that is called at once frees it under the walk
            if env.refuses world.requests.length then none
            else
              let world ← (world.recordRetry ctx.refreshPointId param ctx.url request).sendRequest
                env request
              let walk ← walkBehind env address ctx rest purl world
              some { walk with monitors := { param with skipCnt := 0 } :: walk.monitors }
        else some ⟨param :: rest, some (param, rest.isEmpty), world⟩
      else
        let purl := CString.snprintf purlSize (param.publishPoint ++ ctx.url)
        let world ← world.sendRequest env ⟨some purl, ctx.payloadFmt, ctx.payload, coapPost,
          ctx.query, none⟩
        let walk ← walkBehind env address ctx rest (some purl) world
        some { walk with monitors := param :: walk.monitors }

/-- The walk of `data_processing_response_handler`. -/
def walkFrom (env : PublishEnv) (address : Nat) (ctx : DataProcessingCtx) (answered : Bool) :
    List RefresherPara → PublishWorld → Option Walk
  | [], world => some ⟨[], none, world⟩
  | param :: rest, world => do
      if param.id = ctx.monitorId then
        let walk ← walkBehind env address ctx rest none world
        some { walk with monitors := settleAnswered answered param :: walk.monitors }
      else
        let walk ← walkFrom env address ctx answered rest world
        some { walk with monitors := param :: walk.monitors }

/-- The end of `data_processing_response_handler`, behind the walk: the flow is suspended at the
next monitor that processes the data, unless that is the last one. -/
def proceed (env : PublishEnv) (address : Nat) (ctx : DataProcessingCtx)
    (next : Option (RefresherPara × Bool)) (world : PublishWorld) : Option PublishWorld :=
  match next with
  | none => some (world.free address)
  | some (param, last) => do
      let ctx := { ctx with monitorId := param.id }
      let purl := CString.snprintf purlSize (param.publishPoint ++ ctx.url)
      if last then
        let world ← world.sendRequest env ⟨some purl, ctx.payloadFmt, ctx.payload, coapPost,
          ctx.query, none⟩
        some (world.free address)
      else
        let world := { world with heap := update world.heap address (some (.dataProcessing ctx)) }
        world.sendRequest env ⟨some purl, ctx.payloadFmt, ctx.payload, coapPost, ctx.query,
          some (.dataProcessing, address)⟩

/-- `data_processing_response_handler` -/
def dataProcessingResponseHandler (env : PublishEnv) (address : Nat) (data : Option Answer)
    (world : PublishWorld) : Option PublishWorld := do
  match ← world.heap address with
  | .failedMonitor _ => none
  | .dataProcessing ctx =>
    match world.points ctx.refreshPointId, takeIn ctx data with
    | some point, some ctx =>
      let walk ← walkFrom env address ctx data.isSome point.monitors world
      proceed env address ctx walk.next (walk.world.setMonitors ctx.refreshPointId walk.monitors)
    | _, _ => some (world.free address)

/-- The handler at a place among the pending ones is called. -/
def answer (env : PublishEnv) (index : Nat) (data : Option Answer) (world : PublishWorld) :
    Option PublishWorld :=
  match world.pending[index]? with
  | none => some world
  | some (handler, address) =>
    let world := { world with pending := world.pending.eraseIdx index }
    match handler with
    | .dataProcessing => dataProcessingResponseHandler env address data world
    | .failedMonitor => failedMonitorHandler address data world

/-- No calibration, and requests that can all be sent. -/
def sampleEnv : PublishEnv := ⟨fun _ _ _ => [], .empty, fun _ => false⟩

/-- A monitor at `"m"`. -/
def sampleMonitor (id : UInt32) (processing : Bool) (errorCnt skipCnt : UInt32) : RefresherPara :=
  ⟨id, errorCnt, skipCnt, 0, processing, 30, .ofBytes [0x6D]⟩

/-- A point with monitors, of the device `"d"`. -/
def samplePoint (monitors : List RefresherPara) : RefresherPoint :=
  { RefresherPoint.new (.ofBytes [0x64]) (.ofBytes [0x2F, 0x72]) with monitors := monitors }

/-- One point, with the id 1, and no flow. -/
def sampleWorld (monitors : List RefresherPara) : PublishWorld :=
  ⟨update (fun _ => none) 1 (some (samplePoint monitors)), fun _ => none, 0, [], [], [], []⟩

end PublishWorld

end Idrm.Devices
