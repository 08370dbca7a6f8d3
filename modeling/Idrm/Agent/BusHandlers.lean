import Idrm.Agent.SendRequest
import Idrm.Agent.BusRequests
import Idrm.Devices.Calibration

/-!
# Handlers of bus messages

`Iagent_Receive` finds the handler of a message, and the handler reads the properties that it
needs. Any of them may be absent. Some handlers test for that, some rely on a test that
`Iagent_Receive` did not make; where neither tests, the value of an absent property is used.

Data comes as a request for the refresher or as an event. Both handlers leave the url to
`parse_iUrl_body`, but only the one for events takes the name of the service off first.
-/

namespace Idrm.Agent

open Idrm.Lib Idrm.Coap Idrm.Bus Idrm.Devices Option

/-! ## Handlers -/

/-- What ends the agent in a handler. -/
inductive Fault where
  /-- The value of a property is used that is absent. -/
  | absent (key : BusKey)
  /-- The length of a payload is taken that was not produced. -/
  | noPayload
  /-- A buffer is written behind its end. -/
  | overflow
deriving DecidableEq

/-- What a handler calls, with the arguments. -/
inductive HandlerCall where
  /-- `bh_feed_response` with the message -/
  | feedResponse (id : UInt32)
  /-- `handle_rd_post` -/
  | rdPost (payload source : CString)
  /-- `handle_rd_delete` -/
  | rdDelete (query : CString)
  /-- `handle_rd_monitor_put` -/
  | rdMonitorPut (payload : Option CString) (purlPrefix : CString)
  /-- `do_rd_monitor_scan` -/
  | rdMonitorScan (monitorId : UInt64)
  /-- `handle_data_observing` -/
  | dataObserving (payload : Option CString) (purlPrefix : CString)
  /-- `OnDataPoint` -/
  | onDataPoint (device uri : CString) (fmt : Int32) (payload : List UInt8)
  /-- `send_bus_request_to_ep` -/
  | busRequestToEp (epname : CString) (message : Packet) (busMsgId : UInt32)
      (srcModule : Option CString)
  /-- `send_bus_request_to_ibroker` -/
  | busRequestToIbroker (message : Packet) (srcModule : Option CString) (tm : CString)
  /-- `publish_message_on_broker` -/
  | publish (message : BusMessage)

/-- The allocations of a handler. -/
inductive Allocation where
  /-- The copy of the payload. -/
  | payload
  /-- The copy of the query and its JSON object. -/
  | query
  /-- The text of the answer. -/
  | answer
  /-- The properties of the response. -/
  | properties
deriving DecidableEq

/-- What the handlers find around them. -/
structure HandlerEnv where
  /-- `get_broker_module_id` -/
  moduleId : CString
  agentId : Option CString
  directory : Directory
  allocates : Allocation → Bool
  /-- The conditions that `handle_rd_get` reads from a query. -/
  conditionsOf : CString → Client.RdQuery
  /-- `json_serialize_to_string` -/
  serialize : List Client.RdReport → CString
  handleRdPost : CString → CString → Bool
  handleRdDelete : CString → Bool
  handleRdMonitorPut : Option CString → CString → Int32
  handleDataObserving : Option CString → CString → Int32
  fmtCalibrateSupported : Int32 → Bool
  calibrateProperty : ResObject → CString → Int32 → List UInt8 → List UInt8
  findRestfulService : CString → Bool
  /-- The packet in the buffer for the response once a service was asked, if it can be parsed. -/
  served : Packet → Option Packet

/-- The value of a property, where it is used without a test. -/
def valueOf (properties : Properties) (key : BusKey) : Except Fault CString :=
  match properties key with
  | none => .error (.absent key)
  | some value => .ok value

theorem valueOf_bind {properties : Properties} {key : BusKey} {value : CString}
    (present : properties key = some value) {A : Type} (next : CString → Except Fault A) :
    (valueOf properties key >>= next) = next value := by
  rw [valueOf, present]
  rfl

/-- `DELETED_2_02` -/
def deleted202 : UInt8 := 66
/-- `IA_TEXT_PLAIN` -/
def iaTextPlain : Int32 := 0
/-- `IA_APPLICATION_JSON` -/
def iaApplicationJson : Int32 := 50
/-- `"gwbus://"` -/
def gwbusMark : CString := ⟨[0x67, 0x77, 0x62, 0x75, 0x73, 0x3A, 0x2F, 0x2F], by decide⟩
/-- `"module/"` -/
def moduleSlash : CString := ⟨[0x6D, 0x6F, 0x64, 0x75, 0x6C, 0x65, 0x2F], by decide⟩
/-- `"unknown"` -/
def unknownSource : CString := .ofBytes [0x75, 0x6E, 0x6B, 0x6E, 0x6F, 0x77, 0x6E]
/-- `"/refresher/"` -/
def refresherSlash : List UInt8 := busRefresher ++ [0x2F]

/-- The publish url of a module, in a buffer of 256 bytes. -/
def purlPrefix (src : Option CString) : Except Fault CString :=
  match src with
  | none => .ok .empty
  | some src =>
    let text := gwbusMark ++ moduleSlash ++ src ++ SendRequest.slashString
    if text.bytes.length < 256 then .ok text else .error .overflow

section Handlers

variable (env : HandlerEnv) (message : BusMessage)

/-- `get_payload` -/
def getPayload : Option CString :=
  if message.content = [] ∨ env.allocates .payload = false then none
    else some (.ofBytes message.content)

/-- The response to a message. `Map_AddOrUpdate` refuses the value of an absent property. -/
def respond (fmt : Int32) (code : UInt8) (payload : List UInt8) : List HandlerCall :=
  if env.allocates .properties then
    let response := setupBusRestfulMessage env.moduleId tagRestResp fmt none none code.toNat payload
    let properties := response.properties.addGiven .mid (message.properties .mid)
    [.publish { response with properties := properties.addGiven .dest (message.properties .src) }]
  else []

/-- The response with the id of a monitor; `-1` is an error. -/
def respondId (id : Int32) : List HandlerCall :=
  if id = -1 then respond env message (-1) badRequest400 []
  else respond env message iaTextPlain changed204 (decimal id.toInt).terminated

/-- `handle_bus_rd_event` -/
def handleBusRdEvent : List HandlerCall :=
  let source := CString.snprintf 200 (gwbusMark ++ (message.properties .src).getD unknownSource)
  match getPayload env message with
  | none => respond env message (-1) notImplemented501 []
  | some payload =>
    .rdPost payload source :: respond env message (-1) (if env.handleRdPost payload source then
      content205 else notImplemented501) []

/-- `handle_rd_get` -/
def handleRdGet (query : Option CString) : Option CString :=
  if query.isSome ∧ env.allocates .query = false then none
  else if env.allocates .answer = false then none
  else some
    (env.serialize (env.directory.handleRdGet env.agentId (query.map env.conditionsOf) true))

/-- `handle_bus_rd_get`; `strlen` is taken of a payload that may be `NULL`. -/
def handleBusRdGet : Except Fault (List HandlerCall) :=
  match handleRdGet env (message.properties .query) with
  | none => .error .noPayload
  | some payload => .ok (respond env message iaApplicationJson content205 payload.bytes)

/-- `handle_bus_rd_delete` -/
def handleBusRdDelete : List HandlerCall :=
  match message.properties .query with
  | none => respond env message iaApplicationJson notFound404 []
  | some query =>
    .rdDelete query :: respond env message iaApplicationJson
      (if env.handleRdDelete query then deleted202 else notFound404) []

/-- `handle_bus_rd_monitor_post` -/
def handleBusRdMonitorPost : Except Fault (List HandlerCall) := do
  let purl ← purlPrefix (message.properties .src)
  let payload := getPayload env message
  let id := env.handleRdMonitorPut payload purl
  let scan := if id = -1 ∨ env.allocates .properties = false then []
    else [.rdMonitorScan id.toInt64.toUInt64]
  .ok (.rdMonitorPut payload purl :: respondId env message id ++ scan)

/-- `handle_bus_calibration`; the format is always 1. -/
def handleBusCalibration : Except Fault (List HandlerCall) := do
  let action ← valueOf message.properties .action
  if action = restActionStr 2 then
    let uri ← valueOf message.properties .uri
    let payload :=
      calibrate env.fmtCalibrateSupported env.calibrateProperty env.directory uri 1 message.content
    .ok (respond env message (-1) (if payload = [] then notImplemented501 else content205) payload)
  else .ok []

/-- Data under a url. -/
def reportData (uri fmt : CString) (content : List UInt8) : List HandlerCall :=
  match SendRequest.parseIUrlBody uri with
  | none => []
  | some url => [.onDataPoint url.device url.resUri (atoi fmt) content]

/-- The branch of `handle_refresher_data` for `POST` -/
def refresherPost : List HandlerCall :=
  match message.properties .uri, message.properties .fmt with
  | some uri, some fmt => reportData uri fmt message.content
  | _, _ => []

/-- `handle_refresher_data`. The message of its last branch has no property map, and
`Message_Create` refuses it. -/
def handleRefresherData : Except Fault (List HandlerCall) := do
  let action ← valueOf message.properties .action
  if action = restActionStr 3 then
    let purl ← purlPrefix (message.properties .src)
    let payload := getPayload env message
    .ok (.dataObserving payload purl ::
      respondId env message (env.handleDataObserving payload purl))
  else if action = restActionStr 2 then .ok (refresherPost message)
  else .ok []

/-- `handle_data_point` -/
def handleDataPoint : List HandlerCall :=
  match message.properties .uri, message.properties .fmt with
  | some uri, some fmt =>
    if refresherSlash <+: uri.bytes then reportData (uri.drop 11) fmt message.content
    else if busDp <+: uri.bytes then reportData (uri.drop 4) fmt message.content
    else []
  | _, _ => []

/-- `handle_bus_endpoint` -/
def handleBusEndpoint (epname url : CString) (id : UInt32) (src : Option CString) :
    List HandlerCall :=
  match convertBusMsgToCoap message with
  | none => []
  | some packet => [.busRequestToEp epname (coapSetHeaderUriPath url packet) id src]

/-- `handle_bus_ibroker`; `vheader_set_value_s` copies the time. -/
def handleIbroker (url : CString) (src tm : Option CString) : Except Fault (List HandlerCall) :=
  match convertBusMsgToCoap message with
  | none => .ok []
  | some packet =>
    match tm with
    | none => .error (.absent .tm)
    | some tm => .ok [.busRequestToIbroker (coapSetHeaderUriPath url packet) src tm]

/-- `handle_bus_default` -/
def handleBusDefault : Except Fault (List HandlerCall) :=
  match convertBusMsgToCoap message with
  | none => .ok []
  | some packet =>
    match env.served packet with
    | none => .ok []
    | some response => do
        let mid ← valueOf message.properties .mid
        let answer := coapToBusMsg env.moduleId response (atoi mid).toInt64.toUInt64
          (message.properties .src)
        .ok (if env.allocates .properties then [.publish answer] else [])

/-- The handler of a message. -/
def runTask : AgentTask → Except Fault (List HandlerCall)
  | .ignored => .ok []
  | .response id => .ok [.feedResponse id]
  | .rdEvent => .ok (handleBusRdEvent env message)
  | .rdMonitorPost => handleBusRdMonitorPost env message
  | .rdGet => handleBusRdGet env message
  | .rdDelete => .ok (handleBusRdDelete env message)
  | .dataPoint => .ok (handleDataPoint message)
  | .calibration => handleBusCalibration env message
  | .refresherData => handleRefresherData env message
  | .endpoint epname url id src => .ok (handleBusEndpoint message epname url id src)
  | .ibroker url src tm => handleIbroker message url src tm
  | .service => if (message.properties .uri).any env.findRestfulService then
      handleBusDefault env message else .ok []

/-- The handler that was found. `Iagent_Receive` compares the target of a response and the action of
a request. -/
def runFound : Option AgentTask → Except Fault (List HandlerCall)
  | none => .error (.absent (if message.properties .tag = some tagRestResp then .dest else .action))
  | some task => runTask env message task

/-- `Iagent_Receive` with the handler. -/
def receiveAndHandle : Except Fault (List HandlerCall) :=
  runFound env message (iagentReceive message)

end Handlers

/-! ## What is missing -/

/-- No absent property and no payload that was not produced is used. -/
def NothingMissing (outcome : Except Fault (List HandlerCall)) : Prop :=
  ∀ fault, outcome = .error fault → fault = .overflow

/-- What a request needs under its url. -/
structure CompleteRequest (env : HandlerEnv) (message : BusMessage) (uri : CString) : Prop where
  action : Url.checkUrlStart uri.bytes busRd ≠ 0 ∨ Url.checkUrlStart uri.bytes busCal ≠ 0 ∨
    Url.checkUrlStart uri.bytes busRefresher ≠ 0 → (message.properties .action).isSome
  /-- The directory is only read with memory for the query and the answer. -/
  answer : Url.checkUrlStart uri.bytes busRd ≠ 0 →
    message.properties .action = some (restActionStr 1) →
    ((message.properties .query).isSome → env.allocates .query = true) ∧
    env.allocates .answer = true
  time : Url.checkUrlStart uri.bytes busIbroker ≠ 0 → (convertBusMsgToCoap message).isSome →
    (message.properties .tm).isSome

/-- A request that the agent takes: one with an id and a url, to the agent or to all. -/
structure Taken (message : BusMessage) (uri mid : CString) : Prop where
  own : ∀ dest ∈ message.properties .dest, dest = moduleAgent
  request : message.properties .tag = some tagRestReq
  mid : message.properties .mid = some mid
  uri : message.properties .uri = some uri

/-- A response names its target, and a request that the agent takes has what it needs. -/
structure Complete (env : HandlerEnv) (message : BusMessage) : Prop where
  response : message.properties .tag = some tagRestResp → (message.properties .dest).isSome
  request : ∀ uri mid, Taken message uri mid → CompleteRequest env message uri

section Missing

variable {env : HandlerEnv} {message : BusMessage} {uri : CString}

@[simp] theorem nothingMissing_ok (calls : List HandlerCall) : NothingMissing (.ok calls) :=
  fun _ failed => nomatch failed

@[simp] theorem nothingMissing_error_iff {fault : Fault} : NothingMissing (.error fault) ↔
    fault = .overflow :=
  ⟨fun only => only fault rfl, fun overflow _ failed => (Except.error.inj failed) ▸ overflow⟩

variable {next : CString → Except Fault (List HandlerCall)}

/-- What follows on a property that is used needs it. -/
theorem nothingMissing_valueOf {key : BusKey}
    (goesOn : ∀ value ∈ message.properties key, NothingMissing (next value)) :
    NothingMissing (valueOf message.properties key >>= next) ↔ (message.properties key).isSome := by
  cases present : message.properties key with
  | none =>
    rw [valueOf, present]
    refine iff_of_false (fun nothing => ?_) (by simp)
    cases nothing _ rfl
  | some value =>
    rw [valueOf_bind present]
    exact iff_of_true (goesOn value present) rfl

/-- The publish url of a module fails by its length only. -/
theorem nothingMissing_purlPrefix {src : Option CString}
    (goesOn : ∀ purl, NothingMissing (next purl)) : NothingMissing (purlPrefix src >>= next) := by
  unfold purlPrefix
  cases src with
  | none => exact goesOn _
  | some src =>
    simp only
    split
    · exact goesOn _
    · exact nothingMissing_error_iff.mpr rfl

theorem nothingMissing_rdMonitorPost : NothingMissing (handleBusRdMonitorPost env message) :=
  nothingMissing_purlPrefix fun _ => nothingMissing_ok _

theorem nothingMissing_rdGet_iff : NothingMissing (handleBusRdGet env message) ↔
    ((message.properties .query).isSome → env.allocates .query = true) ∧
    env.allocates .answer = true := by
  unfold handleBusRdGet handleRdGet
  by_cases copied : (message.properties .query).isSome ∧ env.allocates .query = false
  · rw [if_pos copied]
    refine iff_of_false (by simp) fun enough => ?_
    rw [enough.1 copied.1] at copied
    cases copied.2
  · rw [if_neg copied]
    by_cases written : env.allocates .answer = false
    · rw [if_pos written]
      refine iff_of_false (by simp) fun enough => ?_
      rw [enough.2] at written
      cases written
    · rw [if_neg written]
      refine iff_of_true (nothingMissing_ok _) ⟨fun given => ?_, by simpa using written⟩
      by_contra refused
      exact copied ⟨given, by simpa using refused⟩

theorem nothingMissing_calibration_iff (named : message.properties .uri = some uri) :
    NothingMissing (handleBusCalibration env message) ↔ (message.properties .action).isSome := by
  refine nothingMissing_valueOf fun action _ => ?_
  by_cases post : action = restActionStr 2
  · rw [if_pos post, nothingMissing_valueOf fun _ _ => nothingMissing_ok _, named]
    rfl
  · rw [if_neg post]
    exact nothingMissing_ok _

theorem nothingMissing_refresherData_iff :
    NothingMissing (handleRefresherData env message) ↔ (message.properties .action).isSome := by
  refine nothingMissing_valueOf fun action _ => ?_
  split
  · exact nothingMissing_purlPrefix fun _ => nothingMissing_ok _
  · split
    · exact nothingMissing_ok _
    · exact nothingMissing_ok _

theorem nothingMissing_ibroker_iff {url : CString} {src : Option CString} :
    NothingMissing (handleIbroker message url src (message.properties .tm)) ↔
      ((convertBusMsgToCoap message).isSome → (message.properties .tm).isSome) := by
  unfold handleIbroker
  cases convertBusMsgToCoap message with
  | none => simp
  | some packet => cases message.properties .tm <;> simp

theorem nothingMissing_default (given : (message.properties .mid).isSome) :
    NothingMissing (handleBusDefault env message) := by
  unfold handleBusDefault
  split
  · exact nothingMissing_ok _
  · split
    · exact nothingMissing_ok _
    · exact (nothingMissing_valueOf fun _ _ => nothingMissing_ok _).mpr given

/-- A request for the directory needs memory where it reads, whatever else its action is. -/
theorem nothingMissing_rdTask_iff {action : CString} :
    NothingMissing (runTask env message (rdTask uri action)) ↔
    (action = restActionStr 1 → ((message.properties .query).isSome → env.allocates .query = true) ∧
      env.allocates .answer = true) := by
  have postOrPut : restActionStr 2 ≠ restActionStr 1 ∧
    restActionStr 3 ≠ restActionStr 1 := by decide
  unfold rdTask
  split
  · rename_i monitor
    exact iff_of_true nothingMissing_rdMonitorPost fun isGet => absurd
      (monitor.2.symm.trans isGet) postOrPut.1
  · split
    · rename_i event
      refine iff_of_true (nothingMissing_ok _) fun isGet => ?_
      rcases event with post | put
      · exact absurd (post.symm.trans isGet) postOrPut.1
      · exact absurd (put.symm.trans isGet) postOrPut.2
    · split
      · rename_i isGet
        exact nothingMissing_rdGet_iff.trans ⟨fun enough _ => enough, fun enough => enough isGet⟩
      · rename_i other
        have nothing : NothingMissing
            (runTask env message (if action = restActionStr 4 then .rdDelete else .ignored)) := by
          split
          · exact nothingMissing_ok _
          · exact nothingMissing_ok _
        exact iff_of_true nothing fun isGet => absurd isGet other

/-- The other urls are no urls of the cloud. -/
theorem apart_ibroker {leading : List UInt8}
    (member : leading ∈ [busRd, busCal, busRefresher, busEp])
    (starts : Url.checkUrlStart uri.bytes leading ≠ 0) :
    Url.checkUrlStart uri.bytes busIbroker = 0 := by
  have heads : ∀ leading ∈ [busRd, busCal, busRefresher, busEp],
    Url.stripSlash (Url.skipSlash leading) ≠ [] ∧ (Url.stripSlash (Url.skipSlash leading)).head? ≠
    (Url.stripSlash (Url.skipSlash busIbroker)).head? := by decide
  obtain ⟨stem, different⟩ := heads leading member
  refine Url.checkUrlStart_other (by decide) fun isIbroker => ?_
  exact starts (Url.checkUrlStart_other stem fun same => different (same.symm.trans isIbroker))

/-- What a request needs. -/
theorem nothingMissing_requestTask_iff (named : message.properties .uri = some uri)
    (given : (message.properties .mid).isSome)
    (id : UInt32) : NothingMissing (runFound env message (requestTask message.properties uri id)) ↔
    CompleteRequest env message uri := by
  unfold requestTask
  by_cases rd : Url.checkUrlStart uri.bytes busRd ≠ 0
  · have notCloud := apart_ibroker (by simp) rd
    rw [if_pos rd]
    cases acts : message.properties .action with
    | none =>
      refine iff_of_false (fun nothing => ?_) fun complete => ?_
      · have overflow := nothing _ rfl
        split at overflow
        · cases overflow
        · cases overflow
      · have present := complete.action (.inl rd)
        rw [acts] at present
        cases present
    | some action =>
      refine nothingMissing_rdTask_iff.trans
        ⟨fun enough => ⟨fun _ => by rw [acts]; rfl, fun _ isGet => ?_, ?_⟩, ?_⟩
      · exact enough (some.inj (acts.symm.trans isGet))
      · exact fun starts => absurd notCloud starts
      · exact fun complete isGet => complete.answer rd (acts.trans (congrArg some isGet))
  rw [if_neg rd]
  have needsAction : CompleteRequest env message uri ↔
      (Url.checkUrlStart uri.bytes busCal ≠ 0 ∨ Url.checkUrlStart uri.bytes busRefresher ≠ 0 →
      (message.properties .action).isSome) ∧ (Url.checkUrlStart uri.bytes busIbroker ≠ 0 →
      (convertBusMsgToCoap message).isSome → (message.properties .tm).isSome) :=
    ⟨fun complete => ⟨fun covered => complete.action (.inr covered), complete.time⟩,
      fun complete => ⟨fun covered => complete.1 (covered.resolve_left rd),
      fun starts => absurd starts rd, complete.2⟩⟩
  rw [needsAction]
  by_cases cal : Url.checkUrlStart uri.bytes busCal ≠ 0
  · have notCloud := apart_ibroker (by simp) cal
    rw [if_pos cal]
    refine (nothingMissing_calibration_iff named).trans
      ⟨fun present => ⟨fun _ => present, fun starts => absurd notCloud starts⟩, ?_⟩
    exact fun complete => complete.1 (.inl cal)
  rw [if_neg cal]
  by_cases refresher : Url.checkUrlStart uri.bytes busRefresher ≠ 0
  · have notCloud := apart_ibroker (by simp) refresher
    rw [if_pos refresher]
    refine nothingMissing_refresherData_iff.trans
      ⟨fun present => ⟨fun _ => present, fun starts => absurd notCloud starts⟩, ?_⟩
    exact fun complete => complete.1 (.inr refresher)
  rw [if_neg refresher]
  have noAction : ¬(Url.checkUrlStart uri.bytes busCal ≠ 0 ∨
      Url.checkUrlStart uri.bytes busRefresher ≠ 0) := fun covered =>
    covered.elim cal refresher
  by_cases cloud : Url.checkUrlStart uri.bytes busIbroker ≠ 0
  · have noEndpoint : ¬Url.checkUrlStart uri.bytes busEp ≠ 0 :=
      fun starts => cloud (apart_ibroker (by simp) starts)
    rw [if_neg noEndpoint, if_pos cloud]
    refine nothingMissing_ibroker_iff.trans
      ⟨fun enough => ⟨fun covered => absurd covered noAction, fun _ => enough⟩, ?_⟩
    exact fun complete => complete.2 cloud
  · refine iff_of_true ?_ ⟨fun covered => absurd covered noAction,
      fun starts => absurd starts cloud⟩
    rw [if_neg cloud]
    split
    · unfold endpointTask
      simp only
      split
      · exact nothingMissing_ok _
      · exact nothingMissing_ok _
    · change NothingMissing (if _ then _ else _)
      split
      · exact nothingMissing_default given
      · exact nothingMissing_ok _

/-- A response is only used with a target. -/
theorem nothingMissing_response_iff (response : message.properties .tag = some tagRestResp) :
    NothingMissing (receiveAndHandle env message) ↔ (message.properties .dest).isSome := by
  unfold receiveAndHandle iagentReceive
  simp only [response]
  cases message.properties .dest with
  | none => simp [runFound, response]
  | some dest =>
    refine iff_of_true ?_ rfl
    by_cases own : dest = moduleAgent
    · rw [if_neg (by simpa using own), if_true, map_some]
      split
      · exact nothingMissing_ok _
      · exact nothingMissing_ok _
    · rw [if_pos (by simpa using own)]
      exact nothingMissing_ok _

theorem Taken.receive {mid : CString} (taken : Taken message uri mid) :
    iagentReceive message = requestTask message.properties uri (atoi mid).toUInt32 := by
  have others : tagRestReq ≠ tagRestResp ∧ tagRestReq ≠ tagEvent := by decide
  have own : ¬(message.properties .dest).any (· ≠ moduleAgent) = true := by
    rw [any_eq_true]
    rintro ⟨dest, named, isForeign⟩
    exact of_decide_eq_true isForeign (taken.own dest named)
  unfold iagentReceive
  simp only [taken.request, taken.uri, taken.mid]
  rw [if_neg own, if_neg others.1, if_neg others.2, if_true]

/-- What is neither a response nor taken as a request is an event or ignored. -/
theorem nothingMissing_untaken (noResponse : message.properties .tag ≠ some tagRestResp)
    (untaken : ∀ uri mid, ¬Taken message uri mid) :
    NothingMissing (receiveAndHandle env message) := by
  unfold receiveAndHandle iagentReceive
  simp only
  split
  · exact nothingMissing_ok _
  rename_i own
  split
  · exact nothingMissing_ok _
  rename_i tag tagged
  rw [if_neg fun response => noResponse (tagged.trans (congrArg some response))]
  split
  · exact nothingMissing_ok _
  rename_i uri named
  split
  · split
    · exact nothingMissing_ok _
    · split
      · exact nothingMissing_ok _
      · exact nothingMissing_ok _
  split
  · rename_i request
    split
    · exact nothingMissing_ok _
    · rename_i mid given
      refine absurd ⟨fun dest target => ?_, tagged.trans (congrArg some request), given, named⟩
        (untaken uri mid)
      by_contra foreign
      exact own ((any_eq_true _ _).mpr ⟨dest, target, decide_eq_true foreign⟩)
  · exact nothingMissing_ok _

end Missing

/-- For every message: no absent property and no payload that was not produced is used exactly if a
response names its target, a request for the directory, a calibration or the refresher names its
action, and a request that reads the directory finds memory. -/
theorem receiveAndHandle_nothingMissing_iff (env : HandlerEnv) (message : BusMessage) :
    NothingMissing (receiveAndHandle env message) ↔ Complete env message := by
  by_cases response : message.properties .tag = some tagRestResp
  · have noRequest : ∀ uri mid, ¬Taken message uri mid := fun uri mid taken =>
      absurd (some.inj (response.symm.trans taken.request)) (by decide)
    refine (nothingMissing_response_iff response).trans
      ⟨fun named => ?_, fun complete => complete.response response⟩
    exact ⟨fun _ => named, fun uri mid taken => absurd taken (noRequest uri mid)⟩
  by_cases taken : ∃ uri mid, Taken message uri mid
  · obtain ⟨uri, mid, taken⟩ := taken
    have given : (message.properties .mid).isSome := by
      rw [taken.mid]
      rfl
    rw [receiveAndHandle, taken.receive, nothingMissing_requestTask_iff taken.uri given]
    refine ⟨fun complete => ⟨fun isResponse => absurd isResponse response,
      fun other id again => ?_⟩, fun complete => ?_⟩
    · rwa [← some.inj (taken.uri.symm.trans again.uri)]
    · exact complete.request uri mid taken
  · have untaken : ∀ uri mid, ¬Taken message uri mid :=
      fun uri mid isTaken => taken ⟨uri, mid, isTaken⟩
    refine iff_of_true (nothingMissing_untaken response untaken)
      ⟨fun isResponse => absurd isResponse response, ?_⟩
    exact fun uri mid isTaken => absurd isTaken (untaken uri mid)

/-- Surroundings in which nothing is registered and some allocations succeed. -/
def sampleHandlers (allocates : Allocation → Bool) : HandlerEnv where
  moduleId := moduleAgent
  agentId := none
  directory := .start
  allocates := allocates
  conditionsOf _ := ⟨none, none, none, none, none, none⟩
  serialize _ := ⟨[0x5B, 0x5D], by decide⟩
  handleRdPost _ _ := true
  handleRdDelete _ := true
  handleRdMonitorPut _ _ := 1
  handleDataObserving _ _ := 1
  fmtCalibrateSupported _ := true
  calibrateProperty _ _ _ payload := payload
  findRestfulService _ := false
  served _ := none

/-- A message with some properties and no content. -/
def messageWith (properties : List (BusKey × CString)) : BusMessage :=
  ⟨fun key => properties.lookup key, []⟩

/-- `"/rd/x"`, `"/cal/x"` and `"/refresher"` -/
def actionUrls : List CString :=
  [.ofBytes (busRd ++ [0x78]), .ofBytes (busCal ++ [0x78]), .ofBytes busRefresher]

/-- The target of a response and the action of a request are compared though they are absent, and
the length of the answer is taken though there was no memory to copy the query `"a"`. -/
theorem receiveAndHandle_absent_fails : receiveAndHandle (sampleHandlers fun _ => true)
      (messageWith [(.tag, tagRestResp), (.mid, decimal 7)]) = .error (.absent .dest) ∧
    (∀ url ∈ actionUrls, receiveAndHandle (sampleHandlers fun _ => true) (messageWith
      [(.tag, tagRestReq), (.mid, decimal 7), (.uri, url)]) = .error (.absent .action)) ∧
    receiveAndHandle (sampleHandlers fun allocation => decide (allocation ≠ .query))
      (messageWith [(.tag, tagRestReq), (.mid, decimal 7), (.uri, .ofBytes (busRd ++ [0x78])),
      (.action, restActionStr 1), (.query, .ofBytes [0x61])]) = .error .noPayload := by
  refine ⟨by rfl, ?_, by rfl⟩
  intro url member
  simp only [actionUrls, List.mem_cons, List.not_mem_nil, or_false] at member
  rcases member with rfl | rfl | rfl
  · rfl
  · rfl
  · rfl

end Idrm.Agent
