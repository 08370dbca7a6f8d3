import Idrm.Bus.RestConvert
import Idrm.Lib.Run

/-!
# Observations of the LwM2M server

A request from
  the bus starts to observe a resource of a client: a record goes to the front of a list,
and `lwm2m_observe` gets it as the user data of its callback. The record is
  released by that callback
when the first report fails, or by the callback of a cancellation,
  which searches the client for an observation
of the resource.

The LwM2M stack reports to an observation until it is cancelled,
  its first report failed or the stack gives it up.
Uses of a record behind its release are recorded; reading goes on with what the record held.
-/

namespace Idrm.Lwm2m

open Idrm.Lib Idrm.Bus

/-! ## Records -/

/-- `obs_user_data_t` -/
structure ObsUserData where
  clientUuid : CString
  uri : CString
  firstReported : Bool
  requestId : Option CString
  requester : Option CString
  publishPoint : Option CString
  lastReport : Int
deriving DecidableEq

/-- The client and the url of a record. -/
def ObsUserData.key (data : ObsUserData) : CString × CString := (data.clientUuid, data.uri)

/-- `lwm2m_observation_t`, with the client it belongs to. -/
structure Observation (U : Type) where
  client : UInt16
  uri : U
  userData : Nat
deriving DecidableEq

/-- `operate_user_data_t` of a cancellation, with the fields as they lie in memory. -/
structure OperateUserData where
  requestId : List UInt8
  requester : List UInt8
deriving DecidableEq

/-- A cancellation on its way. -/
structure Cancellation (U : Type) where
  client : UInt16
  uri : U
  userData : OperateUserData

/-- The list `g_obs_user_data` with the records in memory, which of them were released, and which
were used after that; the observations and the cancellations of the stack; and what was
published. -/
structure ObsState (U : Type) where
  list : List Nat
  heap : Nat → Option ObsUserData
  released : List Nat
  misused : List Nat
  nextPtr : Nat
  observations : List (Observation U)
  cancellations : List (Cancellation U)
  published : List BusMessage

section Records

variable {U : Type}

namespace ObsState

/-- A server without observations. -/
def start : ObsState U := ⟨[], fun _ => none, [], [], 0, [], [], []⟩

/-- A record is read. -/
def read (node : Nat) (state : ObsState U) : Option (ObsUserData × ObsState U) :=
  (state.heap node).map fun data =>
    (data, if node ∈ state.released then
      { state with misused := state.misused ++ [node] } else state)

/-- A record is changed. -/
def write (node : Nat) (data : ObsUserData) (state : ObsState U) : ObsState U :=
  { state with heap := Function.update state.heap node (some data) }

/-- `publish_message_on_broker` -/
def publish (message : BusMessage) (state : ObsState U) : ObsState U :=
  { state with published := state.published ++ [message] }

/-- The loop of `find_obs_user_data` -/
def findFrom (ep url : CString) : List Nat → ObsState U → Option (Option Nat × ObsState U)
  | [], state => some (none, state)
  | node :: rest, state => do
      let (data, state) ← state.read node
      if ep = data.clientUuid ∧ url = data.uri then some (some node, state)
        else findFrom ep url rest state

/-- `find_obs_user_data` -/
def findObsUserData (ep url : CString) (state : ObsState U) : Option (Option Nat × ObsState U) :=
  findFrom ep url state.list state

/-- The loop of `remove_obs_user_data`, with the list that is left. -/
def removeFrom (node : Nat) : List Nat → ObsState U → Option (List Nat × ObsState U)
  | [], state => some ([], state)
  | current :: rest, state => do
      let (_, state) ← state.read current
      if node = current then some (rest, state)
      else
        let (left, state) ← removeFrom node rest state
        some (current :: left, state)

/-- `remove_obs_user_data` -/
def removeObsUserData (node : Nat) (state : ObsState U) : Option (ObsState U) := do
  let (list, state) ← removeFrom node state.list state
  some { state with list := list }

/-- `release_obs_user_data` -/
def releaseObsUserData (node : Nat) (state : ObsState U) : Option (ObsState U) := do
  let (_, state) ← state.read node
  some { state with released := node :: state.released }

/-- `new_obs_user_data`, with what the request adds. -/
def newObsUserData (data : ObsUserData) (state : ObsState U) : ObsState U :=
  { state with
    list := state.nextPtr :: state.list
    heap := Function.update state.heap state.nextPtr (some data)
    nextPtr := state.nextPtr + 1 }

end ObsState

/-! ## Reports -/

/-- What the stack reports, and which allocations of the callback succeed: the property map of the
response with its tag, the rest of the response, and the report. -/
structure Notification where
  count : Int32
  format : Int32
  data : Option (List UInt8)
  time : Int
  allocatesMap : Bool
  allocatesResponse : Bool
  allocatesReport : Bool

/-- `COAP_205_CONTENT` -/
def coap205Content : Int32 := 69

/-- `"/dp/lwm2m/"` -/
def dpLwm2m : CString := ⟨[0x2F, 0x64, 0x70, 0x2F, 0x6C, 0x77, 0x6D, 0x32, 0x6D, 0x2F], by decide⟩
/-- `"/lwm2m/"` -/
def lwm2mSlash : CString := ⟨[0x2F, 0x6C, 0x77, 0x6D, 0x32, 0x6D, 0x2F], by decide⟩
/-- `"/"` -/
def slash : CString := .ofBytes [0x2F]

/-- The response to the requester. -/
def firstResponse (notification : Notification) (mid dest : CString) : BusMessage :=
  let properties : Properties := fun _ => none
  let properties := properties.addOrUpdate .tag tagRestResp
  let properties := properties.addOrUpdate .mid mid
  let properties := properties.addOrUpdate .dest dest
  let properties := properties.addOrUpdate .fmt (restFmtStr notification.format)
  let code := if notification.count = 0 then coap205Content else notification.count
  ⟨properties.addOrUpdate .respCode (decimal code.toInt), []⟩

/-- The url of a report. -/
def reportUrl (data : ObsUserData) : CString :=
  match data.publishPoint with
  | none => dpLwm2m ++ data.clientUuid ++ data.uri
  | some point =>
    let front := if point.bytes.head? = some 0x2F then point else slash ++ point
    front ++ lwm2mSlash ++ data.clientUuid ++ data.uri

/-- The report: an event, or a request to the publish point. -/
def report (notification : Notification) (data : ObsUserData) : BusMessage :=
  let properties : Properties := fun _ => none
  let properties := properties.addOrUpdate .fmt (restFmtStr notification.format)
  let properties := properties.addOrUpdate .uri (reportUrl data)
  let properties := properties.addIf data.publishPoint.isSome .action (restActionStr 2)
  ⟨properties.addOrUpdate .tag (if data.publishPoint.isSome then tagRestReq else tagEvent),
    notification.data.getD []⟩

section Callbacks

variable [DecidableEq U]

/-- The end of `obs_notify_callback`: the report. `none` is a url that does not fit. -/
def reportData (notification : Notification) (node : Nat) (state : ObsState U) :
    Option (ObsState U) :=
  if notification.allocatesReport = false then some state
  else do
    let (data, state) ← state.read node
    if 256 ≤ (reportUrl data).bytes.length then none
    else some ((state.publish (report notification data)).write node
      { data with lastReport := notification.time })

/-- What the first report makes of the record: a failed one takes it out of the list and releases
it. -/
def settleFirst (notification : Notification) (node : Nat) (data : ObsUserData)
    (state : ObsState U) : Option (ObsState U) :=
  if notification.data.isNone then (state.removeObsUserData node).bind (·.releaseObsUserData node)
  else some (state.write node { data with firstReported := true })

/-- The part of `obs_notify_callback` for the first report. `false` is its `goto end`. -/
def reportFirst (notification : Notification) (node : Nat) (data : ObsUserData)
    (state : ObsState U) : Option (Bool × ObsState U) := do
  let state ← settleFirst notification node data state
  if notification.allocatesMap = false then some (false, state)
  else
    -- The record is read whether or not it was just released.
    let (data, state) ← state.read node
    match data.requestId, data.requester with
    | some mid, some dest =>
      if notification.allocatesResponse then
        some (true, state.publish (firstResponse notification mid dest))
      else some (false, state)
    | _, _ => some (false, state)

/-- `obs_notify_callback` -/
def obsNotifyCallback (notification : Notification) (node : Nat) (state : ObsState U) :
    Option (ObsState U) := do
  let (data, state) ← state.read node
  if data.firstReported then reportData notification node state
  else
    let (goesOn, state) ← reportFirst notification node data state
    if goesOn then reportData notification node state else some state

/-- The result of a cancellation: whether the client is still there, and whether the response can be
allocated. -/
structure CancelResult where
  status : Int32
  format : Int32
  data : Option (List UInt8)
  clientFound : Bool
  allocates : Bool

/-- The first observation of a client under an uri, as `prv_findObservationByURI` finds it. -/
def findObservation (client : UInt16) (uri : U) (state : ObsState U) : Option Nat :=
  state.observations.findIdx? fun observation => observation.client = client ∧ observation.uri = uri

/-- `strncpy` into a field. -/
def strncpy (size : Nat) (text : CString) : List UInt8 :=
  text.bytes.take size ++ List.replicate (size - text.bytes.length) 0

/-- The response to a cancellation; `none` is a requester without its terminator. A request id
without one goes on in the requester. -/
def cancelResponse (result : CancelResult) (userData : OperateUserData) : Option BusMessage := do
  let (mid, _) ← CString.read (userData.requestId ++ userData.requester)
  let (dest, _) ← CString.read userData.requester
  let properties : Properties := fun _ => none
  let properties := properties.addOrUpdate .tag tagRestResp
  let properties := properties.addOrUpdate .mid mid
  let properties := properties.addOrUpdate .dest dest
  let properties := properties.addOrUpdate .fmt (decimal result.format.toInt)
  some ⟨properties.addOrUpdate .respCode (decimal result.status.toInt), result.data.getD []⟩

/-- The part of `request_result_callback` that releases the record of the observation it finds. -/
def releaseFound (cancellation : Cancellation U) (clientFound : Bool) (state : ObsState U) :
    Option (ObsState U) :=
  if clientFound then
    match (findObservation cancellation.client cancellation.uri state).bind
      (state.observations[·]?) with
    | none => some state
    | some observation => (state.removeObsUserData observation.userData).bind
        (·.releaseObsUserData observation.userData)
  else some state

/-- `request_result_callback` of a cancellation -/
def requestResultCallback (cancellation : Cancellation U) (result : CancelResult)
    (state : ObsState U) : Option (ObsState U) := do
  let state ← releaseFound cancellation result.clientFound state
  if result.allocates then
    (cancelResponse result cancellation.userData).map state.publish else some state

/-! ## Requests -/

/-- A request to observe a resource or to stop that, as `check_bus_message` has read it. -/
structure ObsRequest (U : Type) where
  client : UInt16
  name : CString
  uriStr : CString
  uri : U
  obs : CString
  src : Option CString
  mid : CString
  publish : Option CString

/-- `"1"` or `"true"` -/
def ObsRequest.starts (request : ObsRequest U) : Bool :=
  request.obs = .ofBytes [0x31] || request.obs = .ofBytes [0x74, 0x72, 0x75, 0x65]

/-- The record of a request. -/
def ObsRequest.userData (request : ObsRequest U) : ObsUserData where
  clientUuid := request.name
  uri := request.uriStr
  firstReported := false
  requestId := some request.mid
  requester := request.src
  publishPoint := request.publish
  lastReport := 0

/-- The branch of `check_bus_message` for observations. `answer` is what the stack makes of the
call: a place among the observations, or an error. `none` is a copy from `NULL`. -/
def checkBusMessage (request : ObsRequest U) (answer : Option Nat) (state : ObsState U) :
    Option (ObsState U) := do
  -- The record that is found is not used.
  let (_, state) ← state.findObsUserData request.name request.uriStr
  if request.starts then
    let node := state.nextPtr
    let state := state.newObsUserData request.userData
    match answer with
    | none => some state
    | some place => some { state with
        observations := state.observations.insertIdx place ⟨request.client, request.uri, node⟩ }
  else
    let src ← request.src
    let userData : OperateUserData := ⟨strncpy 20 request.mid, strncpy 100 src⟩
    if answer.isSome then
      some { state with
        cancellations := state.cancellations ++ [⟨request.client, request.uri, userData⟩] }
    else some state

/-! ## Runs -/

/-- What happens to the server. -/
inductive ObsEvent (U : Type) where
  | request (request : ObsRequest U) (answer : Option Nat)
  /-- The stack reports to an observation. -/
  | notify (index : Nat) (notification : Notification)
  /-- The stack is done with a cancellation, of an observation that is still there or not. -/
  | cancelled (index : Nat) (observation : Option Nat) (result : CancelResult)
  /-- The stack gives an observation up without a word. -/
  | forget (index : Nat)

/-- The first report to the observation fails, which ends it. -/
def FirstFails (notification : Notification) (node : Nat) (state : ObsState U) : Prop :=
  notification.data = none ∧ (state.heap node).any (·.firstReported) = false

instance (notification : Notification) (node : Nat) (state : ObsState U) :
    Decidable (FirstFails notification node state) :=
  inferInstanceAs (Decidable (_ ∧ _))

/-- One event. A cancellation is of an observation of its client under its uri. -/
def perform : ObsEvent U → ObsState U → Option (ObsState U)
  | .request request answer, state => checkBusMessage request answer state
  | .notify index notification, state => do
      let observation ← state.observations[index]?
      let after ← obsNotifyCallback notification observation.userData state
      if FirstFails notification observation.userData state then
        some { after with observations := after.observations.eraseIdx index }
      else some after
  | .cancelled index observation result, state => do
      let cancellation ← state.cancellations[index]?
      let after ← requestResultCallback cancellation result state
      let after := { after with cancellations := after.cancellations.eraseIdx index }
      match observation with
      | none => some after
      | some place => do
          let cancelled ← state.observations[place]?
          if cancelled.client = cancellation.client ∧ cancelled.uri = cancellation.uri then
            some { after with observations := after.observations.eraseIdx place }
          else none
  | .forget index, state => some { state with observations := state.observations.eraseIdx index }

end Callbacks

end Records

end Idrm.Lwm2m
