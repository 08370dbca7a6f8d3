import Idrm.Devices.ClientManager
import Mathlib.Data.List.Perm.Basic

/-!
# Refresher points

A refresher point reads one resource of a device for its monitors. Points of devices that
are known stand in the active list, in the order of their expiry; the others wait. The
lists hold addresses, so that a point that is destroyed may still be listed; whoever
follows such an address, and whoever fails an assertion, has no result.

Reading and publishing are left to the caller: an event brings the clock and what
`ReadRefreshPoint` returns.
-/

namespace Idrm.Devices

open Idrm.Lib

/-- `CRefresherPara` -/
structure RefresherPara where
  id : UInt32
  errorCnt : UInt32
  skipCnt : UInt32
  sequence : Int32
  processing : Bool
  minDuration : Int32
  publishPoint : CString
deriving DecidableEq

/-- `m_observe` -/
inductive ObserveState where
  | none
  | inProgress
  | success
  | failed
deriving DecidableEq

/-- `CRefresherPoint`. Only one refresher exists, so that `hasParent` is all there is to
`m_parent_refresher`. -/
structure RefresherPoint where
  flagged : Bool
  valExpiry : UInt64
  hasParent : Bool
  readInProgress : Bool
  lastReadTime : UInt64
  readFails : Int32
  lastNotified : UInt32
  observe : ObserveState
  valueLifetime : Int32
  waiting : Bool
  clientId : CString
  resourceUrl : CString
  associatedResource : Option (Nat × CString)
  resProperty : CString
  monitors : List RefresherPara
deriving DecidableEq

namespace RefresherPoint

/-- The constructor `CRefresherPoint`. -/
def new (device resource : CString) : RefresherPoint where
  flagged := false
  valExpiry := 0
  hasParent := false
  readInProgress := false
  lastReadTime := 0
  readFails := 0
  lastNotified := 0
  observe := .none
  valueLifetime := 30
  waiting := true
  clientId := device
  resourceUrl := resource
  associatedResource := none
  resProperty := .empty
  monitors := []

/-- The least duration of some monitors. -/
def leastDuration (monitors : List RefresherPara) : Int32 :=
  monitors.foldl (fun least monitor => if monitor.minDuration < least then monitor.minDuration
    else least) 0x7FFFFFFF

/-- `MergeParameters` -/
def mergeParameters (point : RefresherPoint) : RefresherPoint :=
  { point with valueLifetime := leastDuration point.monitors }

/-- `FindMonitor` with removal: the first monitor for a publish point goes. -/
def removeMonitor (purl : CString) (point : RefresherPoint) : RefresherPoint :=
  if point.monitors.any (·.publishPoint = purl) then
    mergeParameters { point with monitors := point.monitors.eraseP (·.publishPoint = purl) }
  else point

/-- `fresher_para_t` -/
structure FresherPara where
  publishPoint : CString
  minDuration : Int32
  process : Bool
  sequence : Int32

/-- A monitor is put before the first one of a smaller sequence. -/
def insertMonitor (monitor : RefresherPara) : List RefresherPara → List RefresherPara
  | [] => [monitor]
  | other :: rest =>
    if other.sequence < monitor.sequence then monitor :: other :: rest
      else other :: insertMonitor monitor rest

/-- `AddMonitor`; `id` is the next of `g_refresher_monitor_id`. -/
def addMonitor (id : UInt32) (para : FresherPara) (point : RefresherPoint) : RefresherPoint :=
  let point := point.removeMonitor para.publishPoint
  let monitor : RefresherPara :=
    ⟨id, 0, 0, para.sequence, para.process, para.minDuration, para.publishPoint⟩
  let point := { point with monitors := insertMonitor monitor point.monitors }
  let point := if 0 < para.minDuration then mergeParameters point else point
  { point with flagged := false }

/-- The resource of a device that the point reads. -/
def associate (client : Client) (point : RefresherPoint) : RefresherPoint :=
  match client.urlMatchResource point.resourceUrl with
  | none => { point with associatedResource := none }
  | some (resource, property) =>
    { point with
      associatedResource := some (client.id, resource.url)
      resProperty := property.getD point.resProperty }

/-- The expiry that `SetExpiry` sets when it is given no timeout. -/
def nextExpiry (now : UInt64) (point : RefresherPoint) : UInt64 :=
  let timeout := if 5 < point.readFails then
      point.valueLifetime + point.valueLifetime * min 10 (point.readFails - 5)
    else point.valueLifetime
  now + timeout.toInt64.toUInt64

end RefresherPoint

/-- `CResRefresher` with the live points and the counters of ids. -/
structure Refresher where
  points : Nat → Option RefresherPoint
  expiredResList : List Nat
  waitingList : List Nat
  newPoint : Nat
  newMonitor : UInt32

namespace Refresher

/-- The refresher of an agent that has just started. -/
def start : Refresher := ⟨fun _ => none, [], [], 0, 0⟩

/-- A live point is written. -/
def setPoint (id : Nat) (point : RefresherPoint) (refresher : Refresher) : Refresher :=
  { refresher with points := Function.update refresher.points id (some point) }

/-- A point in the order of expiry; ties go behind. -/
def insertOrder (refresher : Refresher) (expiry : UInt64) (id : Nat) : List Nat → Option (List Nat)
  | [] => some [id]
  | other :: rest => do
      let point ← refresher.points other
      if expiry < point.valExpiry then some (id :: other :: rest)
      else (insertOrder refresher expiry id rest).map (other :: ·)

/-- `AddResOrder` -/
def addResOrder (id : Nat) (refresher : Refresher) : Option Refresher := do
  let point ← refresher.points id
  if point.waiting then none
  else
    let list ← insertOrder refresher point.valExpiry id refresher.expiredResList
    some { setPoint id { point with hasParent := true } refresher with expiredResList := list }

/-- `RemoveRes` -/
def removeRes (id : Nat) (refresher : Refresher) : Option Refresher := do
  let point ← refresher.points id
  some { setPoint id { point with hasParent := false } refresher with
    expiredResList := refresher.expiredResList.filter (· ≠ id) }

/-- `delete` of a point; the destructor takes it out of the active list only. -/
def destroy (id : Nat) (refresher : Refresher) : Option Refresher := do
  let point ← refresher.points id
  let list := if point.hasParent then refresher.expiredResList.filter (· ≠ id)
    else refresher.expiredResList
  some { refresher with points := Function.update refresher.points id none, expiredResList := list }

/-- `FindRes` in one of the lists; it follows every address up to the one it finds. -/
def findRes (refresher : Refresher) (resource device : CString) : List Nat → Option (Option Nat)
  | [] => some none
  | id :: rest => do
      let point ← refresher.points id
      if point.clientId = device ∧ point.resourceUrl = resource then some (some id)
      else findRes refresher resource device rest

/-- `FindRes` in the active list and then in the waiting list. -/
def findPoint (resource device : CString) (refresher : Refresher) : Option (Option Nat) := do
  match ← refresher.findRes resource device refresher.expiredResList with
  | some id => some (some id)
  | none => refresher.findRes resource device refresher.waitingList

/-- `SetExpiry` -/
def setExpiry (now : UInt64) (id : Nat) (refresher : Refresher) : Option Refresher := do
  let point ← refresher.points id
  let refresher := setPoint id { point with valExpiry := point.nextExpiry now } refresher
  if point.waiting then none
  else if point.hasParent then (← refresher.removeRes id).addResOrder id
  else some refresher

/-- `SetExpiry` with a timeout in seconds; without one, `-1`, it goes by the lifetime. -/
def setExpiryTo (timeout : Int32) (now : UInt64) (id : Nat) (refresher : Refresher) :
    Option Refresher := do
  let point ← refresher.points id
  let expiry := if timeout = -1 then point.nextExpiry now else now + timeout.toInt64.toUInt64
  let refresher := setPoint id { point with valExpiry := expiry } refresher
  if point.waiting then none
  else if point.hasParent then (← refresher.removeRes id).addResOrder id
  else some refresher

theorem setExpiryTo_default (now : UInt64) (id : Nat) (refresher : Refresher) :
    refresher.setExpiryTo (-1) now id = refresher.setExpiry now id := rfl

/-- One point of `RunRefresh`'s walk, with those collected so far. -/
def refreshPoint (now : UInt64) (silent : Nat → Bool) (read : Nat → Int32)
    (state : List Nat × Refresher) (id : Nat) : Option (List Nat × Refresher) := do
  let point ← state.2.points id
  if point.readInProgress = false ∧ point.valExpiry ≤ now then
    if now ≤ point.lastReadTime then none
    else
      let observing := point.observe = .none ∨ (point.observe = .success ∧ silent id)
      let point := { point with
        lastReadTime := now
        observe := if observing then .inProgress else point.observe
        readInProgress := if read id = 0 then true else point.readInProgress }
      some (state.1 ++ [id], setPoint id point state.2)
  else some state

/-- `RunRefresh`; `read` is what `ReadRefreshPoint` returns for a point. -/
def runRefresh (now : UInt64) (silent : Nat → Bool) (read : Nat → Int32) (refresher : Refresher) :
    Option Refresher := do
  let (due, refresher) ← refresher.expiredResList.foldlM
    (refreshPoint now silent read) ([], refresher)
  due.foldlM (fun refresher id => refresher.setExpiry now id) refresher

/-- One point of the waiting list while a device goes online. -/
def goOnline (client : Client) (refresher : Refresher) (id : Nat) : Option Refresher := do
  let point ← refresher.points id
  if client.hasId point.clientId then
    let point := { point with valExpiry := 0, waiting := false }.associate client
    addResOrder id
      { setPoint id point refresher with waitingList := refresher.waitingList.erase id }
  else some refresher

/-- One point of the active list while a device goes offline. -/
def goOffline (client : Client) (refresher : Refresher) (id : Nat) : Option Refresher := do
  let point ← refresher.points id
  if client.hasId point.clientId then
    some { setPoint id { point with waiting := true } refresher with
      expiredResList := refresher.expiredResList.erase id
      waitingList := refresher.waitingList ++ [id] }
  else some refresher

/-- `HandleClientStatus` -/
def handleClientStatus (client : Client) (online : Bool) (refresher : Refresher) :
    Option Refresher :=
  if online then refresher.waitingList.foldlM (goOnline client) refresher
  else refresher.expiredResList.foldlM (goOffline client) refresher

/-- A new point goes to the active list if its device is known. -/
def createPoint (directory : Directory) (device resource : CString) (refresher : Refresher) :
    Option (Nat × Refresher) :=
  let id := refresher.newPoint
  let refresher := { refresher with newPoint := id + 1 }
  match directory.findClient device with
  | some client =>
    let point := { (RefresherPoint.new device resource).associate client with waiting := false }
    (addResOrder id (setPoint id point refresher)).map (id, ·)
  | none => some (id, { setPoint id (.new device resource) refresher with
      waitingList := refresher.waitingList ++ [id] })

/-- A monitor is added to a point. -/
def addMonitor (para : RefresherPoint.FresherPara) (id : Nat) (refresher : Refresher) :
    Option Refresher := do
  let point ← refresher.points id
  some { setPoint id (point.addMonitor refresher.newMonitor para) refresher with
    newMonitor := refresher.newMonitor + 1 }

/-- `NewRefresherPoint` -/
def newRefresherPoint (agentId : Option CString) (directory : Directory) (device resource : CString)
    (para : RefresherPoint.FresherPara) (refresher : Refresher) : Option Refresher := do
  let device := Directory.tryUseLocalId agentId device
  match ← refresher.findPoint resource device with
  | some id => refresher.addMonitor para id
  | none =>
    let (id, refresher) ← refresher.createPoint directory device resource
    refresher.addMonitor para id

/-- `DelRefresherPoint` -/
def delRefresherPoint (device resource purl : CString) (refresher : Refresher) :
    Option Refresher := do
  match ← refresher.findPoint resource device with
  | none => some refresher
  | some id =>
    let point ← refresher.points id
    let point := point.removeMonitor purl
    let refresher := setPoint id point refresher
    if point.monitors = [] then (← refresher.removeRes id).destroy id else some refresher

/-- A point is flagged if it belongs to the device. -/
def flagPoint (device : Option CString) (refresher : Refresher) (id : Nat) : Option Refresher := do
  let point ← refresher.points id
  some (if device.all (point.clientId = ·) then
    setPoint id { point with flagged := true } refresher else refresher)

/-- `MarkAllFlagged` -/
def markAllFlagged (device : Option CString) (refresher : Refresher) : Option Refresher := do
  let refresher ← refresher.expiredResList.foldlM (flagPoint device) refresher
  refresher.waitingList.foldlM (flagPoint device) refresher

/-- A flagged point without its monitor for a publish point. -/
def unflag (purl : CString) (point : RefresherPoint) : RefresherPoint :=
  { point with flagged := false }.removeMonitor purl

/-- One point of the active list in `RemoveAllFlagged`. -/
def removeFlagged (purl : CString) (refresher : Refresher) (id : Nat) : Option Refresher := do
  let point ← refresher.points id
  if point.flagged then
    let point := unflag purl point
    let refresher := setPoint id point refresher
    if point.monitors = [] then
      destroy id { refresher with expiredResList := refresher.expiredResList.erase id }
    else some refresher
  else some refresher

/-- The walk of `RemoveAllFlagged` over the waiting list. It steps forward twice in each
round, past the end of a list of odd length, and erases a waiting point from the active
list; neither has a result. -/
def removeFlaggedWaiting (purl : CString) : List Nat → Refresher → Option Refresher
  | [], refresher => some refresher
  | [_], _ => none
  | id :: _ :: rest, refresher => do
      let point ← refresher.points id
      if point.flagged then
        let point := unflag purl point
        if point.monitors = [] then none
        else removeFlaggedWaiting purl rest (setPoint id point refresher)
      else removeFlaggedWaiting purl rest refresher

/-- `RemoveAllFlagged` -/
def removeAllFlagged (purl : CString) (refresher : Refresher) : Option Refresher := do
  let refresher ← refresher.expiredResList.foldlM (removeFlagged purl) refresher
  removeFlaggedWaiting purl refresher.waitingList refresher

/-- `OnDataPoint`; `notified` is the millisecond clock. Publishing is left out: it changes no list,
but a request that is refused at once counts an error of its monitor, and can erase it. -/
def onDataPoint (now : UInt64) (notified : UInt32) (device uri : CString) (payloadLen : Nat)
    (refresher : Refresher) : Option Refresher := do
  match ← refresher.findRes uri device refresher.expiredResList with
  | none => some refresher
  | some id =>
    let point ← refresher.points id
    let point := if payloadLen = 0 then point else { point with lastNotified := notified }
    (setPoint id point refresher).setExpiry now id

/-- The first point of a list that no read is in progress for. -/
def nearExpiry (refresher : Refresher) : List Nat → Option UInt64
  | [] => some (-1)
  | id :: rest => do
      let point ← refresher.points id
      if point.readInProgress then nearExpiry refresher rest else some point.valExpiry

/-- `GetNearExpiry` -/
def getNearExpiry (refresher : Refresher) : Option UInt64 :=
  refresher.nearExpiry refresher.expiredResList

/-- The operations on refresher points. -/
inductive RefresherEvent where
  | newRefresherPoint (agentId : Option CString) (directory : Directory) (device resource : CString)
      (para : RefresherPoint.FresherPara)
  | delRefresherPoint (device resource purl : CString)
  | markAllFlagged (device : Option CString)
  | removeAllFlagged (purl : CString)
  | handleClientStatus (client : Client) (online : Bool)
  | onDataPoint (now : UInt64) (notified : UInt32) (device uri : CString) (payloadLen : Nat)
  | runRefresh (now : UInt64) (silent : Nat → Bool) (read : Nat → Int32)

/-- One operation. -/
def perform : RefresherEvent → Refresher → Option Refresher
  | .newRefresherPoint agentId directory device resource para, refresher =>
    refresher.newRefresherPoint agentId directory device resource para
  | .delRefresherPoint device resource purl, refresher =>
    refresher.delRefresherPoint device resource purl
  | .markAllFlagged device, refresher => refresher.markAllFlagged device
  | .removeAllFlagged purl, refresher => refresher.removeAllFlagged purl
  | .handleClientStatus client online, refresher => refresher.handleClientStatus client online
  | .onDataPoint now notified device uri payloadLen, refresher =>
    refresher.onDataPoint now notified device uri payloadLen
  | .runRefresh now silent read, refresher => refresher.runRefresh now silent read

end Refresher

end Idrm.Devices
