import Idrm.Devices.Client

/-!
# Monitors of the resource directory

Who asked to be told about devices has a monitor with a query and a publish url. The cloud
has one too, and its reports leave the configuration of the device out. Two scans send
reports: `do_rd_monitor_scan` goes through the devices for one monitor,
`device_rd_monitor_scan` through the monitors for one device.
-/

namespace Idrm.Devices

open Idrm.Lib List

/-- A monitor: its key in the map, the conditions of its query, and `purl`. -/
structure RdMonitor where
  id : UInt64
  query : Client.RdQuery
  purl : CString

/-- `g_rd_monitor_map`, in the order of its keys. -/
structure RdMonitors where
  list : List RdMonitor
  ordered : list.Pairwise fun one other => one.id < other.id

/-- `CLOUD_RD_MONITOR_ID` -/
def cloudRdMonitorId : UInt64 := 0xFFFFFF00

/-- A report on its way. Whether the payload is sent with its terminator and whether a response is
wanted differ between the two scans, and are left out. -/
structure RdSend where
  monitor : UInt64
  purl : CString
  device : Nat
  report : Client.RdReport
deriving DecidableEq

namespace RdMonitor

variable (agentId : Option CString)

/-- The report that is generated for a monitor; the cloud's has no configuration. -/
def report (client : Client) (monitor : RdMonitor) : Option Client.RdReport :=
  client.generateRDReport agentId (monitor.id ≠ cloudRdMonitorId)

/-- A report is sent to the publish url of a monitor. -/
def send (client : Client) (monitor : RdMonitor) (report : Client.RdReport) : RdSend :=
  ⟨monitor.id, monitor.purl, client.id, report⟩

/-- The part of `do_rd_monitor_scan` for one device. -/
def scanClient (monitor : RdMonitor) (client : Client) : List RdSend :=
  if client.queryRD monitor.query then
    (monitor.report agentId client).toList.map (monitor.send client) else []

/-- `do_rd_monitor_scan` -/
def doRdMonitorScan (monitors : RdMonitors) (clients : List Client)
    (monitorId : UInt64) : List RdSend :=
  match monitors.list.find? (·.id = monitorId) with
  | none => []
  | some monitor => clients.flatMap (monitor.scanClient agentId)

/-- One monitor of `device_rd_monitor_scan`, with the payload that was generated before. -/
def scanMonitor (client : Client) (state : Option Client.RdReport × List RdSend)
    (monitor : RdMonitor) : Option Client.RdReport × List RdSend :=
  -- A device that goes offline is reported to the cloud in another format.
  if client.online = false ∧ monitor.id = cloudRdMonitorId then state
  else if client.queryRD monitor.query then
    let payload := match state.1 with
      | some payload => some payload
      | none => monitor.report agentId client
    (payload, state.2 ++ payload.toList.map (monitor.send client))
  else state

/-- `device_rd_monitor_scan` -/
def deviceRdMonitorScan (monitors : RdMonitors) (client : Client) : List RdSend :=
  (monitors.list.foldl (scanMonitor agentId client) (none, [])).2

/-- What a scan sends to a monitor. -/
def sentTo (monitor : RdMonitor) (sends : List RdSend) : List RdSend :=
  sends.filter (·.monitor = monitor.id)

/-- Each monitor that matches the device is sent its own report, which is what
`do_rd_monitor_scan` sends it for the device. -/
def OwnViews (monitors : RdMonitors) (client : Client) : Prop :=
  ∀ monitor ∈ monitors.list, monitor.sentTo (deviceRdMonitorScan agentId monitors client) =
    (if client.queryRD monitor.query then (monitor.report agentId client).toList.map
    (monitor.send client) else []) ∧ monitor.sentTo (deviceRdMonitorScan agentId monitors client) =
    doRdMonitorScan agentId monitors [client] monitor.id

/-! ## The two reports of a device -/

/-- A device without anything that the cloud is not told: no alias and no configuration,
and no agent id that only the cloud is told. -/
structure SameReports (client : Client) : Prop where
  named : client.epname ≠ client.aliasName
  agent : agentId = none
  aliasName : client.aliasName = .empty
  config : client.config = none
  resources : ∀ resource ∈ client.resList,
    resource.config.all (fun config => config.groups = [] ∧ config.attrs = none)

section Reports

variable {agentId} {client : Client}

variable (agentId client) in
theorem generateRDReport_true : ∃ report, client.generateRDReport agentId true = some report := by
  refine ⟨_, if_neg ?_⟩
  exact fun wrong => absurd wrong.1 nofun

theorem generateRDReport_false_none :
    client.generateRDReport agentId false = none ↔ client.epname = client.aliasName := by
  unfold Client.generateRDReport
  split
  · rename_i unnamed
    exact ⟨fun _ => unnamed.2, fun _ => rfl⟩
  · rename_i named
    exact ⟨nofun, fun same => absurd ⟨rfl, same⟩ named⟩

theorem reportLink_same (resource : ResObject) :
    Client.reportLink false resource = Client.reportLink true resource ↔
      resource.config.all (fun config => config.groups = [] ∧ config.attrs = none) = true := by
  cases configured : resource.config with
  | none => simp [Client.reportLink, configured]
  | some config =>
    by_cases none : config.groups = []
    · simp [Client.reportLink, configured, none, eq_comm]
    · simp [Client.reportLink, configured, none]

theorem unlessEmpty_none (value : CString) : none = Client.unlessEmpty value ↔ value = .empty := by
  unfold Client.unlessEmpty
  split
  · rename_i empty
    exact ⟨fun _ => empty, fun _ => rfl⟩
  · rename_i filled
    exact ⟨nofun, fun empty => absurd empty filled⟩

/-- The two reports agree exactly where nothing is to be left out. -/
theorem generateRDReport_same_iff :
    client.generateRDReport agentId false = client.generateRDReport agentId true ↔
    SameReports agentId client := by
  by_cases unnamed : client.epname = client.aliasName
  · obtain ⟨report, generated⟩ := generateRDReport_true agentId client
    rw [generateRDReport_false_none.mpr unnamed, generated]
    exact ⟨nofun, fun same => absurd unnamed same.named⟩
  have links : client.resList.map (Client.reportLink false) =
      client.resList.map (Client.reportLink true) ↔ ∀ resource ∈ client.resList,
      resource.config.all (fun config => config.groups = [] ∧ config.attrs = none) = true := by
    rw [map_inj_left]
    exact forall₂_congr fun resource _ => reportLink_same resource
  simp only [Client.generateRDReport, unnamed, and_false, if_false, Bool.false_eq_true,
    Option.some.injEq, Client.RdReport.mk.injEq, true_and, if_true, unlessEmpty_none, links]
  constructor
  · rintro ⟨agent, aliasName, groups, attrs, resources⟩
    exact ⟨unnamed, agent, aliasName, Option.map_eq_none_iff.mp groups.symm, resources⟩
  · rintro ⟨-, agent, aliasName, config, resources⟩
    refine ⟨agent, aliasName, ?_, ?_, resources⟩
    · rw [config]
      rfl
    · rw [config]
      rfl

end Reports

/-! ## What a scan sends to one monitor -/

/-- The monitors that `device_rd_monitor_scan` sends something to, if there is a payload. -/
def serves (client : Client) (monitor : RdMonitor) : Bool :=
  ¬(client.online = false ∧ monitor.id = cloudRdMonitorId) ∧ client.queryRD monitor.query

/-- The sends to monitors that are all served, after an earlier payload. -/
def scanServed (client : Client) : Option Client.RdReport → List RdMonitor → List RdSend
  | _, [] => []
  | payload, monitor :: rest =>
    let payload := payload.or (monitor.report agentId client)
    payload.toList.map (monitor.send client) ++ scanServed client payload rest

section Scan

variable {agentId} {client : Client}

theorem foldl_scanMonitor (monitors : List RdMonitor) (payload : Option Client.RdReport)
    (sends : List RdSend) : (monitors.foldl (scanMonitor agentId client) (payload, sends)).2 =
      sends ++ scanServed agentId client payload (monitors.filter (serves client)) := by
  induction monitors generalizing payload sends with
  | nil => exact (append_nil sends).symm
  | cons monitor rest ih =>
    rw [foldl_cons]
    by_cases served : serves client monitor = true
    · obtain ⟨online, matched⟩ := of_decide_eq_true served
      have scanned : scanMonitor agentId client (payload, sends) monitor =
          (payload.or (monitor.report agentId client), sends ++
          (payload.or (monitor.report agentId client)).toList.map (monitor.send client)) := by
        rw [scanMonitor, if_neg online, if_pos matched]
        cases payload with
        | none => rfl
        | some payload => rfl
      rw [scanned, ih, filter_cons_of_pos served, scanServed, append_assoc]
    · have scanned : scanMonitor agentId client (payload, sends) monitor = (payload, sends) := by
        unfold scanMonitor
        split
        · rfl
        rename_i online
        rw [if_neg fun matched => served (decide_eq_true ⟨online, matched⟩)]
      rw [scanned, ih, filter_cons_of_neg served]

theorem deviceRdMonitorScan_eq (monitors : RdMonitors) :
    deviceRdMonitorScan agentId monitors client =
      scanServed agentId client none (monitors.list.filter (serves client)) :=
  foldl_scanMonitor monitors.list none []

theorem sentTo_append (monitor : RdMonitor) (front back : List RdSend) :
    monitor.sentTo (front ++ back) = monitor.sentTo front ++ monitor.sentTo back := filter_append ..

theorem sentTo_self (monitor : RdMonitor) (reports : List Client.RdReport) :
    monitor.sentTo (reports.map (monitor.send client)) = reports.map (monitor.send client) := by
  refine filter_eq_self.mpr fun sent member => ?_
  obtain ⟨report, -, rfl⟩ := mem_map.mp member
  exact decide_eq_true rfl

theorem sentTo_other {monitor other : RdMonitor} (different : other.id ≠ monitor.id)
    (reports : List Client.RdReport) : monitor.sentTo (reports.map (other.send client)) = [] := by
  refine filter_eq_nil_iff.mpr fun sent member => ?_
  obtain ⟨report, -, rfl⟩ := mem_map.mp member
  exact fun same => different (of_decide_eq_true same)

variable {monitor : RdMonitor}

theorem sentTo_others {others : List RdMonitor} (payload : Option Client.RdReport)
    (different : ∀ other ∈ others, other.id ≠ monitor.id) :
    monitor.sentTo (scanServed agentId client payload others) = [] := by
  induction others generalizing payload with
  | nil => rfl
  | cons other rest ih =>
    rw [scanServed, sentTo_append, sentTo_other (different other mem_cons_self),
      ih _ fun later member => different later (mem_cons_of_mem _ member)]
    rfl

/-- A monitor is sent the first payload that was generated, be it its own or not. -/
theorem sentTo_scanServed {front back : List RdMonitor} (payload : Option Client.RdReport)
    (different : ∀ other ∈ front ++ back, other.id ≠ monitor.id) :
    monitor.sentTo (scanServed agentId client payload (front ++ monitor :: back)) =
      ((payload.or (front.findSome? (report agentId client))).or
      (monitor.report agentId client)).toList.map (monitor.send client) := by
  induction front generalizing payload with
  | nil =>
    rw [nil_append] at different ⊢
    rw [scanServed, sentTo_append, sentTo_self, sentTo_others _ different, append_nil,
      List.findSome?_nil, Option.or_none]
  | cons other rest ih =>
    have first : (other :: rest).findSome? (report agentId client) =
        (other.report agentId client).or (rest.findSome? (report agentId client)) := by
      rw [List.findSome?_cons]
      cases other.report agentId client with
      | none => rfl
      | some report => rfl
    rw [cons_append, scanServed, sentTo_append, sentTo_other (different other mem_cons_self),
      ih _ fun later member => different later (mem_cons_of_mem _ member), nil_append,
      first, ← Option.or_assoc]

theorem doRdMonitorScan_mem {monitors : RdMonitors} (member : monitor ∈ monitors.list)
    (clients : List Client) : doRdMonitorScan agentId monitors clients monitor.id = clients.flatMap
      (monitor.scanClient agentId) := by
  have found : monitors.list.find? (fun other => other.id = monitor.id) = some monitor := by
    obtain ⟨front, back, list⟩ := append_of_mem member
    refine List.find?_eq_some_iff_append.mpr ⟨decide_eq_true rfl, front, back, list,
      fun other before => ?_⟩
    have ordered := monitors.ordered
    rw [list, pairwise_append] at ordered
    have less := ordered.2.2 other before monitor mem_cons_self
    rw [decide_eq_false (UInt64.ne_of_lt less)]
    rfl
  simp only [doRdMonitorScan, found]

end Scan

/-! ## When each monitor gets its own view -/

/-- The cloud's monitor and the others are not served from one payload. Either the cloud's
does not match the device, or no other does, or the device has one report for all, or it
has none for the cloud and the cloud comes first. A device that is offline has no report
for the cloud either. -/
structure SeparateViews (monitors : RdMonitors) (client : Client) : Prop where
  offline : ∀ cloud ∈ monitors.list, cloud.id = cloudRdMonitorId → client.queryRD cloud.query →
    client.online = false → client.epname = client.aliasName
  online : ∀ cloud ∈ monitors.list, ∀ other ∈ monitors.list, cloud.id = cloudRdMonitorId →
    other.id ≠ cloudRdMonitorId → client.queryRD cloud.query → client.queryRD other.query →
    client.online = true → SameReports agentId client ∨ (client.epname = client.aliasName ∧
    ∀ monitor ∈ monitors.list, client.queryRD monitor.query → cloudRdMonitorId ≤ monitor.id)

section Views

variable {agentId} {client : Client} {monitors : RdMonitors} {monitor cloud : RdMonitor}

theorem report_cloud (isCloud : cloud.id = cloudRdMonitorId) :
    cloud.report agentId client = client.generateRDReport agentId false := by
  rw [report, decide_eq_false (not_not.mpr isCloud)]

theorem report_other (isOther : monitor.id ≠ cloudRdMonitorId) :
    monitor.report agentId client = client.generateRDReport agentId true := by
  rw [report, decide_eq_true isOther]

/-- The monitors in front of one that is served, and behind it. -/
theorem split_served (member : monitor ∈ monitors.list) (served : serves client monitor = true) :
    ∃ front back, monitors.list.filter (serves client) = front ++ monitor :: back ∧
      (∀ other ∈ front, other.id < monitor.id) ∧ ∀ other ∈ back, monitor.id < other.id := by
  obtain ⟨front, back, list⟩ := append_of_mem (mem_filter.mpr ⟨member, served⟩)
  have ordered := monitors.ordered.filter (serves client)
  rw [list, pairwise_append, pairwise_cons] at ordered
  exact ⟨front, back, list, fun other before => ordered.2.2 other before monitor mem_cons_self,
    ordered.2.1.1⟩

theorem ownViews_scanClient : OwnViews agentId monitors client ↔ ∀ monitor ∈ monitors.list,
    monitor.sentTo (deviceRdMonitorScan agentId monitors client) =
      monitor.scanClient agentId client := by
  refine forall₂_congr fun monitor member => ?_
  rw [doRdMonitorScan_mem member, flatMap_singleton]
  exact and_self_iff

/-- A monitor that is not served is sent nothing. -/
theorem sentTo_unserved (member : monitor ∈ monitors.list)
    (unserved : serves client monitor = false) :
    monitor.sentTo (deviceRdMonitorScan agentId monitors client) = [] := by
  rw [deviceRdMonitorScan_eq]
  refine sentTo_others none fun other otherMember same => ?_
  obtain ⟨listed, served⟩ := mem_filter.mp otherMember
  have apart : (monitors.list.map RdMonitor.id).Nodup :=
    pairwise_map.mpr (monitors.ordered.imp fun less => UInt64.ne_of_lt less)
  rw [inj_on_of_nodup_map apart listed member same, unserved] at served
  cases served

/-- A monitor that is served is sent its own report, unless an earlier one was generated. -/
theorem sentTo_served {front back : List RdMonitor}
    (split : monitors.list.filter (serves client) = front ++ monitor :: back)
    (before : ∀ other ∈ front, other.id < monitor.id)
    (behind : ∀ other ∈ back, monitor.id < other.id) :
    monitor.sentTo (deviceRdMonitorScan agentId monitors client) =
      ((front.findSome? (report agentId client)).or (monitor.report agentId client)).toList.map
      (monitor.send client) := by
  rw [deviceRdMonitorScan_eq, split]
  refine sentTo_scanServed none fun other member => ?_
  rcases mem_append.mp member with inFront | inBack
  · exact UInt64.ne_of_lt (before other inFront)
  · exact (UInt64.ne_of_lt (behind other inBack)).symm

/-- Different reports make different sends. -/
theorem sends_inj {one other : Option Client.RdReport} :
    one.toList.map (monitor.send client) = other.toList.map (monitor.send client) ↔
    one = other := by
  constructor
  · intro same
    cases one with
    | none =>
      cases other with
      | none => rfl
      | some report => cases same
    | some report =>
      cases other with
      | none => cases same
      | some report' =>
        have heads := (List.cons.inj same).1
        exact congrArg some (congrArg RdSend.report heads)
  · exact fun same => same ▸ rfl

theorem serves_matches (served : serves client monitor = true) :
    client.queryRD monitor.query = true :=
  (of_decide_eq_true served).2

theorem serves_cloud (served : serves client cloud = true) (isCloud : cloud.id = cloudRdMonitorId) :
    client.online = true := by
  rw [← Bool.not_eq_false]
  exact fun offline => (of_decide_eq_true served).1 ⟨offline, isCloud⟩

theorem serves_of_online (online : client.online = true)
    (matched : client.queryRD monitor.query = true) : serves client monitor = true :=
  decide_eq_true ⟨fun offline => absurd (online.symm.trans offline.1) nofun, matched⟩

/-- A monitor that is served gets its own report exactly where no other comes before. -/
theorem sentTo_scanClient_iff {front back : List RdMonitor} (served : serves client monitor = true)
    (split : monitors.list.filter (serves client) = front ++ monitor :: back)
    (before : ∀ other ∈ front, other.id < monitor.id)
    (behind : ∀ other ∈ back, monitor.id < other.id) : monitor.sentTo
      (deviceRdMonitorScan agentId monitors client) = monitor.scanClient agentId client ↔
    (front.findSome? (report agentId client)).or (monitor.report agentId client) =
      monitor.report agentId client := by
  rw [sentTo_served split before behind, scanClient, if_pos (serves_matches served), sends_inj]

/-- An earlier monitor has the same report, where views are separate. -/
theorem SeparateViews.report_eq (separate : SeparateViews agentId monitors client)
    {earlier : RdMonitor}
    (earlierMember : earlier ∈ monitors.list) (member : monitor ∈ monitors.list)
    (earlierServed : serves client earlier = true) (served : serves client monitor = true)
    (before : earlier.id < monitor.id) {payload : Client.RdReport}
    (generated : earlier.report agentId client = some payload) :
    monitor.report agentId client = some payload := by
  have earlierMatched := serves_matches earlierServed
  have matched := serves_matches served
  by_cases earlierCloud : earlier.id = cloudRdMonitorId
  · have isOther : monitor.id ≠ cloudRdMonitorId := earlierCloud ▸ (UInt64.ne_of_lt before).symm
    rw [report_cloud earlierCloud] at generated
    rw [report_other isOther]
    rcases separate.online earlier earlierMember monitor member earlierCloud isOther earlierMatched
      matched (serves_cloud earlierServed earlierCloud) with same | ⟨unnamed, _⟩
    · rw [← generateRDReport_same_iff.mpr same, generated]
    · rw [generateRDReport_false_none.mpr unnamed] at generated
      cases generated
  · rw [report_other earlierCloud] at generated
    by_cases isCloud : monitor.id = cloudRdMonitorId
    · rw [report_cloud isCloud]
      rcases separate.online monitor member earlier earlierMember isCloud earlierCloud matched
        earlierMatched (serves_cloud served isCloud) with same | ⟨_, first⟩
      · rw [generateRDReport_same_iff.mpr same, generated]
      · have least := first earlier earlierMember earlierMatched
        rw [← isCloud] at least
        exact absurd before (UInt64.not_lt.mpr least)
    · rw [report_other isCloud, generated]

theorem SeparateViews.ownViews (separate : SeparateViews agentId monitors client) :
    OwnViews agentId monitors client := by
  rw [ownViews_scanClient]
  intro monitor member
  by_cases served : serves client monitor = true
  · obtain ⟨front, back, split, before, behind⟩ := split_served member served
    rw [sentTo_scanClient_iff served split before behind]
    cases earliest : front.findSome? (report agentId client) with
    | none => rfl
    | some payload =>
      obtain ⟨earlier, inFront, generated⟩ := exists_of_findSome?_eq_some earliest
      have listed : earlier ∈ monitors.list.filter (serves client) :=
        split ▸ mem_append_left _ inFront
      obtain ⟨earlierMember, earlierServed⟩ := mem_filter.mp listed
      rw [separate.report_eq earlierMember member earlierServed served
        (before earlier inFront) generated]
      rfl
  · rw [sentTo_unserved member (Bool.not_eq_true _ ▸ served)]
    unfold scanClient
    split
    · rename_i matched
      -- Only the cloud's monitor is left out though it matches.
      have left : client.online = false ∧ monitor.id = cloudRdMonitorId := by
        by_contra heard
        exact served (decide_eq_true ⟨heard, matched⟩)
      rw [report_cloud left.2,
        generateRDReport_false_none.mpr (separate.offline monitor member left.2 matched left.1)]
      rfl
    · rfl

/-- In front of the cloud's monitor, all reports are the full one. -/
theorem findSome?_full {front : List RdMonitor} {full : Client.RdReport} (nonempty : front ≠ [])
    (others : ∀ other ∈ front, other.id ≠ cloudRdMonitorId)
    (generated : client.generateRDReport agentId true = some full) :
    front.findSome? (report agentId client) = some full := by
  cases front with
  | nil => exact absurd rfl nonempty
  | cons first rest =>
    rw [List.findSome?_cons, report_other (others first mem_cons_self), generated]

theorem OwnViews.separate (own : OwnViews agentId monitors client) :
    SeparateViews agentId monitors client := by
  rw [ownViews_scanClient] at own
  refine ⟨?_, ?_⟩
  · intro cloud member isCloud matched offline
    have unserved : serves client cloud = false :=
      decide_eq_false fun served => served.1 ⟨offline, isCloud⟩
    have nothing := own cloud member
    rw [sentTo_unserved member unserved, scanClient, if_pos matched,
      report_cloud isCloud] at nothing
    have none := map_eq_nil_iff.mp nothing.symm
    exact generateRDReport_false_none.mp (Option.toList_eq_nil_iff.mp none)
  · intro cloud cloudMember other otherMember isCloud isOther cloudMatched otherMatched online
    obtain ⟨full, generated⟩ := generateRDReport_true agentId client
    have cloudServed := serves_of_online online cloudMatched
    have otherServed := serves_of_online online otherMatched
    obtain ⟨front, back, split, before, behind⟩ := split_served cloudMember cloudServed
    by_cases first : front = []
    · subst first
      rw [nil_append] at split
      by_cases unnamed : client.epname = client.aliasName
      · refine .inr ⟨unnamed, fun monitor member matched => ?_⟩
        have listed := mem_filter.mpr ⟨member, serves_of_online online matched⟩
        rw [split] at listed
        rcases mem_cons.mp listed with rfl | inBack
        · exact isCloud ▸ UInt64.le_refl _
        · exact isCloud ▸ UInt64.le_of_lt (behind monitor inBack)
      · left
        obtain ⟨earlier, later, otherSplit, otherBefore, otherBehind⟩ :=
          split_served otherMember otherServed
        have ownOther := (sentTo_scanClient_iff otherServed otherSplit otherBefore otherBehind).mp
          (own other otherMember)
        -- The cloud's monitor is the first that is served, so its report is everybody's.
        have starts := split.symm.trans otherSplit
        cases earlier with
        | nil => exact absurd ((List.cons.inj starts).1 ▸ isCloud) isOther
        | cons head middle =>
          obtain rfl := (List.cons.inj starts).1
          rw [List.findSome?_cons, report_cloud isCloud, report_other isOther] at ownOther
          refine generateRDReport_same_iff.mp ?_
          cases reported : client.generateRDReport agentId false with
          | none => exact absurd (generateRDReport_false_none.mp reported) unnamed
          | some report =>
            rw [reported] at ownOther
            exact ownOther
    · left
      have ownCloud :=
        (sentTo_scanClient_iff cloudServed split before behind).mp (own cloud cloudMember)
      have others : ∀ earlier ∈ front, earlier.id ≠ cloudRdMonitorId :=
        fun earlier inFront => isCloud ▸ UInt64.ne_of_lt (before earlier inFront)
      rw [findSome?_full first others generated, report_cloud isCloud] at ownCloud
      refine generateRDReport_same_iff.mp ?_
      rw [← ownCloud, generated]
      rfl

/-- Each monitor gets its own view exactly where views are separate. -/
theorem ownViews_iff : OwnViews agentId monitors client ↔ SeparateViews agentId monitors client :=
  ⟨OwnViews.separate, SeparateViews.ownViews⟩

end Views

/-- A query without conditions. -/
def everyDevice : Client.RdQuery := ⟨none, none, none, none, none, none⟩

/-- The monitor of a plugin and that of the cloud. -/
def pluginAndCloud : RdMonitors where
  list := [⟨1, everyDevice, .ofBytes [0x70]⟩, ⟨cloudRdMonitorId, everyDevice, .ofBytes [0x63]⟩]
  ordered := by decide

/-- The device `"d"` with the alias `"l"`. -/
def aliasedDevice : Client := { Client.new 0 (.ofBytes [0x64]) with aliasName := .ofBytes [0x6C] }

/-- The cloud is sent the alias, because the plugin's monitor comes first. -/
theorem ownViews_pluginAndCloud_fails :
    ¬OwnViews (some (.ofBytes [0x67])) pluginAndCloud aliasedDevice := by
  intro own
  have cloud := (own ⟨cloudRdMonitorId, everyDevice, .ofBytes [0x63]⟩ (by simp [pluginAndCloud])).1
  exact absurd cloud (by decide)

end RdMonitor

end Idrm.Devices
