import Idrm.Lib.CString
import Idrm.Lib.History

/-!
# The link to the cloud

The sender thread opens connections, the receive handler takes replies, and the port
loop runs three timers; all of them work on the connection status and on the counters of
handshake, provision and ping. Each of their steps is taken as one event.

`done` records what the events did, so that a rule can speak about every moment of a run.
Messages count as sent when they are queued. The file that holds the agent id is outside:
an event brings what `load_iagent_id` finds.
-/

namespace Idrm.Agent

open Idrm.Lib

/-- `cloud_status_e` -/
inductive CloudStatus where
  | readyToConnect
  | errorInConnection
  | socketConnected
  | cloudProvisioning
  | cloudHandshaking
  | readyForWork
deriving DecidableEq, Repr

/-- `handshake_status_e` -/
inductive HandshakeStatus where
  | unit
  | firstShakeSent
  | secondShakeSent
  | failed
  | success
deriving DecidableEq, Repr

/-- `handshake_ctx_t` -/
structure HandshakeCtx where
  status : HandshakeStatus
  lastHandshake : UInt64
  resendCnt : Nat
deriving DecidableEq

/-- What an event did. -/
inductive LinkAction where
  | connected
  | initHandshake
  | sentHandshake1
  | sentHandshake2
  | sentProvision
  | provisionGivenUp
  | sentPing
  | gotPing
  | declaredDead
deriving DecidableEq, Repr

/-- The statics of the link: `g_cloud_status`, `g_handshake_ctx`, those of `provision.c`
and `ping.c`, and the agent id. -/
structure CloudLink where
  cloudStatus : CloudStatus
  handshake : HandshakeCtx
  lastProv : UInt64
  provisionResendCnt : Nat
  lastPing : UInt64
  pingResendCnt : Nat
  pingExpirySec : Int32
  selfAgentId : Option CString
  done : List LinkAction

namespace CloudLink

/-- The link of an agent that has just started. -/
def start (selfAgentId : Option CString) : CloudLink where
  cloudStatus := .readyToConnect
  handshake := ⟨.unit, 0, 0⟩
  lastProv := 0
  provisionResendCnt := 0
  lastPing := 0
  pingResendCnt := 0
  pingExpirySec := 30
  selfAgentId := selfAgentId
  done := []

/-- `set_cloud_connection_status` -/
def setCloudConnectionStatus (status : CloudStatus) (link : CloudLink) : CloudLink :=
  { link with cloudStatus := status }

/-- `prepare_reconnect_cloud` -/
def prepareReconnectCloud (link : CloudLink) : CloudLink :=
  if link.cloudStatus ≠ .readyToConnect then
    setCloudConnectionStatus .errorInConnection link else link

/-- Something is done. -/
def does (action : LinkAction) (link : CloudLink) : CloudLink :=
  { link with done := link.done ++ [action] }

/-! ## Handshake -/

/-- `handshake_done` -/
def handshakeDone (link : CloudLink) : Bool := link.handshake.status = .success

/-- `init_handshake` -/
def initHandshake (link : CloudLink) : CloudLink :=
  does .initHandshake { link with handshake := ⟨.unit, 0, 0⟩ }

/-- A handshake message is sent. -/
def sendHandshake (message : LinkAction) (status : HandshakeStatus) (now : UInt64)
    (link : CloudLink) : CloudLink :=
  does message { link with handshake := ⟨status, now, link.handshake.resendCnt + 1⟩ }

/-- `first_handshake` -/
def firstHandshake : UInt64 → CloudLink → CloudLink := sendHandshake .sentHandshake1 .firstShakeSent

/-- `second_handshake` -/
def secondHandshake : UInt64 → CloudLink → CloudLink :=
  sendHandshake .sentHandshake2 .secondShakeSent

/-- `post_handshake_action`, as far as the link is concerned: the agent id is loaded. -/
def postHandshakeAction (loaded : Option CString) (link : CloudLink) : CloudLink :=
  { link with selfAgentId := loaded }

/-- What a message of type `INTEL_IAGENT` has in its vheader. -/
structure IagentMessage where
  tag : Option CString
  response : Option Int32
  agentId : Option CString

/-- `TAG_HANDSHAKE1`, `"handshake1"` -/
def tagHandshake1 : CString :=
  ⟨[0x68, 0x61, 0x6E, 0x64, 0x73, 0x68, 0x61, 0x6B, 0x65, 0x31], by decide⟩
/-- `TAG_HANDSHAKE2`, `"handshake2"` -/
def tagHandshake2 : CString :=
  ⟨[0x68, 0x61, 0x6E, 0x64, 0x73, 0x68, 0x61, 0x6B, 0x65, 0x32], by decide⟩
/-- `TAG_KEY_PROVISION`, `"key-prov"` -/
def tagKeyProvision : CString := ⟨[0x6B, 0x65, 0x79, 0x2D, 0x70, 0x72, 0x6F, 0x76], by decide⟩
/-- `TAG_PING`, `"ping"` -/
def tagPing : CString := ⟨[0x70, 0x69, 0x6E, 0x67], by decide⟩
/-- `"handshake"` -/
def handshakePrefix : List UInt8 := [0x68, 0x61, 0x6E, 0x64, 0x73, 0x68, 0x61, 0x6B, 0x65]

/-- `REQUIRE_2ND_HANDSHAKE` -/
def require2ndHandshake : Int32 := 100

/-- The handshake has failed. -/
def failHandshake (link : CloudLink) : CloudLink :=
  { link with handshake := { link.handshake with status := .failed } }

/-- The handshake has succeeded; `stamp` is the new time of the last handshake. -/
def completeHandshake (stamp : UInt64) (loaded : Option CString) (link : CloudLink) : CloudLink :=
  postHandshakeAction loaded (setCloudConnectionStatus .readyForWork
    { link with handshake := { link.handshake with status := .success, lastHandshake := stamp } })

/-- `on_handshake_message` -/
def onHandshakeMessage (now : UInt64) (loaded : Option CString) (message : IagentMessage)
    (link : CloudLink) : CloudLink :=
  match message.tag with
  | none => link
  | some tag =>
    if tag = tagHandshake1 then
      if link.handshake.status ≠ .firstShakeSent then link
      else
        match message.response with
        | none => failHandshake link
        | some response =>
          if response = 0 then failHandshake link
          else if response = require2ndHandshake then secondHandshake now link
          else completeHandshake link.handshake.lastHandshake loaded link
    else if tag = tagHandshake2 then
      if link.handshake.status ≠ .secondShakeSent then link else completeHandshake now loaded link
    else link

/-- A number of milliseconds, as the timeout checks return it. -/
def milliseconds (seconds : UInt64) : Int32 := (seconds * 1000).toUInt32.toInt32

/-- `g_handshake_expiry` -/
def handshakeExpiry : UInt64 := 15

/-- `check_handshake_timeout` -/
def checkHandshakeTimeout (now : UInt64) (link : CloudLink) : Int32 × CloudLink :=
  if now > link.handshake.lastHandshake + handshakeExpiry then
    if link.handshake.resendCnt > 5 then
      (-1, initHandshake (setCloudConnectionStatus .readyToConnect link))
    else (milliseconds handshakeExpiry, firstHandshake now link)
  else (milliseconds (link.handshake.lastHandshake + handshakeExpiry - now), link)

/-! ## Provision -/

/-- `init_provision` -/
def initProvision (now : UInt64) (link : CloudLink) : CloudLink :=
  does .sentProvision
    { link with provisionResendCnt := link.provisionResendCnt + 1, lastProv := now }

/-- An id that comes with a provision reply is saved and loaded again. -/
def adoptId (loaded : Option CString) (message : IagentMessage) (link : CloudLink) : CloudLink :=
  if message.agentId.isSome then { link with selfAgentId := loaded } else link

/-- `on_prov_message` -/
def onProvMessage (now : UInt64) (loaded : Option CString) (message : IagentMessage)
    (link : CloudLink) : CloudLink :=
  if link.cloudStatus ≠ .cloudProvisioning then link
  else
    match message.response with
    | none => link
    | some response =>
      if response = 0 then link
      else
        let link := adoptId loaded message link
        if link.selfAgentId.isSome then
          firstHandshake now (initHandshake (setCloudConnectionStatus .cloudHandshaking
            { link with provisionResendCnt := 0 }))
        else link

/-- `g_prov_expiry` -/
def provExpiry : UInt64 := 15

/-- `check_provision_timeout` -/
def checkProvisionTimeout (now : UInt64) (link : CloudLink) : Int32 × CloudLink :=
  if now > link.lastProv + provExpiry then
    if link.provisionResendCnt > 5 then
      (-1, does .provisionGivenUp (setCloudConnectionStatus .readyToConnect link))
    else (milliseconds provExpiry, initProvision now link)
  else (milliseconds (link.lastProv + provExpiry - now), link)

/-! ## Ping -/

/-- `init_ping` -/
def initPing (now : UInt64) (link : CloudLink) : CloudLink :=
  does .sentPing { link with pingResendCnt := link.pingResendCnt + 1, lastPing := now }

/-- `on_ping_message` -/
def onPingMessage (link : CloudLink) : CloudLink := does .gotPing { link with pingResendCnt := 0 }

/-- `check_ping_timeout`, where the link is ready for work. -/
def checkPingTimeout (now : UInt64) (link : CloudLink) : Int32 × CloudLink :=
  let expiry := link.pingExpirySec.toInt64.toUInt64
  if now ≥ link.lastPing + expiry then
    if link.pingResendCnt ≥ 3 then
      (-1, does .declaredDead { prepareReconnectCloud link with pingResendCnt := 0, lastPing := 0 })
    else (milliseconds expiry, initPing now link)
  else (milliseconds (link.lastPing + expiry - now), link)

/-! ## Events -/

/-- `handle_type_iagent`, for a message that is not meant for another agent. -/
def handleTypeIagent (now : UInt64) (loaded : Option CString) (message : IagentMessage)
    (link : CloudLink) : CloudLink :=
  match message.tag with
  | none => link
  | some tag =>
    if handshakePrefix <+: tag.bytes then onHandshakeMessage now loaded message link
    else if tag = tagKeyProvision then onProvMessage now loaded message link
    else if tag = tagPing then onPingMessage link
    else link

/-- `is_my_agent_id` -/
def isMyAgentId (id : CString) (link : CloudLink) : Bool :=
  match link.selfAgentId with
  | none => true
  | some self => self = id

/-- The part of `handle_ilink_message` for messages of type `INTEL_IAGENT`. -/
def handleIlinkMessage (now : UInt64) (loaded : Option CString) (message : IagentMessage)
    (link : CloudLink) : CloudLink :=
  match message.agentId with
  | none => handleTypeIagent now loaded message link
  | some agent => if isMyAgentId agent link then handleTypeIagent now loaded message link else link

/-- The connect step of `thread_ilink_sender`, with the ping expiry `load_ini` finds and
whether the socket could be opened. -/
def connect (now : UInt64) (pingExpirySec : Int32) (opened : Bool) (link : CloudLink) : CloudLink :=
  if link.cloudStatus ≠ .readyToConnect then link
  else
    let link := { link with pingExpirySec := pingExpirySec }
    if opened = false then link
    else
      let link := does .connected (setCloudConnectionStatus .socketConnected link)
      if link.selfAgentId.isNone then
        initProvision now (setCloudConnectionStatus .cloudProvisioning link)
      else setCloudConnectionStatus .cloudHandshaking (firstHandshake now (initHandshake link))

/-- What can happen to the link. A message that was read is handled whatever the status
is by then. -/
inductive LinkEvent where
  | connect (now : UInt64) (pingExpirySec : Int32) (opened : Bool)
  | message (now : UInt64) (loaded : Option CString) (message : IagentMessage)
  | provisionCheck (now : UInt64)
  | handshakeCheck (now : UInt64)
  | pingCheck (now : UInt64)
  /-- The port loop makes an error ready for the next connection. -/
  | cleanup
  /-- `recv` has found the connection closed or reset. -/
  | recvClosed
  /-- `send_cloud_msg` has given the connection up. -/
  | sendFailed

/-- One event, under the guards of the port loop. -/
def perform : LinkEvent → CloudLink → CloudLink
  | .connect now pingExpirySec opened, link => link.connect now pingExpirySec opened
  | .message now loaded message, link => link.handleIlinkMessage now loaded message
  | .provisionCheck now, link =>
    if link.cloudStatus = .cloudProvisioning then (link.checkProvisionTimeout now).2 else link
  | .handshakeCheck now, link =>
    if link.cloudStatus = .cloudHandshaking ∧ link.handshakeDone = false then
      (link.checkHandshakeTimeout now).2
    else link
  | .pingCheck now, link =>
    if link.cloudStatus = .readyForWork then (link.checkPingTimeout now).2 else link
  | .cleanup, link =>
    if link.cloudStatus = .errorInConnection then
      setCloudConnectionStatus .readyToConnect link else link
  | .recvClosed, link => setCloudConnectionStatus .readyToConnect link
  | .sendFailed, link => prepareReconnectCloud link

/-- A run of events. -/
def run (events : List LinkEvent) (link : CloudLink) : CloudLink :=
  events.foldl (fun link event => perform event link) link

/-! ## What an event can do -/

/-- Nothing is done; the connection may be given up. -/
structure Quiet (link next : CloudLink) : Prop where
  status : next.cloudStatus = link.cloudStatus ∨ next.cloudStatus = .readyToConnect ∨
    next.cloudStatus = .errorInConnection
  handshake : next.handshake = link.handshake
  provision : next.provisionResendCnt = link.provisionResendCnt
  ping : next.pingResendCnt = link.pingResendCnt
  done : next.done = link.done

/-- A link whose socket was opened. -/
def opened (pingExpirySec : Int32) (link : CloudLink) : CloudLink :=
  does .connected
    (setCloudConnectionStatus .socketConnected { link with pingExpirySec := pingExpirySec })

/-- A reply that completes the handshake in a status. -/
def Completes (status : HandshakeStatus) (message : IagentMessage) : Prop :=
  (status = .firstShakeSent ∧ message.tag = some tagHandshake1 ∧
    ∃ response, message.response = some response ∧ response ≠ 0 ∧ response ≠ require2ndHandshake) ∨
  (status = .secondShakeSent ∧ message.tag = some tagHandshake2)

/-- The effects of an event. -/
inductive LinkStep (link : CloudLink) : LinkEvent → CloudLink → Prop
  | quiet {event : LinkEvent} {next : CloudLink} : Quiet link next → LinkStep link event next
  | provisions (now : UInt64) (expiry : Int32) : link.cloudStatus = .readyToConnect →
      link.selfAgentId = none → LinkStep link (.connect now expiry true)
      (initProvision now (setCloudConnectionStatus .cloudProvisioning (opened expiry link)))
  | shakes (now : UInt64) (expiry : Int32) : link.cloudStatus = .readyToConnect →
      LinkStep link (.connect now expiry true) (setCloudConnectionStatus .cloudHandshaking
      (firstHandshake now (initHandshake (opened expiry link))))
  | fails (now : UInt64) (loaded : Option CString) (message : IagentMessage) :
      link.handshake.status = .firstShakeSent →
      LinkStep link (.message now loaded message) (failHandshake link)
  | shakesAgain (now : UInt64) (loaded : Option CString) (message : IagentMessage) :
      link.handshake.status = .firstShakeSent →
      LinkStep link (.message now loaded message) (secondHandshake now link)
  | completes (now stamp : UInt64) (loaded : Option CString) (message : IagentMessage) :
      Completes link.handshake.status message →
      LinkStep link (.message now loaded message) (completeHandshake stamp loaded link)
  | provisioned (now : UInt64) (loaded : Option CString) (message : IagentMessage) :
      link.cloudStatus = .cloudProvisioning → LinkStep link (.message now loaded message)
      (firstHandshake now (initHandshake (setCloudConnectionStatus .cloudHandshaking
      { adoptId loaded message link with provisionResendCnt := 0 })))
  | pinged (now : UInt64) (loaded : Option CString) (message : IagentMessage) :
      LinkStep link (.message now loaded message) (onPingMessage link)
  | provisionsAgain (now : UInt64) : link.cloudStatus = .cloudProvisioning →
      link.provisionResendCnt ≤ 5 → LinkStep link (.provisionCheck now) (initProvision now link)
  | givesUp (now : UInt64) : link.cloudStatus = .cloudProvisioning → 5 < link.provisionResendCnt →
      LinkStep link (.provisionCheck now)
      (does .provisionGivenUp (setCloudConnectionStatus .readyToConnect link))
  | resends (now : UInt64) : link.cloudStatus = .cloudHandshaking → link.handshake.resendCnt ≤ 5 →
      LinkStep link (.handshakeCheck now) (firstHandshake now link)
  | resets (now : UInt64) : link.cloudStatus = .cloudHandshaking → LinkStep link
      (.handshakeCheck now) (initHandshake (setCloudConnectionStatus .readyToConnect link))
  | pings (now : UInt64) : LinkStep link (.pingCheck now) (initPing now link)
  | dies (now : UInt64) : link.cloudStatus = .readyForWork → 3 ≤ link.pingResendCnt →
      LinkStep link (.pingCheck now)
        (does .declaredDead { prepareReconnectCloud link with pingResendCnt := 0, lastPing := 0 })

section Steps

variable {link : CloudLink} {now : UInt64} {loaded : Option CString} {message : IagentMessage}

theorem Quiet.refl (link : CloudLink) : Quiet link link := ⟨.inl rfl, rfl, rfl, rfl, rfl⟩

theorem Quiet.giveUp {status : CloudStatus}
    (ends : status = .readyToConnect ∨ status = .errorInConnection)
    (link : CloudLink) : Quiet link (setCloudConnectionStatus status link) :=
  ⟨.inr ends, rfl, rfl, rfl, rfl⟩

theorem Quiet.prepareReconnectCloud (link : CloudLink) :
    Quiet link (prepareReconnectCloud link) := by
  unfold CloudLink.prepareReconnectCloud
  split
  · exact .giveUp (.inr rfl) link
  · exact .refl link

/-- A link that was ready for work is in error afterwards. -/
theorem prepareReconnectCloud_ready (ready : link.cloudStatus = .readyForWork) :
    (prepareReconnectCloud link).cloudStatus = .errorInConnection := by
  rw [prepareReconnectCloud, if_pos (by rw [ready]; exact nofun)]
  rfl

theorem Quiet.adoptId (loaded : Option CString) (message : IagentMessage) (link : CloudLink) :
    Quiet link (adoptId loaded message link) := by
  unfold CloudLink.adoptId
  split
  · exact ⟨.inl rfl, rfl, rfl, rfl, rfl⟩
  · exact .refl link

theorem onHandshakeMessage_step :
    LinkStep link (.message now loaded message) (onHandshakeMessage now loaded message link) := by
  unfold onHandshakeMessage
  split
  · exact .quiet (.refl link)
  rename_i tag isTag
  split
  · rename_i first
    split
    · exact .quiet (.refl link)
    rename_i waiting
    have waiting := not_not.mp waiting
    split
    · exact .fails now loaded message waiting
    rename_i response isResponse
    split
    · exact .fails now loaded message waiting
    rename_i accepted
    split
    · exact .shakesAgain now loaded message waiting
    · rename_i once
      exact .completes now _ loaded message
        (.inl ⟨waiting, first ▸ isTag, response, isResponse, accepted, once⟩)
  · split
    · rename_i second
      split
      · exact .quiet (.refl link)
      · rename_i waiting
        exact .completes now now loaded message (.inr ⟨not_not.mp waiting, second ▸ isTag⟩)
    · exact .quiet (.refl link)

theorem onProvMessage_step : LinkStep link (.message now loaded message)
    (onProvMessage now loaded message link) := by
  unfold onProvMessage
  split
  · exact .quiet (.refl link)
  rename_i provisioning
  split
  · exact .quiet (.refl link)
  split
  · exact .quiet (.refl link)
  simp only
  split
  · exact .provisioned now loaded message (not_not.mp provisioning)
  · exact .quiet (.adoptId loaded message link)

theorem handleIlinkMessage_step :
    LinkStep link (.message now loaded message) (handleIlinkMessage now loaded message link) := by
  have dispatched :
      LinkStep link (.message now loaded message) (handleTypeIagent now loaded message link) := by
    unfold handleTypeIagent
    split
    · exact .quiet (.refl link)
    split
    · exact onHandshakeMessage_step
    split
    · exact onProvMessage_step
    split
    · exact .pinged now loaded message
    · exact .quiet (.refl link)
  unfold handleIlinkMessage
  split
  · exact dispatched
  split
  · exact dispatched
  · exact .quiet (.refl link)

theorem connect_step (expiry : Int32) (isOpen : Bool) :
    LinkStep link (.connect now expiry isOpen) (connect now expiry isOpen link) := by
  unfold connect
  split
  · exact .quiet (.refl link)
  rename_i idle
  have idle := not_not.mp idle
  simp only
  split
  · exact .quiet ⟨.inl rfl, rfl, rfl, rfl, rfl⟩
  rename_i isOpened
  rw [Bool.not_eq_false] at isOpened
  subst isOpened
  split
  · rename_i unknown
    exact .provisions now expiry idle (Option.isNone_iff_eq_none.mp unknown)
  · exact .shakes now expiry idle

/-- An event has one of these effects. -/
theorem perform_step (event : LinkEvent) (link : CloudLink) :
    LinkStep link event (perform event link) := by
  unfold perform
  split
  · exact connect_step _ _
  · exact handleIlinkMessage_step
  · split
    · rename_i provisioning
      unfold checkProvisionTimeout
      split
      · split
        · exact .givesUp _ provisioning ‹_›
        · exact .provisionsAgain _ provisioning (Nat.le_of_not_lt ‹_›)
      · exact .quiet (.refl _)
    · exact .quiet (.refl _)
  · split
    · rename_i shaking
      unfold checkHandshakeTimeout
      split
      · split
        · exact .resets _ shaking.1
        · exact .resends _ shaking.1 (Nat.le_of_not_lt ‹_›)
      · exact .quiet (.refl _)
    · exact .quiet (.refl _)
  · split
    · rename_i ready
      unfold checkPingTimeout
      simp only
      split
      · split
        · exact .dies _ ready ‹_›
        · exact .pings _
      · exact .quiet (.refl _)
    · exact .quiet (.refl _)
  · split
    · exact .quiet (.giveUp (.inl rfl) _)
    · exact .quiet (.refl _)
  · exact .quiet (.giveUp (.inl rfl) _)
  · exact .quiet (.prepareReconnectCloud _)

end Steps

/-! ## Handshake messages -/

/-- A call of `init_handshake`. -/
def isInit (action : LinkAction) : Bool := action = .initHandshake

/-- A handshake message. -/
def isHandshake (action : LinkAction) : Bool := action = .sentHandshake1 ∨ action = .sentHandshake2

/-- The resend counter holds the number of handshake messages since the last call of
`init_handshake`, and keeps it small at every moment. -/
structure Handshakes (link : CloudLink) : Prop where
  counted : countSince isInit isHandshake link.done = link.handshake.resendCnt
  bounded : link.handshake.resendCnt ≤ 7
  waiting : link.handshake.status = .firstShakeSent → link.handshake.resendCnt ≤ 6
  throughout : Throughout (fun past => countSince isInit isHandshake past ≤ 7) link.done

section Handshakes

variable {link next : CloudLink} {now : UInt64}

theorem Handshakes.same (handshakes : Handshakes link) (handshake : next.handshake = link.handshake)
    (done : next.done = link.done) : Handshakes next := by
  obtain ⟨counted, bounded, waiting, throughout⟩ := handshakes
  refine ⟨?_, ?_, ?_, ?_⟩
  · rw [done, handshake]
    exact counted
  · rw [handshake]
    exact bounded
  · rw [handshake]
    exact waiting
  · rw [done]
    exact throughout

/-- Other actions do not count. -/
theorem Handshakes.does {action : LinkAction}
    (handshakes : Handshakes link) (other : isInit action = false)
    (notSent : isHandshake action = false) (handshake : next.handshake = link.handshake)
    (done : next.done = link.done ++ [action]) : Handshakes next := by
  have count : countSince isInit isHandshake next.done = link.handshake.resendCnt := by
    rw [done, countSince_snoc other, notSent, handshakes.counted]
    rfl
  refine ⟨?_, ?_, ?_, ?_⟩
  · rw [count, handshake]
  · rw [handshake]
    exact handshakes.bounded
  · rw [handshake]
    exact handshakes.waiting
  · rw [done] at count ⊢
    refine handshakes.throughout.snoc ?_
    rw [count]
    exact handshakes.bounded

theorem Handshakes.initHandshake (handshakes : Handshakes link) :
    Handshakes (initHandshake link) := by
  have count : countSince isInit isHandshake (link.done ++ [.initHandshake]) = 0 :=
    countSince_mark rfl
  refine ⟨count, Nat.zero_le _, fun _ => Nat.zero_le _, handshakes.throughout.snoc ?_⟩
  rw [count]
  exact Nat.zero_le _

/-- A message is sent while the counter leaves room for it. -/
theorem Handshakes.sendHandshake (handshakes : Handshakes link)
    {message : LinkAction} {status : HandshakeStatus} (sent : isHandshake message = true)
    (other : isInit message = false) (room : link.handshake.resendCnt ≤ 6)
    (waiting : status = .firstShakeSent → link.handshake.resendCnt ≤ 5) :
    Handshakes (sendHandshake message status now link) := by
  have count :
      countSince isInit isHandshake (link.done ++ [message]) = link.handshake.resendCnt + 1 := by
    rw [countSince_snoc other, sent, handshakes.counted]
    rfl
  refine ⟨count, Nat.succ_le_succ room, fun first => Nat.succ_le_succ (waiting first),
    handshakes.throughout.snoc ?_⟩
  rw [count]
  exact Nat.succ_le_succ room

theorem Handshakes.firstHandshake (handshakes : Handshakes link)
    (room : link.handshake.resendCnt ≤ 5) : Handshakes (firstHandshake now link) :=
  handshakes.sendHandshake rfl rfl (Nat.le_succ_of_le room) fun _ => room

theorem Handshakes.secondHandshake (handshakes : Handshakes link)
    (waiting : link.handshake.status = .firstShakeSent) : Handshakes (secondHandshake now link) :=
  handshakes.sendHandshake rfl rfl (handshakes.waiting waiting) fun first => nomatch first

/-- The status may change to one in which no reply to the first message is waited for. -/
theorem Handshakes.settle (handshakes : Handshakes link)
    (count : next.handshake.resendCnt = link.handshake.resendCnt) (done : next.done = link.done)
    (settled : next.handshake.status ≠ .firstShakeSent) : Handshakes next := by
  refine ⟨?_, ?_, fun first => absurd first settled, ?_⟩
  · rw [done, count]
    exact handshakes.counted
  · rw [count]
    exact handshakes.bounded
  · rw [done]
    exact handshakes.throughout

theorem Handshakes.opened (expiry : Int32) (handshakes : Handshakes link) :
    Handshakes (opened expiry link) :=
  handshakes.does rfl rfl rfl rfl

theorem Handshakes.step {event : LinkEvent} (handshakes : Handshakes link)
    (step : LinkStep link event next) : Handshakes next := by
  cases step with
  | quiet quiet => exact handshakes.same quiet.handshake quiet.done
  | provisions now expiry =>
    have connected := handshakes.opened expiry
    exact connected.does rfl rfl rfl rfl
  | shakes now expiry =>
    have shaken := (handshakes.opened expiry).initHandshake
    exact (shaken.firstHandshake (Nat.zero_le _)).same rfl rfl
  | fails => exact handshakes.settle rfl rfl nofun
  | shakesAgain now loaded message waiting => exact handshakes.secondHandshake waiting
  | completes => exact handshakes.settle rfl rfl nofun
  | provisioned now loaded message =>
    have adopted := Quiet.adoptId loaded message link
    have shaking : Handshakes (setCloudConnectionStatus .cloudHandshaking
        { adoptId loaded message link with provisionResendCnt := 0 }) :=
      handshakes.same adopted.handshake adopted.done
    exact shaking.initHandshake.firstHandshake (Nat.zero_le _)
  | pinged => exact handshakes.does rfl rfl rfl rfl
  | provisionsAgain => exact handshakes.does rfl rfl rfl rfl
  | givesUp => exact handshakes.does rfl rfl rfl rfl
  | resends now _ room => exact handshakes.firstHandshake room
  | resets =>
    have idle : Handshakes (setCloudConnectionStatus .readyToConnect link) :=
      handshakes.same rfl rfl
    exact idle.initHandshake
  | pings => exact handshakes.does rfl rfl rfl rfl
  | dies =>
    have lost := Quiet.prepareReconnectCloud link
    exact handshakes.does rfl rfl lost.handshake (congrArg (· ++ _) lost.done)

theorem Handshakes.start (id : Option CString) : Handshakes (start id) := by
  refine ⟨rfl, Nat.zero_le _, nofun, Throughout.nil ?_⟩
  exact Nat.zero_le _

/-- After a call of `init_handshake`, and before the next, at most seven messages are sent. -/
theorem Handshakes.between (handshakes : Handshakes link) {front middle back : List LinkAction}
    (history : link.done = front ++ .initHandshake :: middle ++ back)
    (clear : ∀ action ∈ middle, action ≠ .initHandshake) : middle.countP isHandshake ≤ 7 := by
  have small : countSince isInit isHandshake (front ++ .initHandshake :: middle) ≤ 7 :=
    handshakes.throughout _ ⟨back, history.symm⟩
  have unmarked : ∀ action ∈ middle, isInit action = false :=
    fun action member => decide_eq_false (clear action member)
  rwa [countSince_behind rfl unmarked] at small

end Handshakes

/-! ## The state machine -/

/-- A link that is ready for work has completed its handshake. -/
def ReadyShaken (link : CloudLink) : Prop :=
  link.cloudStatus = .readyForWork → link.handshake.status = .success

section Machine

variable {link next : CloudLink} {event : LinkEvent}

theorem ReadyShaken.step (shaken : ReadyShaken link) (step : LinkStep link event next) :
    ReadyShaken next := by
  cases step with
  | quiet quiet =>
    intro ready
    rw [quiet.handshake]
    rcases quiet.status with same | idle | error
    · exact shaken (same ▸ ready)
    · exact absurd (idle.symm.trans ready) nofun
    · exact absurd (error.symm.trans ready) nofun
  | provisions => exact nofun
  | shakes => exact nofun
  | fails now loaded message waiting =>
    intro ready
    exact absurd (waiting.symm.trans (shaken ready)) nofun
  | shakesAgain now loaded message waiting =>
    intro ready
    exact absurd (waiting.symm.trans (shaken ready)) nofun
  | completes => exact fun _ => rfl
  | provisioned => exact nofun
  | pinged => exact shaken
  | provisionsAgain => exact shaken
  | givesUp => exact nofun
  | resends now shaking =>
    intro ready
    exact absurd (shaking.symm.trans ready) nofun
  | resets => exact nofun
  | pings => exact shaken
  | dies now ready =>
    intro still
    exact absurd ((prepareReconnectCloud_ready ready).symm.trans still) nofun

/-- Only a completing reply takes a link into `S_Success`. -/
theorem LinkStep.completion (step : LinkStep link event next)
    (before : link.handshake.status ≠ .success) (after : next.handshake.status = .success) :
    ∃ now loaded message, event = .message now loaded message ∧
    Completes link.handshake.status message := by
  cases step with
  | quiet quiet => exact absurd (quiet.handshake ▸ after) before
  | completes now stamp loaded message completes => exact ⟨now, loaded, message, rfl, completes⟩
  | dies => exact absurd ((Quiet.prepareReconnectCloud link).handshake ▸ after) before
  | pinged => exact absurd after before
  | provisionsAgain => exact absurd after before
  | givesUp => exact absurd after before
  | pings => exact absurd after before
  | provisions => exact absurd after before
  | _ => exact absurd after nofun

/-- A reply that nobody waits for changes nothing. -/
theorem onHandshakeMessage_unexpected {now : UInt64}
    {loaded : Option CString} {message : IagentMessage}
    (first : ¬(message.tag = some tagHandshake1 ∧ link.handshake.status = .firstShakeSent))
    (second : ¬(message.tag = some tagHandshake2 ∧ link.handshake.status = .secondShakeSent)) :
    onHandshakeMessage now loaded message link = link := by
  unfold onHandshakeMessage
  split
  · rfl
  rename_i tag isTag
  split
  · rename_i isFirst
    rw [if_pos fun waiting => first ⟨isFirst ▸ isTag, waiting⟩]
  split
  · rename_i isSecond
    rw [if_pos fun waiting => second ⟨isSecond ▸ isTag, waiting⟩]
  · rfl

/-- What every event keeps, a run keeps. -/
theorem run_keeps {invariant : CloudLink → Prop}
    (step : ∀ {link next : CloudLink} {event : LinkEvent}, invariant link →
      LinkStep link event next → invariant next)
    (events : List LinkEvent) (initially : invariant link) : invariant (run events link) := by
  unfold run
  induction events generalizing link with
  | nil => exact initially
  | cons event rest ih =>
    rw [List.foldl_cons]
    exact ih (step initially (perform_step event link))

/-- The state machine of the link, after any run of events. -/
theorem run_sound (id : Option CString) (events : List LinkEvent) :
    ((run events (start id)).cloudStatus = .readyForWork →
      (run events (start id)).handshake.status = .success) ∧
    (∀ event, (run events (start id)).handshake.status ≠ .success →
      (perform event (run events (start id))).handshake.status = .success →
      ∃ now loaded message, event = .message now loaded message ∧
      Completes (run events (start id)).handshake.status message) ∧
    (∀ now loaded message, ¬(message.tag = some tagHandshake1 ∧
      (run events (start id)).handshake.status = .firstShakeSent) →
      ¬(message.tag = some tagHandshake2 ∧
      (run events (start id)).handshake.status = .secondShakeSent) →
      onHandshakeMessage now loaded message (run events (start id)) = run events (start id)) ∧
    ∀ front middle back, (run events (start id)).done = front ++ .initHandshake :: middle ++ back →
    (∀ action ∈ middle, action ≠ .initHandshake) → middle.countP isHandshake ≤ 7 := by
  have shaken : ReadyShaken (run events (start id)) := run_keeps ReadyShaken.step events nofun
  have handshakes : Handshakes (run events (start id)) :=
    run_keeps Handshakes.step events (Handshakes.start id)
  refine ⟨shaken, ?_, ?_, ?_⟩
  · intro event before after
    exact (perform_step event _).completion before after
  · intro now loaded message first second
    exact onHandshakeMessage_unexpected first second
  · intro front middle back history clear
    exact handshakes.between history clear

end Machine

end CloudLink

end Idrm.Agent
