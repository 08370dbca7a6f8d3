import Idrm.Agent.CloudLink
import Idrm.Lib.Run

/-!
# Retries of a connection

`ping.c` and `provision.c` count their messages in statics that outlive the connection.
The counters hold what the current connection has sent as long as every connection is
opened with counters at zero; `check_ping_timeout` and `check_provision_timeout` are then
fair to each connection.
-/

namespace Idrm.Agent

open Idrm.Lib List

namespace CloudLink

def isConnected (action : LinkAction) : Bool := action = .connected

/-- From here on, no ping is unanswered yet. -/
def isFresh (action : LinkAction) : Bool := action = .connected ∨ action = .gotPing

def isPing (action : LinkAction) : Bool := action = .sentPing

def isProvision (action : LinkAction) : Bool := action = .sentProvision

/-- What was done last was fair: a link is declared dead after three unanswered pings of
its connection, and given up in provision after the first request and five resends. -/
def Fair (history : List LinkAction) : Prop :=
  ∀ past action, history = past ++ [action] →
    (action = .declaredDead → 3 ≤ countSince isFresh isPing past) ∧
    (action = .provisionGivenUp → countSince isConnected isProvision past = 6)

/-- The retry budgets were kept at every moment. -/
def RetryBudgets (link : CloudLink) : Prop := Throughout Fair link.done

/-- A connection is opened with both counters at zero; that of provision matters only
without an agent id. -/
def OpensFresh (link : CloudLink) : LinkEvent → Prop
  | .connect _ _ opened => link.cloudStatus = .readyToConnect → opened = true →
      link.pingResendCnt = 0 ∧ (link.selfAgentId = none → link.provisionResendCnt = 0)
  | _ => True

/-- The counters hold no more than the connection has sent. -/
structure Retries (link : CloudLink) : Prop where
  pings : link.pingResendCnt ≤ countSince isFresh isPing link.done
  provisions : link.cloudStatus = .cloudProvisioning →
    countSince isConnected isProvision link.done = link.provisionResendCnt ∧
    link.provisionResendCnt ≤ 6
  budgets : RetryBudgets link

section Retries

variable {link next : CloudLink} {event : LinkEvent}

/-- An action that starts and ends no connection and asks for no provision. -/
def isHarmless : LinkAction → Bool
  | .connected | .sentProvision | .provisionGivenUp | .declaredDead => false
  | _ => true

variable {action : LinkAction}

theorem Fair.last {history : List LinkAction}
    (unanswered : action = .declaredDead → 3 ≤ countSince isFresh isPing history)
    (sent : action = .provisionGivenUp → countSince isConnected isProvision history = 6) :
    Fair (history ++ [action]) := by
  intro past last same
  obtain ⟨rfl, single⟩ := append_inj' same rfl
  obtain rfl := singleton_inj.mp single
  exact ⟨unanswered, sent⟩

/-- An action that marks no fresh start does not lower the count of pings. -/
theorem countSince_isFresh_le {history : List LinkAction} (stale : isFresh action = false) :
    countSince isFresh isPing history ≤ countSince isFresh isPing (history ++ [action]) := by
  rw [countSince_snoc stale]
  exact Nat.le_add_right _ _

/-- Nothing is done. -/
theorem Retries.quiet (retries : Retries link) (quiet : Quiet link next) : Retries next := by
  obtain ⟨pings, provisions, budgets⟩ := retries
  refine ⟨?_, ?_, ?_⟩
  · rw [quiet.ping, quiet.done]
    exact pings
  · intro provisioning
    rw [quiet.provision, quiet.done]
    rcases quiet.status with same | idle | error
    · exact provisions (same ▸ provisioning)
    · exact absurd (idle.symm.trans provisioning) nofun
    · exact absurd (error.symm.trans provisioning) nofun
  · rw [RetryBudgets, quiet.done]
    exact budgets

/-- Something harmless is done. -/
theorem Retries.does (retries : Retries link) (done : next.done = link.done ++ [action])
    (harmless : isHarmless action = true)
    (pings : next.pingResendCnt ≤ countSince isFresh isPing (link.done ++ [action]))
    (provisions : next.cloudStatus = .cloudProvisioning →
      link.cloudStatus = .cloudProvisioning ∧ next.provisionResendCnt = link.provisionResendCnt) :
    Retries next := by
  have plain : isConnected action = false ∧ isProvision action = false := by
    cases action <;> first | exact ⟨rfl, rfl⟩ | cases harmless
  refine ⟨done ▸ pings, ?_, ?_⟩
  · intro provisioning
    obtain ⟨before, same⟩ := provisions provisioning
    rw [done, countSince_snoc plain.1, plain.2, same]
    exact retries.provisions before
  · rw [RetryBudgets, done]
    refine retries.budgets.snoc (.last ?_ ?_)
    · rintro rfl
      cases harmless
    · rintro rfl
      cases harmless

/-- A handshake is started, outside provision. -/
theorem Retries.shakes (now : UInt64)
    (retries : Retries link) (outside : link.cloudStatus ≠ .cloudProvisioning) :
    Retries (firstHandshake now (initHandshake link)) := by
  have started : Retries (initHandshake link) :=
    retries.does rfl rfl (retries.pings.trans (countSince_isFresh_le rfl)) fun inside =>
      absurd inside outside
  exact started.does rfl rfl (started.pings.trans (countSince_isFresh_le rfl)) fun inside =>
    absurd inside outside

/-- A connection is opened with no ping counted. -/
theorem Retries.opened (expiry : Int32) (retries : Retries link) (fresh : link.pingResendCnt = 0) :
    Retries (opened expiry link) := by
  refine ⟨fresh.trans_le (Nat.zero_le _), nofun, retries.budgets.snoc (.last nofun nofun)⟩

/-- A provision request is sent while the counter leaves room for it. -/
theorem Retries.initProvision {now : UInt64} (retries : Retries link)
    (counted : countSince isConnected isProvision link.done = link.provisionResendCnt)
    (room : link.provisionResendCnt ≤ 5) : Retries (initProvision now link) := by
  have count : countSince isConnected isProvision (link.done ++ [.sentProvision]) =
      link.provisionResendCnt + 1 := by
    rw [countSince_snoc rfl, counted]
    rfl
  refine ⟨?_, ?_, ?_⟩
  · exact retries.pings.trans (countSince_isFresh_le rfl)
  · exact fun _ => ⟨count, Nat.succ_le_succ room⟩
  · exact retries.budgets.snoc (.last nofun nofun)

theorem Retries.step (retries : Retries link) (fresh : OpensFresh link event)
    (step : LinkStep link event next) : Retries next := by
  cases step with
  | quiet quiet => exact retries.quiet quiet
  | provisions now expiry idle unknown =>
    obtain ⟨noPing, noProvision⟩ := fresh idle rfl
    have connected := retries.opened expiry noPing
    have counted :
        countSince isConnected isProvision (link.done ++ [.connected]) = link.provisionResendCnt :=
      (countSince_mark rfl).trans (noProvision unknown).symm
    have room : link.provisionResendCnt ≤ 5 := (noProvision unknown).trans_le (Nat.zero_le _)
    have provisioning :
        Retries (setCloudConnectionStatus .cloudProvisioning (CloudLink.opened expiry link)) :=
      ⟨connected.pings, fun _ => ⟨counted, Nat.le_succ_of_le room⟩, connected.budgets⟩
    exact provisioning.initProvision counted room
  | shakes now expiry idle =>
    have shaken := (retries.opened expiry (fresh idle rfl).1).shakes now nofun
    exact ⟨shaken.pings, nofun, shaken.budgets⟩
  | fails => exact ⟨retries.pings, retries.provisions, retries.budgets⟩
  | shakesAgain =>
    exact retries.does rfl rfl (retries.pings.trans (countSince_isFresh_le rfl))
      fun inside => ⟨inside, rfl⟩
  | completes => exact ⟨retries.pings, nofun, retries.budgets⟩
  | provisioned now loaded message =>
    have adopted := retries.quiet (Quiet.adoptId loaded message link)
    have shaking : Retries (setCloudConnectionStatus .cloudHandshaking
        { CloudLink.adoptId loaded message link with provisionResendCnt := 0 }) :=
      ⟨adopted.pings, nofun, adopted.budgets⟩
    exact shaking.shakes now nofun
  | pinged => exact retries.does rfl rfl (Nat.zero_le _) fun inside => ⟨inside, rfl⟩
  | provisionsAgain now provisioning room =>
    exact retries.initProvision (retries.provisions provisioning).1 room
  | givesUp now provisioning spent =>
    obtain ⟨counted, bounded⟩ := retries.provisions provisioning
    refine ⟨retries.pings.trans (countSince_isFresh_le rfl), nofun,
      retries.budgets.snoc (.last nofun fun _ => ?_)⟩
    rw [counted]
    exact Nat.le_antisymm bounded spent
  | resends now shaking =>
    exact retries.does rfl rfl (retries.pings.trans (countSince_isFresh_le rfl))
      fun inside => ⟨inside, rfl⟩
  | resets now shaking =>
    exact retries.does rfl rfl (retries.pings.trans (countSince_isFresh_le rfl)) nofun
  | pings =>
    have counted : countSince isFresh isPing (link.done ++ [.sentPing]) =
        countSince isFresh isPing link.done + 1 :=
      countSince_snoc rfl
    exact retries.does rfl rfl (counted ▸ Nat.succ_le_succ retries.pings)
      fun inside => ⟨inside, rfl⟩
  | dies now ready spent =>
    -- The state loses the connection first; only then is the death recorded.
    have lost := retries.quiet (Quiet.prepareReconnectCloud link)
    have unanswered := spent.trans retries.pings
    rw [← (Quiet.prepareReconnectCloud link).done] at unanswered
    refine ⟨Nat.zero_le _, ?_, lost.budgets.snoc (.last (fun _ => unanswered) nofun)⟩
    intro provisioning
    exact absurd ((prepareReconnectCloud_ready ready).symm.trans provisioning) nofun

theorem Retries.start (id : Option CString) : Retries (start id) := by
  refine ⟨Nat.zero_le _, nofun, Throughout.nil ?_⟩
  intro past action empty
  exact absurd empty.symm (append_ne_nil_of_right_ne_nil past (cons_ne_nil action []))

end Retries

/-- An event, as a call that always has a result. -/
def takes (event : LinkEvent) (link : CloudLink) : Option CloudLink := some (perform event link)

/-- Where every connection is opened with fresh counters, each has its own retry budgets. -/
theorem retryBudgets_of_opensFresh {id : Option CString}
    {events : List LinkEvent} {final : CloudLink}
    (runs : RunsUnder takes OpensFresh (start id) events final) : RetryBudgets final := by
  refine (runs.keeps (fun retries fresh took => ?_) (Retries.start id)).budgets
  obtain rfl := Option.some.inj took
  exact retries.step fresh (perform_step _ _)

/-- The agent id `"a"`. -/
def someId : CString := ⟨[0x61], by decide⟩

/-- A reply that accepts the first handshake. -/
def accepted : IagentMessage := ⟨some tagHandshake1, some 1, none⟩

/-- A connection dies of three unanswered pings and the next one is opened. -/
def pingedToDeath : List LinkEvent :=
  [.connect 100 30 true, .message 101 (some someId) accepted, .pingCheck 110, .pingCheck 140,
    .pingCheck 170, .pingCheck 200, .cleanup, .connect 210 30 true]

theorem retryBudgets_pingedToDeath : RetryBudgets (run pingedToDeath (start (some someId))) := by
  refine @retryBudgets_of_opensFresh (some someId) pingedToDeath _ ?_
  have again : OpensFresh (run (pingedToDeath.take 7) (start (some someId)))
      (.connect 210 30 true) :=
    fun _ _ => ⟨rfl, nofun⟩
  refine .call (fun _ _ => ⟨rfl, nofun⟩) rfl
    (.call trivial rfl (.call trivial rfl (.call trivial rfl ?_)))
  exact .call trivial rfl (.call trivial rfl (.call trivial rfl (.call again rfl (.done _))))

/-- Two pings go out, `recv` finds the connection closed, and the next one is pinged once. -/
def pingedOnce : List LinkEvent :=
  [.connect 100 30 true,
    .message 101 (some someId) accepted, .pingCheck 110, .pingCheck 140, .recvClosed,
    .connect 150 30 true, .message 151 (some someId) accepted, .pingCheck 180, .pingCheck 210]

/-- A connection uses up its provision requests and the next one is opened. -/
def provisionedOnce : List LinkEvent :=
  [.connect 100 30 true,
    .provisionCheck 116, .provisionCheck 132, .provisionCheck 148, .provisionCheck 164,
    .provisionCheck 180, .provisionCheck 196, .connect 210 30 true, .provisionCheck 226]

theorem run_pingedOnce : (run pingedOnce (start (some someId))).done = [.connected, .initHandshake,
      .sentHandshake1, .sentPing, .sentPing, .connected, .initHandshake, .sentHandshake1,
      .sentPing] ++ [.declaredDead] := by
  decide

theorem run_provisionedOnce : (run provisionedOnce (start none)).done = [.connected, .sentProvision,
      .sentProvision, .sentProvision, .sentProvision, .sentProvision, .sentProvision,
      .provisionGivenUp, .connected, .sentProvision] ++ [.provisionGivenUp] := by
  decide

/-- The second connection is declared dead after one ping of its own; another second
connection is given up without a resend. -/
theorem retryBudgets_reconnect_fails : ¬RetryBudgets (run pingedOnce (start (some someId))) ∧
    ¬RetryBudgets (run provisionedOnce (start none)) := by
  constructor
  · intro budgets
    have unanswered := (budgets.now _ _ run_pingedOnce).1 rfl
    exact absurd unanswered (by decide)
  · intro budgets
    have sent := (budgets.now _ _ run_provisionedOnce).2 rfl
    exact absurd sent (by decide)

end CloudLink

end Idrm.Agent
