import Idrm.Coap.Deliveries

/-!
# Uploads over a network that repeats

The server takes a repeated block for the one it has, but acknowledges it again; and the client,
which by then waits for the next block, finds no message with that id, looks the acknowledgement
up by its token, and gives the upload up because of its number. Only copies of the last message of
a long upload, and of answers to the last message, change nothing.
-/

namespace Idrm.Coap

open Idrm.Lib Option List

section RepeatedUploads

variable {A U E : Type} [DecidableEq A] {network : Network A U} {base link next : Link A U E}
  {request : Packet} {callback : U}
  {handler : Handler E} {mid : UInt16} {token : ShortBytes} {delivery : Delivery}
  {packet prepared served message : Packet} {app : E} {url : CString} {index : Nat}

/-! ## The two uploads -/

omit [DecidableEq A] in
/-- The response of an accepting handler is an answer to the packet. -/
theorem PreparedFor.answerTo (prepares : PreparedFor packet prepared)
    (accepts : Accepts handler) (sameMid : packet.mid = mid) (sameToken : packet.token = token) :
    AnswerTo mid token (answerOf (handler served app).1 prepared) := by
  have same := answerOf_same (handler served app).1 prepared
  obtain ⟨-, -, status⟩ := accepts.status served app
  refine ⟨(prepares.answer.answerOf _).carried status, accepts.isRequest _ _ _,
    same.type.trans prepares.type, ?_, ?_⟩
  · rw [same.mid, prepares.mid, sameMid]
  · rw [same.token, prepares.token, sameToken]

omit [DecidableEq A] in
/-- A block arrives with its message id and the token of the request. -/
theorem uploadBlock_header (uploadable : Uploadable request)
    (long : restMaxChunkSize < request.payload.length) (inside : index ≤ lastBlock request.payload)
    (arrives : Arrives (uploadBlock base.client request index) packet) :
    packet.mid = transferMid base.client index ∧ packet.token = request.token := by
  obtain ⟨block, -, -⟩ := @uploadBlock_message A U base.client request index uploadable long inside
  exact ⟨arrives.mid.trans block.mid, arrives.token.trans block.token⟩

/-- Behind the last block of a long upload. -/
theorem settles_long (uploadable : Uploadable request)
    (long : restMaxChunkSize < request.payload.length)
    (client : ReadyClient base.client (lastBlock request.payload))
    (unclaimed : ∀ r ∈ base.client.ongoingRequests, r.token ≠ request.token.bytes)
    (server : ReadyServer base.server network.clientAddr request handler)
    (arrives : Arrives (uploadBlock base.client request (lastBlock request.payload)) packet) :
    Settles network base request callback handler
      (transferMid base.client (lastBlock request.payload))
      (uploadWaiting network.serverAddr base.client request callback (lastBlock request.payload))
      ((base.server.withStore (withPeer network.clientAddr base.server.blockwise)).called
      { packet with payload := request.payload } handler)
      (answerOf (handler { packet with payload := request.payload } base.server.app).1
        (lastPrepared request.payload packet)) := by
  obtain ⟨-, bound⟩ := index_small uploadable.length (Nat.le_refl (lastBlock request.payload))
  obtain ⟨mid, token⟩ := uploadBlock_header uploadable long (Nat.le_refl _) arrives
  obtain ⟨-, put, -, path, -⟩ := uploadBlock_arrives uploadable long (Nat.le_refl _) arrives
  have prepares := (prepared_last bound packet).1
  refine ⟨prepares.answerTo server.accepts mid token, ?_, ?_, ?_⟩
  · exact ⟨fun t member => client.mids t member _ (Nat.le_refl _), unclaimed⟩
  · intro sent response back
    exact ⟨_, _, lastAnswer_completes uploadable long client server.accepts arrives back sent⟩
  · intro response nextPtr current back
    refine ⟨⟨rfl, rfl⟩, rfl, rfl, rfl, .inr rfl, _, response, rfl, rfl,
      put.trans uploadable.put.symm, path, rfl, rfl, ?_⟩
    exact (resultOf_answerOf _ prepares.fresh).arrives back

/-- Behind it the server answers copies of the last block, and takes nothing from them. -/
theorem stale_lastBlock (uploadable : Uploadable request)
    (long : restMaxChunkSize < request.payload.length)
    (server : ReadyServer base.server network.clientAddr request handler)
    (full : coapGetFullUrlAlloc request = some url) (served : Packet) :
    Stale network (transferMid base.client (lastBlock request.payload)) request.token
      ((base.server.withStore (withPeer network.clientAddr base.server.blockwise)).called
      served handler) [(network.serverAddr,
      udpMessage (uploadBlock base.client request (lastBlock request.payload)))] := by
  intro entry member
  refine ⟨_, mem_singleton.mp member, ?_⟩
  intro now back
  obtain ⟨-, bound⟩ := index_small uploadable.length (Nat.le_refl (lastBlock request.payload))
  obtain ⟨block, carried, -⟩ := @uploadBlock_message A U base.client request _ uploadable long
    (Nat.le_refl (lastBlock request.payload))
  obtain ⟨packet, arrives, serves⟩ :=
    @serverHandlePacket_carried A E _ _ carried (uploadBlock_isRequest uploadable block)
  obtain ⟨mid, token⟩ := uploadBlock_header uploadable long (Nat.le_refl _) arrives
  obtain ⟨confirmable, put, -, -, isBlock⟩ :=
    uploadBlock_arrives uploadable long (Nat.le_refl _) arrives
  have several : lastBlock request.payload ≠ 0 := by
    rw [restMaxChunkSize] at long
    rw [lastBlock]
    omega
  have check := checkBlockwiseTransferPut_unknown (isBlock url full) several (by omega)
    (findBlock_withPeer (server.absent url full)) now (acknowledgement packet)
  have refused : Answer (coapSetStatusCode badOption402 (acknowledgement packet)) :=
    (answer_acknowledgement packet).setStatusCode _
  refine ⟨coapSetStatusCode badOption402 (acknowledgement packet),
    ⟨refused.carried (by decide : badOption402 ≠ 0), rfl, rfl, mid, token⟩, ?_⟩
  rw [serves]
  exact coapRequestHandler_unknown confirmable put check

omit [DecidableEq A] in
theorem shortMessage_header (arrives : Arrives (shortMessage base.client request) packet) :
    packet.mid = transferMid base.client 0 ∧ packet.token = request.token :=
  ⟨arrives.mid, arrives.token⟩

/-- Behind the message of a short upload. -/
theorem settles_short (uploadable : Uploadable request)
    {messages : Nat} (client : ReadyClient base.client messages)
    (unclaimed : ∀ r ∈ base.client.ongoingRequests, r.token ≠ request.token.bytes)
    (server : ReadyServer base.server network.clientAddr request handler)
    (arrives : Arrives (shortMessage base.client request) packet) :
    Settles network base request callback handler (transferMid base.client 0)
      (waitingFor network.serverAddr (shortMessage base.client request)
      (.user (some callback)) (shortReady base.client)) (base.server.called packet handler)
      (answerOf (handler packet base.server.app).1 (acknowledgement packet)) := by
  obtain ⟨mid, token⟩ := shortMessage_header arrives
  have prepares := prepared_acknowledgement packet
  refine ⟨prepares.answerTo server.accepts mid token, ?_, ?_, ?_⟩
  · exact ⟨fun t member => client.mids t member 0 (Nat.zero_le _), unclaimed⟩
  · intro sent response back
    exact ⟨_, _, shortAnswer_completes uploadable client server.accepts arrives back sent⟩
  · intro response nextPtr current back
    refine ⟨⟨rfl, rfl⟩, rfl, rfl, rfl, .inl rfl, packet, response, rfl, arrives.payload,
      arrives.code, arrives.uriPath, rfl, rfl, ?_⟩
    exact (resultOf_answerOf _ prepares.fresh).arrives back

/-! ## Harmless copies -/

/-- A datagram whose receiver reads this message id. -/
def HasMid (mid : UInt16) (datagram : List UInt8) : Prop :=
  ∃ parsed, coapParseMessage datagram = some (.ok parsed) ∧ (received parsed).mid = mid

/-- The number of the last message of an upload. -/
def lastMessage (payload : List UInt8) : Nat := if payload.length ≤ restMaxChunkSize then 0
    else lastBlock payload

/-- A copy is left of the last message only, if it is one of several, and of answers to it. -/
def Harmless (base : Link A U E) (request : Packet) (delivery : Delivery)
    (link : Link A U E) : Prop :=
  delivery.again = true →
    (∀ entry, (link.inFlight delivery.way).head? = some entry →
      HasMid (transferMid base.client (lastMessage request.payload)) entry.2) ∧
    (delivery.way = .toServer → restMaxChunkSize < request.payload.length)

/-- A delivery that leaves harmless copies only. -/
def Network.HarmlessStep (network : Network A U) (base : Link A U E) (request : Packet)
    (link next : Link A U E) : Prop :=
  ∃ delivery, Harmless base request delivery link ∧ network.deliver delivery link = some next

omit [DecidableEq A] in
theorem Carried.hasMid_iff (carried : Carried message) : HasMid mid (udpMessage message) ↔
    message.mid = mid := by
  obtain ⟨parsed, parses, arrives⟩ := carried.arrives
  constructor
  · rintro ⟨other, parsesOther, same⟩
    rw [parses] at parsesOther
    cases parsesOther
    exact arrives.mid.symm.trans same
  · intro same
    exact ⟨parsed, parses, arrives.mid.trans same⟩

omit [DecidableEq A] in
/-- The messages of an upload have different ids. -/
theorem transferMid_inj {index other : Nat} (small : index < 65536) (bound : other < 65536)
    (same : transferMid base.client index = transferMid base.client other) : index = other := by
  have numbers := congrArg UInt16.toNat (UInt16.add_right_inj _ |>.mp same)
  rwa [UInt16.toNat_ofNat_of_lt' small, UInt16.toNat_ofNat_of_lt' bound] at numbers

omit [DecidableEq A] in
/-- Of another message no copy is left. -/
theorem Harmless.once {addr : A} (harmless : Harmless base request delivery link)
    (carried : Carried message)
    (front : (link.inFlight delivery.way).head? = some (addr, udpMessage message))
    (other : message.mid ≠ transferMid base.client (lastMessage request.payload)) :
    delivery.again = false := by
  by_contra copied
  have again : delivery.again = true := by simpa using copied
  obtain ⟨ofLast, -⟩ := harmless again
  exact other (carried.hasMid_iff.mp (ofLast _ front))

/-! ## What each delivery of a long upload does -/

/-- The next block of a long upload goes to the server. -/
theorem UploadRound.delivered (uploadable : Uploadable request)
    (long : restMaxChunkSize < request.payload.length)
    (server : ReadyServer base.server network.clientAddr request handler)
    (idle : base.server.txData = [])
    (full : coapGetFullUrlAlloc request = some url) (inside : index < lastBlock request.payload)
    (round : UploadRound network base request callback url index link)
    (harmless : Harmless base request delivery link)
    (delivered : network.deliver delivery link = some next) :
    UploadAcknowledged network base request callback url index next := by
  obtain ⟨store, stored, rfl⟩ := round
  obtain ⟨block, carried, -⟩ :=
    @uploadBlock_message A U base.client request index uploadable long (Nat.le_of_lt inside)
  obtain ⟨-, bound⟩ := index_small uploadable.length (Nat.le_refl (lastBlock request.payload))
  have last : lastMessage request.payload = lastBlock request.payload := if_neg (by omega)
  rcases Network.deliver_cases delivered with
    ⟨datagram, rest, after, way, flight, handled, rfl⟩ | ⟨datagram, rest, after, -, flight, -, -⟩
  · have front : udpMessage (uploadBlock base.client request index) = datagram := by
      cases flight
      rfl
    have once : delivery.again = false := by
      refine @Harmless.once A U E base _ request delivery _ network.serverAddr
        harmless carried ?_ ?_
      · rw [way, front]
        exact congrArg List.head? flight
      · rw [block.mid, last]
        intro same
        have equal := transferMid_inj (by omega) (by omega) same
        omega
    obtain ⟨packet, arrives, serves⟩ :=
      @serverHandlePacket_carried A E _ _ carried (uploadBlock_isRequest uploadable block)
    obtain ⟨nextStore, storedNext, keeps⟩ :=
      stored.keeps uploadable long server full inside delivery.now arrives
    rw [← front, serves, keeps] at handled
    cases handled
    refine ⟨nextStore, packet, storedNext, arrives, ?_⟩
    have left : delivery.leaves (launched network.serverAddr (uploadBlock base.client request index)
      (.put base.client.nextPtr) (uploadReady base.client request callback index)).txData = [] :=
      Delivery.leaves_once once
    rw [left]
    rfl
  · have empty : (base.server.withStore store).txData = [] := idle
    rw [empty] at flight
    cases flight

/-- Its acknowledgement goes to the client. -/
theorem UploadAcknowledged.delivered (uploadable : Uploadable request)
    (long : restMaxChunkSize < request.payload.length)
    (client : ReadyClient base.client (lastBlock request.payload)) (idle : base.server.txData = [])
    (inside : index < lastBlock request.payload)
    (acknowledged : UploadAcknowledged network base request callback url index link)
    (harmless : Harmless base request delivery link)
    (delivered : network.deliver delivery link = some next) :
    UploadRound network base request callback url (index + 1) next := by
  obtain ⟨store, packet, stored, arrives, rfl⟩ := acknowledged
  obtain ⟨-, small⟩ := index_small uploadable.length (Nat.le_of_lt inside)
  obtain ⟨-, bound⟩ := index_small uploadable.length (Nat.le_refl (lastBlock request.payload))
  obtain ⟨carried, noRequest⟩ := continued_carried small packet
  have last : lastMessage request.payload = lastBlock request.payload := if_neg (by omega)
  have number : (UInt32.ofNat index).toNat < 2 ^ 20 := by
    rw [UInt32.toNat_ofNat_of_lt' (Nat.lt_trans small (by decide))]
    omega
  have flying : ((base.server.withStore store).sent network.clientAddr
    (continued index (acknowledgement packet))).txData =
    [(network.clientAddr, udpMessage (continued index (acknowledgement packet)))] :=
    congrArg (· ++ _) idle
  rcases Network.deliver_cases delivered with
    ⟨datagram, rest, after, -, flight, -, -⟩ | ⟨datagram, rest, after, way, flight, handled, rfl⟩
  · cases flight
  · have front : udpMessage (continued index (acknowledgement packet)) = datagram := by
      rw [flying] at flight
      cases flight
      rfl
    have once : delivery.again = false := by
      refine @Harmless.once A U E base _ request delivery _ network.clientAddr
        harmless carried ?_ ?_
      · rw [way, front]
        exact congrArg List.head? flight
      · rw [(continued_acknowledges number packet).2,
          (uploadBlock_header uploadable long (Nat.le_of_lt inside) arrives).1, last]
        intro same
        have equal := transferMid_inj (by omega) (by omega) same
        omega
    obtain ⟨response, back, handles⟩ := @clientHandlePacket_carried A U _ carried noRequest
    rw [← front, handles, continued_advances uploadable long client inside arrives back] at handled
    cases handled
    refine ⟨store, stored, ?_⟩
    rw [flying, Delivery.leaves_once once]
    exact congrArg (Link.mk _)
      (@ServerContext.sent_delivered A E (base.server.withStore store) idle _ _)

/-- An upload whose server has called the handler. -/
def UploadSettling (network : Network A U) (base : Link A U E) (request : Packet) (callback : U)
    (handler : Handler E) (link : Link A U E) : Prop :=
  ∃ mid waiting server answer, Settles network base request callback handler mid waiting server
    answer ∧ Settling network base request callback mid waiting server answer link

/-- The last block goes to the server. -/
theorem UploadRound.delivered_last (uploadable : Uploadable request)
    (long : restMaxChunkSize < request.payload.length)
    (client : ReadyClient base.client (lastBlock request.payload))
    (unclaimed : ∀ r ∈ base.client.ongoingRequests, r.token ≠ request.token.bytes)
    (server : ReadyServer base.server network.clientAddr request handler)
    (idle : base.server.txData = []) (full : coapGetFullUrlAlloc request = some url)
    (round : UploadRound network base request callback url (lastBlock request.payload) link)
    (delivered : network.deliver delivery link = some next) :
    UploadSettling network base request callback handler next := by
  obtain ⟨store, stored, rfl⟩ := round
  obtain ⟨block, carried, -⟩ := @uploadBlock_message A U base.client request _ uploadable long
    (Nat.le_refl (lastBlock request.payload))
  rcases Network.deliver_cases delivered with
    ⟨datagram, rest, after, -, flight, handled, rfl⟩ | ⟨datagram, rest, after, -, flight, -, -⟩
  · have front :
        udpMessage (uploadBlock base.client request (lastBlock request.payload)) = datagram := by
      cases flight
      rfl
    obtain ⟨packet, arrives, serves⟩ :=
      @serverHandlePacket_carried A E _ _ carried (uploadBlock_isRequest uploadable block)
    rw [← front, serves, stored.calls uploadable long server full delivery.now arrives] at handled
    cases handled
    refine ⟨_, _, _, _, settles_long uploadable long client unclaimed server arrives, ?_⟩
    exact Settling.starts idle (stale_lastBlock uploadable long server full _).leaves
  · have empty : (base.server.withStore store).txData = [] := idle
    rw [empty] at flight
    cases flight

/-! ## Runs -/

/-- Where an upload over a network with harmless copies can be. -/
inductive Underway (network : Network A U) (base : Link A U E) (request : Packet) (callback : U)
    (handler : Handler E) (url : CString) (link : Link A U E) : Prop
  | sends {index : Nat} : index ≤ lastBlock request.payload →
      UploadRound network base request callback url index link →
      Underway network base request callback handler url link
  | acknowledges {index : Nat} : index < lastBlock request.payload →
      UploadAcknowledged network base request callback url index link →
      Underway network base request callback handler url link
  | settles : UploadSettling network base request callback handler link →
      Underway network base request callback handler url link

theorem Underway.step (uploadable : Uploadable request)
    (long : restMaxChunkSize < request.payload.length)
    (client : ReadyClient base.client (lastBlock request.payload))
    (unclaimed : ∀ r ∈ base.client.ongoingRequests, r.token ≠ request.token.bytes)
    (server : ReadyServer base.server network.clientAddr request handler)
    (idle : base.server.txData = []) (full : coapGetFullUrlAlloc request = some url)
    (uploading : Underway network base request callback handler url link)
    (step : network.HarmlessStep base request link next) :
    Underway network base request callback handler url next := by
  obtain ⟨delivery, harmless, delivered⟩ := step
  cases uploading with
  | @sends index inside round =>
    rcases Nat.lt_or_eq_of_le inside with before | rfl
    · exact .acknowledges before
        (round.delivered uploadable long server idle full before harmless delivered)
    · exact .settles
        (round.delivered_last uploadable long client unclaimed server idle full delivered)
  | acknowledges inside acknowledged =>
    exact .sends inside
      (acknowledged.delivered uploadable long client idle inside harmless delivered)
  | settles settling =>
    obtain ⟨mid, waiting, behind, answer, settles, settling⟩ := settling
    exact .settles ⟨mid, waiting, behind, answer, settles, (settling.delivered settles delivered).1⟩

theorem UploadSettling.uploaded
      (settling : UploadSettling network base request callback handler link) :
    Inevitably network.Step (Uploaded network base request callback handler) link := by
  obtain ⟨mid, waiting, server, answer, settles, settling⟩ := settling
  exact settling.uploaded settles

/-- From every round the upload comes to its result. -/
theorem UploadRound.uploaded (uploadable : Uploadable request)
    (long : restMaxChunkSize < request.payload.length)
    (client : ReadyClient base.client (lastBlock request.payload))
    (server : ReadyServer base.server network.clientAddr request handler)
    (idle : base.server.txData = [])
    (full : coapGetFullUrlAlloc request = some url) (inside : index ≤ lastBlock request.payload)
    (round : UploadRound network base request callback url index link) :
    Inevitably network.Step (Uploaded network base request callback handler) link := by
  have last : Inevitably network.Step (UploadRound network base request callback url
      (index + (lastBlock request.payload - index))) link := by
    refine @Inevitably.rounds _ network.Step _ (fun count => UploadRound network base request
      callback url (index + count))
      _ ?_ round
    intro count bound link there
    have before : index + count < lastBlock request.payload := by omega
    exact there.advances uploadable long client server idle full before
  rw [Nat.add_sub_cancel' inside] at last
  exact last.trans fun link round => round.completes uploadable long client server idle full

theorem Underway.uploaded (uploadable : Uploadable request)
    (long : restMaxChunkSize < request.payload.length)
    (client : ReadyClient base.client (lastBlock request.payload))
    (server : ReadyServer base.server network.clientAddr request handler)
    (idle : base.server.txData = []) (full : coapGetFullUrlAlloc request = some url)
    (uploading : Underway network base request callback handler url link) :
    Inevitably network.Step (Uploaded network base request callback handler) link := by
  cases uploading with
  | sends inside round => exact round.uploaded uploadable long client server idle full inside
  | acknowledges inside acknowledged =>
    exact (acknowledged.advances uploadable long client idle inside).trans fun link round =>
      round.uploaded uploadable long client server idle full inside
  | settles settling => exact settling.uploaded

/-- The message of a short upload goes to the server. -/
theorem short_delivered (uploadable : Uploadable request)
    (short : request.payload.length ≤ restMaxChunkSize)
    {messages : Nat} (client : ReadyClient base.client messages)
    (unclaimed : ∀ r ∈ base.client.ongoingRequests, r.token ≠ request.token.bytes)
    (server : ReadyServer base.server network.clientAddr request handler)
    (idle : base.server.txData = [])
    (sends : link = ⟨launched network.serverAddr (shortMessage base.client request)
      (.user (some callback)) (shortReady base.client), base.server⟩)
    (harmless : Harmless base request delivery link)
    (delivered : network.deliver delivery link = some next) :
    UploadSettling network base request callback handler next := by
  subst sends
  obtain ⟨carried, -⟩ := @shortMessage_carried A U base.client request uploadable short
  rcases Network.deliver_cases delivered with
    ⟨datagram, rest, after, way, flight, handled, rfl⟩ | ⟨datagram, rest, after, -, flight, -, -⟩
  · have front : udpMessage (shortMessage base.client request) = datagram := by
      cases flight
      rfl
    have once : delivery.again = false := by
      by_contra copied
      have long := (harmless (by simpa using copied)).2 way
      omega
    obtain ⟨packet, arrives, serves⟩ :=
      @serverHandlePacket_carried A E _ _ carried (shortMessage_isRequest uploadable)
    rw [← front, serves, short_called uploadable server short delivery.now arrives] at handled
    cases handled
    refine ⟨_, _, _, _, settles_short uploadable client unclaimed server arrives, ?_⟩
    have left : delivery.leaves (launched network.serverAddr (shortMessage base.client request)
      (.user (some callback)) (shortReady base.client)).txData = [] := Delivery.leaves_once once
    rw [left]
    exact Settling.starts idle fun _ member => absurd member not_mem_nil
  · rw [idle] at flight
    cases flight

/-- Whatever copies of the last message of a long upload and of answers to the last message are
delivered, and in whatever order: when copies are no longer made, the upload comes to one call of
the handler with its payload and one call of the user's callback with the handler's response. -/
theorem coapNonblockingPut_repeated (uploadable : Uploadable request)
    (client : ReadyClient base.client (lastBlock request.payload))
    (unclaimed : ∀ r ∈ base.client.ongoingRequests, r.token ≠ request.token.bytes)
    (server : ReadyServer base.server network.clientAddr request handler)
    (idle : base.client.txData = [] ∧ base.server.txData = []) : ∃ started,
    coapNonblockingPut network.serverAddr request (some callback) base.client = some started ∧
    ∀ link, Relation.ReflTransGen (network.HarmlessStep base request) ⟨started, base.server⟩ link →
    Inevitably network.Step (Uploaded network base request callback handler) link := by
  by_cases short : request.payload.length ≤ restMaxChunkSize
  · refine ⟨_, coapNonblockingPut_short uploadable short client idle.1, fun link run => ?_⟩
    have reached : link = ⟨launched network.serverAddr (shortMessage base.client request)
        (.user (some callback)) (shortReady base.client), base.server⟩ ∨
        UploadSettling network base request callback handler link := by
      induction run with
      | refl => exact .inl rfl
      | tail _ step ih =>
        obtain ⟨delivery, harmless, delivered⟩ := step
        rcases ih with sends | settling
        · exact .inr (short_delivered uploadable short client unclaimed server idle.2 sends
            harmless delivered)
        · obtain ⟨mid, waiting, behind, answer, settles, settling⟩ := settling
          exact .inr ⟨mid, waiting, behind, answer, settles,
            (settling.delivered settles delivered).1⟩
    rcases reached with rfl | settling
    · exact short_uploaded uploadable short client server idle.2
    · exact settling.uploaded
  · have long : restMaxChunkSize < request.payload.length := by omega
    obtain ⟨url, full⟩ := server.serves.fullUrl
    refine ⟨_, coapNonblockingPut_long uploadable long client idle.1, fun link run => ?_⟩
    have reached : Underway network base request callback handler url link := by
      induction run with
      | refl => exact .sends (Nat.zero_le _) ⟨_, rfl, rfl⟩
      | tail _ step ih =>
        exact ih.step uploadable long client unclaimed server idle.2 full step
    exact reached.uploaded uploadable long client server idle.2 full

/-! ## A repeated acknowledgement -/

/-- The client of an upload it has given up, whose last message nobody waits for. -/
def givenUp (addr : A) (base : ClientContext A U) (request : Packet) (callback : U) (index : Nat)
    (sent : List (A × List UInt8)) : ClientContext A U :=
  { base with
    transactions := base.transactions ++
      [{ sentTransaction 1 (base.nextPtr + 1 + 2 * index) addr (uploadBlock base request index) with
        ongoingRequest := none }]
    nextPtr := base.nextPtr + 1 + 2 * index + 2
    txData := sent
    env := ⟨transferMid base index, base.env.states, base.env.called ++ [(callback, none)]⟩ }

omit [DecidableEq A] in
/-- `2.31` for another block than the one that was sent ends the upload with nothing. -/
theorem coapNonblockingPutCallback_givesUp {ctx : ClientContext A U}
    {state : RequestState U} {response : Packet} {ptr : Nat} (found : stateAt ctx ptr = some state)
    (noReset : response.type ≠ .rst) (code : response.code = continue231) {block : Block}
    (option : coapGetHeaderBlock1 response = some block) (other : block.num ≠ state.blockNum) :
    coapNonblockingPutCallback ptr (some response) ctx = some (cleanupPut state ctx) := by
  have notCreated : response.code ≠ created201 := by
    rw [code]
    decide
  rw [coapNonblockingPutCallback, found, bind_some]
  simp only [if_neg noReset, option, getD_some, if_neg notCreated, ne_eq, other,
    not_false_eq_true, if_true]

/-- The response that acknowledges a block. -/
structure AcknowledgesBlock (base : ClientContext A U) (request : Packet) (index : Nat)
    (response : Packet) : Prop where
  type : response.type = .ack
  mid : response.mid = transferMid base index
  token : response.token = request.token
  code : response.code = continue231
  block : ∃ offset, coapGetHeaderBlock1 response = some ⟨UInt32.ofNat index, true, 1024, offset⟩

omit [DecidableEq A] in
theorem continued_arrives {response : Packet} (uploadable : Uploadable request)
    (long : restMaxChunkSize < request.payload.length) (inside : index < lastBlock request.payload)
    (arrives : Arrives (uploadBlock base.client request index) packet)
    (back : Arrives (continued index (acknowledgement packet)) response) :
    AcknowledgesBlock base.client request index response := by
  obtain ⟨value, bound⟩ := index_small uploadable.length (Nat.le_of_lt inside)
  obtain ⟨mid, token⟩ := uploadBlock_header uploadable long (Nat.le_of_lt inside) arrives
  have number : (UInt32.ofNat index).toNat < 2 ^ 20 := by omega
  obtain ⟨type, acknowledges⟩ := continued_acknowledges number packet
  have option : coapGetHeaderBlock1 (continued index (acknowledgement packet)) = _ :=
    getBlock1_setBlock1 number true (acknowledgement packet)
  refine ⟨back.type.trans type, (back.mid.trans acknowledges).trans mid, ?_, back.code,
    response.block1.offset, ?_⟩
  · rw [back.token, ← token, continued, coapSetHeaderBlock1_chunk number]
    rfl
  · rw [back.block1, option]
    rfl

omit [DecidableEq A] in
theorem AcknowledgesBlock.type_ne {response : Packet}
    (acknowledges : AcknowledgesBlock base.client request index response) :
    response.type ≠ .rst ∧ response.type ≠ .con := by
  rw [acknowledges.type]
  decide

/-- The client of a long upload behind the sending of a block. -/
def uploadSent (addr : A) (base : ClientContext A U) (request : Packet) (callback : U)
    (index : Nat) : ClientContext A U :=
  launched addr (uploadBlock base request index) (.put base.nextPtr)
    (uploadReady base request callback index)

section Sent

variable {addr : A}

omit [DecidableEq A] in
/-- Behind the next block, no transaction has the id of a block. -/
theorem uploadSent_otherMid (uploadable : Uploadable request)
    (long : restMaxChunkSize < request.payload.length)
    (client : ReadyClient base.client (lastBlock request.payload))
    (inside : index < lastBlock request.payload) :
    coapGetTransactionByMid (uploadSent addr base.client request callback (index + 1))
    (transferMid base.client index) = none := by
  obtain ⟨-, bound⟩ := index_small uploadable.length (Nat.le_of_lt inside)
  obtain ⟨block, -, -⟩ :=
    @uploadBlock_message A U base.client request (index + 1) uploadable long inside
  refine List.find?_eq_none.mpr fun t member => ?_
  rcases mem_append.mp member with before | last
  · have other := client.mids t before index (Nat.le_of_lt inside)
    simpa using other
  · rw [mem_singleton.mp last]
    have other :
        (uploadBlock base.client request (index + 1)).mid ≠ transferMid base.client index := by
      rw [block.mid]
      intro same
      have equal := transferMid_inj (by omega) (by omega) same
      omega
    exact fun same => other (of_decide_eq_true same)

omit [DecidableEq A] in
/-- But the block's request has the token of the upload. -/
theorem uploadSent_byToken (uploadable : Uploadable request)
    (long : restMaxChunkSize < request.payload.length)
    (unclaimed : ∀ r ∈ base.client.ongoingRequests, r.token ≠ request.token.bytes)
    (inside : index ≤ lastBlock request.payload) :
    coapFindOngoingRequest (uploadSent addr base.client request callback index)
      request.token.bytes = some (sentRequest (base.client.nextPtr + 1 + 2 * index)
      (uploadBlock base.client request index) (.put base.client.nextPtr)) := by
  obtain ⟨block, -, -⟩ := @uploadBlock_message A U base.client request index uploadable long inside
  have here : (uploadBlock base.client request index).token.bytes = request.token.bytes :=
    congrArg ShortBytes.bytes block.token
  rw [coapFindOngoingRequest]
  change (base.client.ongoingRequests ++ [_]).find? _ = _
  rw [List.find?_append, List.find?_eq_none.mpr fun r member => by simpa using unclaimed r member,
    none_or, List.find?_cons_of_pos (by exact decide_eq_true here)]
  rfl

omit [DecidableEq A] in
theorem uploadSent_holds (client : ReadyClient base.client (lastBlock request.payload)) :
    HoldsState (uploadSent addr base.client request callback index) base.client.env.states
      (uploadState base.client request callback index) := by
  obtain ⟨-, holds⟩ := @ReadyClient.uploadReady A U base.client request callback index _ client
  exact ⟨holds.states, holds.only⟩

omit [DecidableEq A] in
/-- The acknowledgement of the block before it makes the client tell the user nothing was
answered. -/
theorem uploadSent_cleanup {response : Packet} (uploadable : Uploadable request)
    (client : ReadyClient base.client (lastBlock request.payload))
    (inside : index < lastBlock request.payload)
    (acknowledges : AcknowledgesBlock base.client request index response) :
    coapNonblockingPutCallback base.client.nextPtr
      (some response) (uploadSent addr base.client request callback (index + 1)) = some
      ((uploadSent addr base.client request callback (index + 1)).withEnv ⟨transferMid base.client
      (index + 1), base.client.env.states, base.client.env.called ++ [(callback, none)]⟩) := by
  obtain ⟨value, bound⟩ := index_small uploadable.length (Nat.le_of_lt inside)
  obtain ⟨nextValue, -⟩ := @index_small request (index + 1) uploadable.length inside
  have other : UInt32.ofNat index ≠ UInt32.ofNat (index + 1) := by
    intro same
    have values := congrArg UInt32.toNat same
    omega
  have holds := @uploadSent_holds A U E base request callback (index + 1) addr client
  have told : HoldsState
    (callUser callback none (uploadSent addr base.client request callback (index + 1)))
    base.client.env.states (uploadState base.client request callback (index + 1)) :=
    ⟨holds.states, holds.only⟩
  obtain ⟨offset, block⟩ := acknowledges.block
  have found : stateAt (uploadSent addr base.client request callback (index + 1))
    base.client.nextPtr = _ := holds.stateAt
  rw [coapNonblockingPutCallback_givesUp found acknowledges.type_ne.1 acknowledges.code block other]
  exact congrArg some told.free

end Sent

omit [DecidableEq A] in
/-- The acknowledgement of a block that was acknowledged before ends the upload with nothing. -/
theorem coapHandleResponse_repeated {response : Packet} (uploadable : Uploadable request)
    (long : restMaxChunkSize < request.payload.length)
    (client : ReadyClient base.client (lastBlock request.payload))
    (unclaimed : ∀ r ∈ base.client.ongoingRequests, r.token ≠ request.token.bytes)
    (inside : index < lastBlock request.payload)
    (acknowledges : AcknowledgesBlock base.client request index response) :
    coapHandleResponse (runRequestCallback network.stops) network.serverAddr response
      (uploadSent network.serverAddr base.client request callback (index + 1)) =
      some (givenUp network.serverAddr base.client request callback (index + 1)
        [(network.serverAddr, udpMessage (uploadBlock base.client request (index + 1)))]) := by
  obtain ⟨block, -, -⟩ :=
    @uploadBlock_message A U base.client request (index + 1) uploadable long inside
  obtain ⟨allocated, -⟩ :=
    @ReadyClient.uploadReady A U base.client request callback (index + 1) _ client
  have waiting := @waitingFor_holds
    A _ _ (uploadReady base.client request callback (index + 1)) network.serverAddr
    (uploadBlock base.client request (index + 1)) (.put base.client.nextPtr) allocated
  have both : Holds ((uploadSent network.serverAddr base.client request callback
      (index + 1)).withEnv ⟨transferMid base.client (index + 1), base.client.env.states,
      base.client.env.called ++ [(callback, none)]⟩) base.client.transactions
      (sentTransaction 1 (base.client.nextPtr + 1 + 2 * (index + 1)) network.serverAddr
      (uploadBlock base.client request (index + 1)))
      [] base.client.ongoingRequests (sentRequest (base.client.nextPtr + 1 + 2 * (index + 1))
      (uploadBlock base.client request (index + 1)) (.put base.client.nextPtr)) [] :=
    ⟨waiting.transactions, waiting.requests, waiting.onlyTransaction, waiting.onlyRequest,
      waiting.toRequest, waiting.toTransaction⟩
  have once : (sentRequest (base.client.nextPtr + 1 + 2 * (index + 1))
      (uploadBlock base.client request (index + 1))
      (ClientCallback.put base.client.nextPtr : ClientCallback U)).observe = false :=
    (block.others .observe (by decide) (by decide)).trans uploadable.once
  have calls :
      runRequestCallback network.stops (sentRequest (base.client.nextPtr + 1 + 2 * (index + 1))
      (uploadBlock base.client request (index + 1)) (.put base.client.nextPtr)).callback (some
      response) (uploadSent network.serverAddr base.client request callback (index + 1)) = _ :=
    uploadSent_cleanup uploadable client inside acknowledges
  rw [coapHandleResponse, matchResponse, acknowledges.mid,
    uploadSent_otherMid uploadable long client inside]
  simp only [acknowledges.token, uploadSent_byToken uploadable long unclaimed inside]
  rw [calls, map_some, bind_some, if_neg acknowledges.type_ne.2, if_pos (.inl once), both.freed]
  simp only [append_nil]
  rfl

/-- A block is taken, and its acknowledgement delivered twice: the callback gets nothing. -/
theorem UploadRound.givesUp (uploadable : Uploadable request)
    (long : restMaxChunkSize < request.payload.length)
    (client : ReadyClient base.client (lastBlock request.payload))
    (unclaimed : ∀ r ∈ base.client.ongoingRequests, r.token ≠ request.token.bytes)
    (server : ReadyServer base.server network.clientAddr request handler)
    (idle : base.server.txData = [])
    (full : coapGetFullUrlAlloc request = some url) (inside : index < lastBlock request.payload)
    (round : UploadRound network base request callback url index link) (later : List Delivery) :
    ∃ store, StoredBlocks network.clientAddr base.server.blockwise request.payload url
      (index + 1) store ∧ network.deliverAll
      (⟨.toServer, false, 0⟩ :: ⟨.toClient, true, 0⟩ :: ⟨.toClient, false, 0⟩ :: later) link =
      network.deliverAll later ⟨givenUp network.serverAddr base.client request callback (index + 1)
      [(network.serverAddr, udpMessage (uploadBlock base.client request (index + 1)))],
      base.server.withStore store⟩ := by
  obtain ⟨before, stored, rfl⟩ := round
  obtain ⟨-, bound⟩ := index_small uploadable.length (Nat.le_of_lt inside)
  obtain ⟨block, carried, -⟩ :=
    @uploadBlock_message A U base.client request index uploadable long (Nat.le_of_lt inside)
  obtain ⟨packet, arrives, serves⟩ :=
    @serverHandlePacket_carried A E _ _ carried (uploadBlock_isRequest uploadable block)
  obtain ⟨store, storedNext, keeps⟩ := stored.keeps uploadable long server full inside 0 arrives
  obtain ⟨answer, noRequest⟩ := continued_carried bound packet
  obtain ⟨response, back, handles⟩ := @clientHandlePacket_carried A U _ answer noRequest
  have first := (handles network.stops network.serverAddr
    (uploadWaiting network.serverAddr base.client request callback index)).trans
      (continued_advances uploadable long client inside arrives back)
  have second := (handles network.stops network.serverAddr _).trans
    (@coapHandleResponse_repeated A U E network base request callback index response uploadable long
    client unclaimed inside (continued_arrives uploadable long inside arrives back))
  refine ⟨store, storedNext, ?_⟩
  have flight : ((base.server.withStore store).sent network.clientAddr
    (continued index (acknowledgement packet))).txData =
    [(network.clientAddr, udpMessage (continued index (acknowledgement packet)))] :=
    congrArg (· ++ _) idle
  have one : network.deliver ⟨.toServer, false, 0⟩ ⟨launched network.serverAddr
      (uploadBlock base.client request index) (.put base.client.nextPtr)
      (uploadReady base.client request callback index), base.server.withStore before⟩ =
      some ⟨uploadWaiting network.serverAddr base.client request callback index,
      (base.server.withStore store).sent network.clientAddr
      (continued index (acknowledgement packet))⟩ :=
    Network.deliver_toServer false rfl ((serves 0 _ _).trans keeps)
  have two : network.deliver ⟨.toClient, true, 0⟩ ⟨uploadWaiting network.serverAddr
      base.client request callback index, (base.server.withStore store).sent network.clientAddr
      (continued index (acknowledgement packet))⟩ = some ⟨launched network.serverAddr
      (uploadBlock base.client request (index + 1)) (.put base.client.nextPtr)
      (uploadReady base.client request callback (index + 1)), (base.server.withStore store).withSent
      [(network.clientAddr, udpMessage (continued index (acknowledgement packet)))]⟩ :=
    Network.deliver_toClient true 0 flight first
  have three : network.deliver ⟨.toClient, false, 0⟩ ⟨launched network.serverAddr
      (uploadBlock base.client request (index + 1)) (.put base.client.nextPtr)
      (uploadReady base.client request callback (index + 1)), (base.server.withStore store).withSent
      [(network.clientAddr, udpMessage (continued index (acknowledgement packet)))]⟩ =
      some ⟨givenUp network.serverAddr base.client request callback (index + 1)
      [(network.serverAddr, udpMessage (uploadBlock base.client request (index + 1)))],
      (base.server.withStore store).withSent []⟩ :=
    Network.deliver_toClient false 0 rfl second
  have emptied : (base.server.withStore store).withSent [] = base.server.withStore store := by
    rw [ServerContext.withSent, ← idle]
    rfl
  rw [Network.deliverAll_cons _ one, Network.deliverAll_cons _ two,
    Network.deliverAll_cons _ three, emptied]

omit [DecidableEq A] in
/-- The acknowledgement of its last message only ends the client's transaction. -/
theorem coapHandleResponse_givenUp {response : Packet} (uploadable : Uploadable request)
    (long : restMaxChunkSize < request.payload.length)
    (client : ReadyClient base.client (lastBlock request.payload))
    (inside : index < lastBlock request.payload)
    (acknowledges : AcknowledgesBlock base.client request index response)
    (sent : List (A × List UInt8)) :
    coapHandleResponse (runRequestCallback network.stops) network.serverAddr response
      (givenUp network.serverAddr base.client request callback index sent) =
      some { givenUp network.serverAddr base.client request callback index sent with
        transactions := base.client.transactions } := by
  obtain ⟨block, -, -⟩ :=
    @uploadBlock_message A U base.client request index uploadable long (Nat.le_of_lt inside)
  have responseMid : response.mid = (uploadBlock base.client request index).mid :=
    acknowledges.mid.trans block.mid.symm
  have own := @uploadBlock_ownMid A U base.client request callback index uploadable long client
    (Nat.le_of_lt inside)
  obtain ⟨allocated, -⟩ := @ReadyClient.uploadReady A U base.client request callback index _ client
  generalize ends : ({ sentTransaction 1 (base.client.nextPtr + 1 + 2 * index) network.serverAddr
    (uploadBlock base.client request index) with ongoingRequest := none } : Transaction A) = ended
  have only : OnlyAt Transaction.ptr ended.ptr base.client.transactions ended [] := by
    rw [← ends]
    exact ⟨rfl, fun other member => Nat.ne_of_lt (allocated.transactions other member),
      fun _ member => absurd member not_mem_nil⟩
  have transactions :
      (givenUp network.serverAddr base.client request callback index sent).transactions =
      base.client.transactions ++ [ended] := by
    rw [← ends]
    rfl
  have found : coapGetTransactionByMid (givenUp network.serverAddr base.client request callback
      index sent) response.mid = some ended := by
    rw [coapGetTransactionByMid, transactions, List.find?_append,
      List.find?_eq_none.mpr fun other member => by simpa [responseMid] using own other member,
      none_or, List.find?_cons_of_pos (by rw [← ends]; exact decide_eq_true responseMid.symm)]
  have noRequest : ended.ongoingRequest = none := by rw [← ends]
  rw [coapHandleResponse, matchResponse, found]
  simp only [CoapContext.requestAt, noRequest, bind_none, bind_some, coapClearTransaction,
    if_neg acknowledges.type_ne.2]
  rw [transactions, only.filter, append_nil]

/-- What is then on its way changes nothing any more. -/
theorem givenUp_delivered {store : BlockStore A} (uploadable : Uploadable request)
    (long : restMaxChunkSize < request.payload.length)
    (client : ReadyClient base.client (lastBlock request.payload))
    (server : ReadyServer base.server network.clientAddr request handler)
    (idle : base.server.txData = [])
    (full : coapGetFullUrlAlloc request = some url) (inside : index < lastBlock request.payload)
    (stored : StoredBlocks network.clientAddr base.server.blockwise request.payload
      url index store) : ∃ final, network.deliverAll [⟨.toServer, false, 0⟩, ⟨.toClient, false, 0⟩]
      ⟨givenUp network.serverAddr base.client request callback index
      [(network.serverAddr, udpMessage (uploadBlock base.client request index))],
      base.server.withStore store⟩ = some final ∧
      final.client.txData = [] ∧ final.server.txData = [] ∧
      final.server.handled = base.server.handled ∧
      final.client.env.called = base.client.env.called ++ [(callback, none)] := by
  obtain ⟨-, bound⟩ := index_small uploadable.length (Nat.le_of_lt inside)
  obtain ⟨block, carried, -⟩ :=
    @uploadBlock_message A U base.client request index uploadable long (Nat.le_of_lt inside)
  obtain ⟨packet, arrives, serves⟩ :=
    @serverHandlePacket_carried A E _ _ carried (uploadBlock_isRequest uploadable block)
  obtain ⟨nextStore, -, keeps⟩ := stored.keeps uploadable long server full inside 0 arrives
  obtain ⟨answer, noRequest⟩ := continued_carried bound packet
  obtain ⟨response, back, handles⟩ := @clientHandlePacket_carried A U _ answer noRequest
  have flight : ((base.server.withStore nextStore).sent network.clientAddr
    (continued index (acknowledgement packet))).txData =
    [(network.clientAddr, udpMessage (continued index (acknowledgement packet)))] :=
    congrArg (· ++ _) idle
  have ended := (handles network.stops network.serverAddr _).trans
    (@coapHandleResponse_givenUp A U E network base request callback index response uploadable long
    client inside (continued_arrives uploadable long inside arrives back) [])
  have one : network.deliver ⟨.toServer, false, 0⟩ ⟨givenUp network.serverAddr base.client request
      callback index [(network.serverAddr, udpMessage (uploadBlock base.client request index))],
      base.server.withStore store⟩ = some ⟨givenUp network.serverAddr base.client
      request callback index [], (base.server.withStore nextStore).sent network.clientAddr
      (continued index (acknowledgement packet))⟩ :=
    Network.deliver_toServer false rfl ((serves 0 _ _).trans keeps)
  have two : network.deliver ⟨.toClient, false, 0⟩ ⟨givenUp network.serverAddr base.client
      request callback index [], (base.server.withStore nextStore).sent network.clientAddr
      (continued index (acknowledgement packet))⟩ = some
      ⟨{ givenUp network.serverAddr base.client request callback index [] with
        transactions := base.client.transactions },
      (base.server.withStore nextStore).withSent []⟩ :=
    Network.deliver_toClient false 0 flight ended
  exact ⟨_, (Network.deliverAll_cons _ one).trans (Network.deliverAll_cons [] two),
    rfl, rfl, rfl, rfl⟩

end RepeatedUploads

/-- The payload of two blocks over a network that repeats nothing harmful. -/
theorem coapNonblockingPut_repeated_twoBlocks : ∃ started, coapNonblockingPut
      sampleNetwork.serverAddr (sampleUpload twoBlocks) (some ()) sampleLink.client = some started ∧
      ∀ link, Relation.ReflTransGen (sampleNetwork.HarmlessStep sampleLink (sampleUpload twoBlocks))
        ⟨started, sampleLink.server⟩ link → Inevitably sampleNetwork.Step
        (Uploaded sampleNetwork sampleLink (sampleUpload twoBlocks) () sampleHandler) link :=
  coapNonblockingPut_repeated sampleUpload_uploadable (sampleLink_client _)
    (fun _ member => absurd member not_mem_nil) (sampleLink_server _) ⟨rfl, rfl⟩

/-- Of the payload of two blocks, the first block's acknowledgement is delivered twice, everything
else once: the handler is not called, and the callback gets nothing. -/
theorem coapNonblockingPut_repeatedAck_fails : ∃ started final, coapNonblockingPut
      sampleNetwork.serverAddr (sampleUpload twoBlocks) (some ()) sampleLink.client = some started ∧
      sampleNetwork.deliverAll [⟨.toServer, false, 0⟩, ⟨.toClient, true, 0⟩, ⟨.toClient, false, 0⟩,
        ⟨.toServer, false, 0⟩, ⟨.toClient, false, 0⟩] ⟨started, sampleLink.server⟩ = some final ∧
      final.client.txData = [] ∧ final.server.txData = [] ∧ final.server.handled = [] ∧
      final.client.env.called = [((), none)] := by
  have long : restMaxChunkSize < (sampleUpload twoBlocks).payload.length := by decide +kernel
  have last : lastBlock (sampleUpload twoBlocks).payload = 2 := by decide +kernel
  have client := sampleLink_client (lastBlock (sampleUpload twoBlocks).payload)
  obtain ⟨url, full⟩ := (sampleLink_server twoBlocks).serves.fullUrl
  obtain ⟨store, stored, first⟩ := @UploadRound.givesUp Bool Unit
    Unit _ sampleNetwork sampleLink _ _ () sampleHandler url 0 sampleUpload_uploadable long client
    (fun _ member => absurd member not_mem_nil) (sampleLink_server twoBlocks) rfl full
    (by omega) ⟨_, rfl, rfl⟩ [⟨.toServer, false, 0⟩, ⟨.toClient, false, 0⟩]
  obtain ⟨final, delivered, clientIdle, serverIdle, handled, called⟩ :=
    @givenUp_delivered Bool Unit Unit _ sampleNetwork sampleLink
    _ () sampleHandler url 1 store sampleUpload_uploadable long client
    (sampleLink_server twoBlocks) rfl full (by omega) stored
  exact ⟨_, final, coapNonblockingPut_long sampleUpload_uploadable long client rfl,
    first.trans delivered, clientIdle, serverIdle, handled, called⟩

end Idrm.Coap
