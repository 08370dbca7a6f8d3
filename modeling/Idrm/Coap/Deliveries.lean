import Idrm.Coap.Upload

/-!
# A network that repeats

The first datagram of a direction may be handed over any number of times before the next one. An
upload whose handler was called is at its end: what is on its way then are the answer, copies of
it, requests the server takes nothing from, and the answers to these, of which the client takes
only the first.
-/

namespace Idrm.Coap

open Idrm.Lib Option List

section Repeats

variable {A U E : Type} [DecidableEq A]

/-! ## Deliveries -/

/-- A server with other datagrams on their way. -/
def ServerContext.withSent (sent : List (A × List UInt8)) (server : ServerContext A E) :
    ServerContext A E :=
  { server with txData := sent }

/-- The two directions of a network. -/
inductive Way where
  | toServer
  | toClient
deriving DecidableEq

/-- The first datagram of a direction is handled; a copy of it may be left there. -/
structure Delivery where
  way : Way
  again : Bool
  now : UInt32

/-- What is on its way in a direction. -/
def Link.inFlight (way : Way) (link : Link A U E) : List (A × List UInt8) :=
  match way with
  | .toServer => link.client.txData
  | .toClient => link.server.txData

/-- What a delivery leaves in its direction. -/
def Delivery.leaves (delivery : Delivery) (flight : List (A × List UInt8)) :
    List (A × List UInt8) :=
  if delivery.again then flight else flight.tail

/-- A delivery; `none` where there is nothing to deliver, or a side stops. -/
def Network.deliver (network : Network A U) (delivery : Delivery) (link : Link A U E) :
    Option (Link A U E) :=
  match delivery.way with
  | .toServer =>
    match link.client.txData with
    | [] => none
    | (addr, datagram) :: _ =>
      if addr = network.serverAddr then
        (serverHandlePacket delivery.now network.clientAddr datagram link.server).map fun server =>
          ⟨link.client.withSent (delivery.leaves link.client.txData), server⟩
      else none
  | .toClient =>
    match link.server.txData with
    | [] => none
    | (addr, datagram) :: _ =>
      if addr = network.clientAddr then
        (clientHandlePacket network.stops network.serverAddr datagram link.client).map fun client =>
          ⟨client, link.server.withSent (delivery.leaves link.server.txData)⟩
      else none

/-- Deliveries one after the other. -/
def Network.deliverAll (network : Network A U) (deliveries : List Delivery) (link : Link A U E) :
    Option (Link A U E) :=
  deliveries.foldlM (fun link delivery => network.deliver delivery link) link

variable {network : Network A U} {base link next : Link A U E} {request : Packet} {callback : U}
  {handler : Handler E}

/-- What a delivery does, by its direction. -/
theorem Network.deliver_cases {delivery : Delivery}
    (delivered : network.deliver delivery link = some next) : (∃ datagram rest server,
      delivery.way = .toServer ∧ link.client.txData = (network.serverAddr, datagram) :: rest ∧
      serverHandlePacket delivery.now network.clientAddr datagram link.server = some server ∧
      next = ⟨link.client.withSent (delivery.leaves link.client.txData), server⟩) ∨
    (∃ datagram rest client, delivery.way = .toClient ∧
      link.server.txData = (network.clientAddr, datagram) :: rest ∧
      clientHandlePacket network.stops network.serverAddr datagram link.client = some client ∧
      next = ⟨client, link.server.withSent (delivery.leaves link.server.txData)⟩) := by
  unfold Network.deliver at delivered
  cases way : delivery.way with
  | toServer =>
    cases flight : link.client.txData with
    | nil =>
      simp only [way, flight] at delivered
      cases delivered
    | cons entry rest =>
      obtain ⟨addr, datagram⟩ := entry
      simp only [way, flight] at delivered
      split at delivered
      · rename_i here
        obtain ⟨server, handled, rfl⟩ := map_eq_some_iff.mp delivered
        exact .inl ⟨datagram, rest, server, rfl, by rw [here], handled, rfl⟩
      · cases delivered
  | toClient =>
    cases flight : link.server.txData with
    | nil =>
      simp only [way, flight] at delivered
      cases delivered
    | cons entry rest =>
      obtain ⟨addr, datagram⟩ := entry
      simp only [way, flight] at delivered
      split at delivered
      · rename_i here
        obtain ⟨client, handled, rfl⟩ := map_eq_some_iff.mp delivered
        exact .inr ⟨datagram, rest, client, rfl, by rw [here], handled, rfl⟩
      · cases delivered

variable {rest : List (A × List UInt8)} {datagram : List UInt8}

theorem Network.deliver_toServer {server : ServerContext A E} (again : Bool)
    {now : UInt32} (flight : link.client.txData = (network.serverAddr, datagram) :: rest)
    (handled : serverHandlePacket now network.clientAddr datagram link.server = some server) :
    network.deliver ⟨.toServer, again, now⟩ link = some ⟨link.client.withSent
      (if again then (network.serverAddr, datagram) :: rest else rest), server⟩ := by
  simp only [Network.deliver, flight, handled, if_true, map_some]
  rfl

theorem Network.deliver_toClient {client : ClientContext A U} (again : Bool)
    (now : UInt32) (flight : link.server.txData = (network.clientAddr, datagram) :: rest) (handled :
      clientHandlePacket network.stops network.serverAddr datagram link.client = some client) :
    network.deliver ⟨.toClient, again, now⟩ link = some ⟨client,
      link.server.withSent (if again then (network.clientAddr, datagram) :: rest else rest)⟩ := by
  simp only [Network.deliver, flight, handled, if_true, map_some]
  rfl

theorem Network.deliverAll_cons {delivery : Delivery}
    (later : List Delivery) (delivered : network.deliver delivery link = some next) :
    network.deliverAll (delivery :: later) link = network.deliverAll later next := by
  rw [Network.deliverAll, foldlM_cons, delivered]
  rfl

/-- A network that delivers each datagram once makes the deliveries that leave no copy. -/
theorem Network.step_iff_deliver :
    network.Step link next ↔ ∃ way now, network.deliver ⟨way, false, now⟩ link = some next := by
  constructor
  · intro step
    cases step with
    | toServer now flight handled =>
      exact ⟨.toServer, now, Network.deliver_toServer false flight handled⟩
    | toClient flight handled =>
      exact ⟨.toClient, 0, Network.deliver_toClient false 0 flight handled⟩
  · rintro ⟨way, now, delivered⟩
    rcases Network.deliver_cases delivered with
      ⟨datagram, rest, server, rfl, flight, handled, rfl⟩ |
        ⟨datagram, rest, client, rfl, flight, handled, rfl⟩
    · rw [flight]
      exact .toServer now flight handled
    · rw [flight]
      exact .toClient flight handled

/-! ## What nobody waits for any more -/

/-- An answer to the message with an id and a token. -/
structure AnswerTo (mid : UInt16) (token : ShortBytes) (message : Packet) : Prop where
  carried : Carried message
  noRequest : isRequest message = false
  type : message.type = .ack
  mid : message.mid = mid
  token : message.token = token

/-- Answers to that message, on their way to the client. -/
def AnswersInFlight (network : Network A U) (mid : UInt16) (token : ShortBytes)
    (flight : List (A × List UInt8)) : Prop :=
  ∀ entry ∈ flight, ∃ message, AnswerTo mid token message ∧
    entry = (network.clientAddr, udpMessage message)

/-- Requests on their way to a server that takes nothing from them, and answers. -/
def Stale (network : Network A U) (mid : UInt16) (token : ShortBytes) (server : ServerContext A E)
    (flight : List (A × List UInt8)) : Prop :=
  ∀ entry ∈ flight, ∃ datagram,
    entry = (network.serverAddr, datagram) ∧ ∀ now back, ∃ message, AnswerTo mid token message ∧
    serverHandlePacket now network.clientAddr datagram (server.withSent back) =
    some (server.withSent (back ++ [(network.clientAddr, udpMessage message)]))

/-- No message with that id and no request with that token waits for an answer. -/
structure Unawaited {K C : Type} (mid : UInt16) (token : ShortBytes)
    (ctx : CoapContext A K C) : Prop where
  transactions : ∀ t ∈ ctx.transactions, t.mid ≠ mid
  requests : ∀ r ∈ ctx.ongoingRequests, r.token ≠ token.bytes

variable {mid : UInt16} {token : ShortBytes} {message answer : Packet}
  {client waiting : ClientContext A U}
  {server : ServerContext A E} {flight sent back : List (A × List UInt8)} {delivery : Delivery}

omit [DecidableEq A] in
/-- An answer nobody waits for changes nothing. -/
theorem Unawaited.ignores (unawaited : Unawaited mid token client)
    (answers : AnswerTo mid token message) (stops : Stops U)
    (source : A) : clientHandlePacket stops source (udpMessage message) client = some client := by
  obtain ⟨packet, arrives, handles⟩ :=
    @clientHandlePacket_carried A U message answers.carried answers.noRequest
  have noMessage : coapGetTransactionByMid client packet.mid = none := by
    refine List.find?_eq_none.mpr fun t member => ?_
    have other := unawaited.transactions t member
    rw [arrives.mid, answers.mid]
    simpa using other
  have noRequest : coapFindOngoingRequest client packet.token.bytes = none := by
    refine List.find?_eq_none.mpr fun r member => ?_
    have other := unawaited.requests r member
    rw [arrives.token, answers.token]
    simpa using other
  have notCon : packet.type ≠ .con := by
    rw [arrives.type, answers.type]
    decide
  rw [handles, coapHandleResponse, matchResponse, noMessage]
  simp only [noRequest, bind_some]
  exact if_neg notCon

omit [DecidableEq A] in
theorem Delivery.mem_leaves {entry : A × List UInt8} (member : entry ∈ delivery.leaves flight) :
    entry ∈ flight := by
  unfold Delivery.leaves at member
  split at member
  · exact member
  · exact mem_of_mem_tail member

omit [DecidableEq A] in
theorem Delivery.leaves_once {entry : A × List UInt8} (once : delivery.again = false) :
    delivery.leaves [entry] = [] := by
  rw [Delivery.leaves, if_neg (by rw [once]; decide)]
  rfl

omit [DecidableEq A] in
/-- Without a copy, one datagram less is on its way. -/
theorem Delivery.leaves_length (once : delivery.again = false) (filled : flight ≠ []) :
    (delivery.leaves flight).length + 1 = flight.length := by
  rw [Delivery.leaves, if_neg (by rw [once]; decide), length_tail]
  have positive := length_pos_iff.mpr filled
  omega

/-! ## The end of an upload -/

/-- The server has called the handler and sent its answer, with which the client's upload is
over. -/
structure Settles (network : Network A U) (base : Link A U E) (request : Packet) (callback : U)
    (handler : Handler E) (mid : UInt16) (waiting : ClientContext A U) (server : ServerContext A E)
    (answer : Packet) : Prop where
  answers : AnswerTo mid request.token answer
  unawaited : Unawaited mid request.token base.client
  ends : ∀ sent response, Arrives answer response → ∃ nextPtr current, coapHandleResponse
    (runRequestCallback network.stops) network.serverAddr response (waiting.withSent sent) =
    some ((uploadDone base.client callback nextPtr current response).withSent sent)
  uploaded : ∀ response nextPtr current, Arrives answer response → Uploaded network base request
    callback handler ⟨uploadDone base.client callback nextPtr current response, server.withSent []⟩

/-- The answer is on its way or has arrived, and what else is on its way changes nothing. -/
inductive Settling (network : Network A U) (base : Link A U E) (request : Packet) (callback : U)
    (mid : UInt16)
    (waiting : ClientContext A U) (server : ServerContext A E) (answer : Packet) : Link A U E → Prop
  | waits {sent back : List (A × List UInt8)} :
      Stale network mid request.token server sent → AnswersInFlight network mid request.token back →
      Settling network base request callback mid waiting server answer
        ⟨waiting.withSent sent, server.withSent ((network.clientAddr, udpMessage answer) :: back)⟩
  | settled {sent back : List (A × List UInt8)} {response : Packet} {nextPtr : Nat}
      {current : UInt16} : Arrives answer response →
      Stale network mid request.token server sent → AnswersInFlight network mid request.token back →
      Settling network base request callback mid waiting server answer
      ⟨(uploadDone base.client callback nextPtr current response).withSent sent,
      server.withSent back⟩

/-- What is on its way; a request may still bring an answer. -/
def Link.weight (link : Link A U E) : Nat :=
  2 * link.client.txData.length + link.server.txData.length

omit [DecidableEq A] in
theorem AnswersInFlight.leaves (answers : AnswersInFlight network mid token flight) :
    AnswersInFlight network mid token (delivery.leaves flight) :=
  fun entry member => answers entry (Delivery.mem_leaves member)

omit [DecidableEq A] in
theorem AnswersInFlight.cons (answers : AnswersInFlight network mid token flight)
    (first : AnswerTo mid token message) :
    AnswersInFlight network mid token ((network.clientAddr, udpMessage message) :: flight) := by
  intro entry member
  rcases mem_cons.mp member with rfl | member
  · exact ⟨message, first, rfl⟩
  · exact answers entry member

omit [DecidableEq A] in
theorem AnswersInFlight.concat (answers : AnswersInFlight network mid token flight)
    (last : AnswerTo mid token message) :
    AnswersInFlight network mid token (flight ++ [(network.clientAddr, udpMessage message)]) := by
  intro entry member
  rcases mem_append.mp member with member | member
  · exact answers entry member
  · exact ⟨message, last, mem_singleton.mp member⟩

theorem Stale.leaves (stale : Stale network mid token server flight) :
    Stale network mid token server (delivery.leaves flight) :=
  fun entry member => stale entry (Delivery.mem_leaves member)

/-- A stale request adds an answer. -/
theorem Stale.handled {now : UInt32} {after : ServerContext A E}
    (stale : Stale network mid token server flight)
    (first : flight = (network.serverAddr, datagram) :: rest) (handled :
      serverHandlePacket now network.clientAddr datagram (server.withSent back) = some after) :
    ∃ message, AnswerTo mid token message ∧
    after = server.withSent (back ++ [(network.clientAddr, udpMessage message)]) := by
  obtain ⟨other, same, answered⟩ := stale _ (first ▸ mem_cons_self)
  obtain rfl : datagram = other := congrArg Prod.snd same
  obtain ⟨message, answers, expected⟩ := answered now back
  exact ⟨message, answers, some.inj (handled.symm.trans expected)⟩

/-- A delivery keeps the end of an upload. -/
theorem Settling.delivered
      (settles : Settles network base request callback handler mid waiting server answer)
    (settling : Settling network base request callback mid waiting server answer link)
    (delivered : network.deliver delivery link = some next) :
    Settling network base request callback mid waiting server answer next ∧
    (delivery.again = false → next.weight < link.weight) := by
  cases settling with
  | @waits sent back stale answers =>
    rcases Network.deliver_cases delivered with
      ⟨datagram, rest, after, -, flight, handled, rfl⟩ |
        ⟨datagram, rest, after, -, flight, handled, rfl⟩
    · have filled : sent ≠ [] := by
        intro empty
        cases empty.symm.trans flight
      obtain ⟨message, added, rfl⟩ := stale.handled flight handled
      refine ⟨.waits stale.leaves (answers.concat added), fun once => ?_⟩
      have less := Delivery.leaves_length once filled
      simp only [Link.weight, CoapContext.withSent, ServerContext.withSent, length_append,
        length_cons, length_nil]
      omega
    · obtain ⟨packet, arrives, handles⟩ :=
        @clientHandlePacket_carried A U answer settles.answers.carried settles.answers.noRequest
      obtain ⟨nextPtr, current, ends⟩ := settles.ends sent packet arrives
      cases flight
      rw [handles, ends] at handled
      cases handled
      refine ⟨.settled arrives stale (answers.cons settles.answers).leaves, fun once => ?_⟩
      have less := Delivery.leaves_length once
        (cons_ne_nil (network.clientAddr, udpMessage answer) back)
      simp only [Link.weight, CoapContext.withSent, ServerContext.withSent]
      omega
  | @settled sent back response nextPtr current arrives stale answers =>
    rcases Network.deliver_cases delivered with
      ⟨datagram, rest, after, -, flight, handled, rfl⟩ |
        ⟨datagram, rest, after, -, flight, handled, rfl⟩
    · have filled : sent ≠ [] := by
        intro empty
        cases empty.symm.trans flight
      obtain ⟨message, added, rfl⟩ := stale.handled flight handled
      refine ⟨.settled arrives stale.leaves (answers.concat added), fun once => ?_⟩
      have less := Delivery.leaves_length once filled
      simp only [Link.weight, CoapContext.withSent, ServerContext.withSent, length_append,
        length_cons, length_nil]
      omega
    · have filled : back ≠ [] := by
        intro empty
        cases empty.symm.trans flight
      obtain ⟨message, there, same⟩ := answers _ (flight ▸ mem_cons_self)
      obtain rfl : datagram = udpMessage message := congrArg Prod.snd same
      have unawaited : Unawaited mid request.token
          ((uploadDone base.client callback nextPtr current response).withSent sent) :=
        ⟨settles.unawaited.transactions, settles.unawaited.requests⟩
      rw [unawaited.ignores there] at handled
      cases handled
      refine ⟨.settled arrives stale answers.leaves, fun once => ?_⟩
      have less := Delivery.leaves_length once filled
      simp only [Link.weight, CoapContext.withSent, ServerContext.withSent]
      omega

/-- It starts with the answer of a server that had nothing on its way. -/
theorem Settling.starts (idle : server.txData = [])
    (stale : Stale network mid request.token server sent) :
    Settling network base request callback mid waiting server answer
      ⟨waiting.withSent sent, server.sent network.clientAddr answer⟩ := by
  have alone : server.sent network.clientAddr answer = server.withSent
      [(network.clientAddr, udpMessage answer)] := by
    rw [ServerContext.sent, idle]
    rfl
  rw [alone]
  exact .waits stale fun _ member => absurd member not_mem_nil

/-- Something can be delivered until nothing is on its way. -/
theorem Settling.progress
      (settles : Settles network base request callback handler mid waiting server answer)
    (settling : Settling network base request callback mid waiting server answer link) :
    Uploaded network base request callback handler link ∨ ∃ next, network.Step link next := by
  cases settling with
  | @waits sent back stale answers =>
    obtain ⟨packet, arrives, handles⟩ :=
      @clientHandlePacket_carried A U answer settles.answers.carried settles.answers.noRequest
    obtain ⟨nextPtr, current, ends⟩ := settles.ends sent packet arrives
    exact .inr ⟨_, .toClient rfl ((handles _ _ _).trans ends)⟩
  | @settled sent back response nextPtr current arrives stale answers =>
    cases sent with
    | cons entry rest =>
      obtain ⟨datagram, rfl, answered⟩ := stale entry mem_cons_self
      obtain ⟨message, -, handled⟩ := answered 0 back
      exact .inr ⟨_, .toServer 0 rfl handled⟩
    | nil =>
      cases back with
      | nil => exact .inl (settles.uploaded response nextPtr current arrives)
      | cons entry rest =>
        obtain ⟨message, there, rfl⟩ := answers entry mem_cons_self
        have unawaited : Unawaited mid request.token
            ((uploadDone base.client callback nextPtr current response).withSent []) :=
          ⟨settles.unawaited.transactions, settles.unawaited.requests⟩
        exact .inr ⟨_, .toClient rfl (unawaited.ignores there network.stops network.serverAddr)⟩

/-- The end of an upload comes to its result. -/
theorem Settling.uploaded
      (settles : Settles network base request callback handler mid waiting server answer)
    (settling : Settling network base request callback mid waiting server answer link) :
    Inevitably network.Step (Uploaded network base request callback handler) link := by
  induction weighs : link.weight using Nat.strong_induction_on generalizing link with
  | _ weight ih =>
    rcases settling.progress settles with uploaded | steps
    · exact .here uploaded
    · refine .after steps fun next step => ?_
      obtain ⟨way, now, delivered⟩ := Network.step_iff_deliver.mp step
      obtain ⟨still, less⟩ := settling.delivered settles delivered
      exact ih next.weight (weighs ▸ less rfl) still rfl

end Repeats

end Idrm.Coap
