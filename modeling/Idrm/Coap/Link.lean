import Idrm.Lib.Inevitable
import Idrm.Coap.Client
import Idrm.Coap.Delivery
import Idrm.Coap.Exchange
import Idrm.Coap.RequestHandler

/-!
# A client and a server

The two sides are joined by a network that delivers each datagram once and in order:
the first datagram one side has given to `tx_data` is the next the other side handles.
Time passes between datagrams as it likes.
-/

namespace Idrm.Coap

open Idrm.Lib

/-- A client and a server, with the datagrams on their way in what they have sent. -/
structure Link (A U E : Type) where
  client : ClientContext A U
  server : ServerContext A E

/-- The addresses of the two, and the client's choice to stop a request. -/
structure Network (A U : Type) where
  clientAddr : A
  serverAddr : A
  stops : Stops U

section Network

variable {A U E : Type} [DecidableEq A]

/-- A datagram is delivered and handled. -/
inductive Network.Step (network : Network A U) : Link A U E → Link A U E → Prop
  | toServer {link : Link A U E} {datagram : List UInt8} {rest : List (A × List UInt8)}
      {server : ServerContext A E} (now : UInt32) :
      link.client.txData = (network.serverAddr, datagram) :: rest →
      serverHandlePacket now network.clientAddr datagram link.server = some server →
      network.Step link ⟨{ link.client with txData := rest }, server⟩
  | toClient {link : Link A U E} {datagram : List UInt8} {rest : List (A × List UInt8)}
      {client : ClientContext A U} :
      link.server.txData = (network.clientAddr, datagram) :: rest →
      clientHandlePacket network.stops network.serverAddr datagram link.client = some client →
      network.Step link ⟨client, { link.server with txData := rest }⟩

variable {network : Network A U} {link : Link A U E} {goal : Link A U E → Prop} {message : Packet}

theorem isRequest_arrives {sent packet : Packet} (arrives : Arrives sent packet) :
    isRequest packet = isRequest sent := by
  rw [isRequest, arrives.code]
  rfl

/-- A request that survives the wire is served. -/
theorem serverHandlePacket_carried (carried : Carried message)
    (request : isRequest message = true) :
    ∃ packet, Arrives message packet ∧ ∀ now source (server : ServerContext A E), serverHandlePacket
      now source (udpMessage message) server = coapRequestHandler now source packet server := by
  obtain ⟨parsed, parses, arrives⟩ := carried.arrives
  refine ⟨received parsed, arrives, ?_⟩
  intro now source server
  rw [serverHandlePacket, parses]
  exact if_pos ((isRequest_arrives arrives).trans request)

omit [DecidableEq A] in
/-- A response that survives the wire is handled as one. -/
theorem clientHandlePacket_carried (carried : Carried message)
    (response : isRequest message = false) :
    ∃ packet, Arrives message packet ∧ ∀ stops source (ctx : ClientContext A U),
    clientHandlePacket stops source (udpMessage message) ctx =
      coapHandleResponse (runRequestCallback stops) source packet ctx := by
  obtain ⟨parsed, parses, arrives⟩ := carried.arrives
  refine ⟨received parsed, arrives, ?_⟩
  intro stops source ctx
  have noRequest : ¬ isRequest (received parsed) = true := by
    rw [isRequest_arrives arrives, response]
    decide
  rw [clientHandlePacket, parses]
  exact if_neg noRequest

/-- With one request on its way to the server, the server handles it next. -/
theorem Network.server_next (carried : Carried message) (request : isRequest message = true)
    (flight : link.client.txData = [(network.serverAddr, udpMessage message)])
    (idle : link.server.txData = [])
    (handles : ∀ now packet, Arrives message packet →
      ∃ server, coapRequestHandler now network.clientAddr packet link.server = some server ∧
        Inevitably network.Step goal ⟨{ link.client with txData := [] }, server⟩) :
    Inevitably network.Step goal link := by
  obtain ⟨packet, arrives, serves⟩ := @serverHandlePacket_carried A E _ message carried request
  refine .after ?_ fun next step => ?_
  · obtain ⟨server, handled, -⟩ := handles 0 packet arrives
    exact ⟨_, .toServer 0 flight ((serves 0 _ _).trans handled)⟩
  · cases step with
    | toServer now taken handled =>
      obtain ⟨server, expected, reaches⟩ := handles now packet arrives
      rw [flight] at taken
      cases taken
      rw [serves, expected] at handled
      cases handled
      exact reaches
    | toClient taken handled =>
      rw [idle] at taken
      cases taken

/-- With one response on its way to the client, the client handles it next. -/
theorem Network.client_next (carried : Carried message) (response : isRequest message = false)
    (flight : link.server.txData = [(network.clientAddr, udpMessage message)])
    (idle : link.client.txData = [])
    (handles : ∀ packet, Arrives message packet → ∃ client, coapHandleResponse
      (runRequestCallback network.stops) network.serverAddr packet link.client = some client ∧
        Inevitably network.Step goal ⟨client, { link.server with txData := [] }⟩) :
    Inevitably network.Step goal link := by
  obtain ⟨packet, arrives, handle⟩ := @clientHandlePacket_carried A U message carried response
  obtain ⟨client, expected, reaches⟩ := handles packet arrives
  have answers := (handle network.stops network.serverAddr link.client).trans expected
  refine .after ⟨_, .toClient flight answers⟩ fun next step => ?_
  cases step with
  | toServer now taken handled =>
    rw [idle] at taken
    cases taken
  | toClient taken handled =>
    rw [flight] at taken
    cases taken
    rw [answers] at handled
    cases handled
    exact reaches

end Network

/-! ## A client that waits for nothing -/

/-- Nothing is sent again, and no response is waited for. -/
structure Waitless {A U : Type} (ctx : ClientContext A U) : Prop where
  transactions : ctx.transactions = []
  requests : ctx.ongoingRequests = []

section Waitless

variable {A U E : Type} {ctx next : ClientContext A U}

/-- Whatever arrives, such a client calls nobody back. -/
theorem Waitless.clientHandlePacket (waitless : Waitless ctx) {stops : Stops U} {source : A}
    {data : List UInt8} (handles : clientHandlePacket stops source data ctx = some next) :
    Waitless next ∧ next.env = ctx.env := by
  have noMatch : ∀ message, matchResponse (runRequestCallback stops) message ctx = some ctx := by
    intro message
    rw [matchResponse, coapGetTransactionByMid, waitless.transactions]
    simp only [List.find?_nil]
    rw [coapFindOngoingRequest, waitless.requests]
    rfl
  obtain ⟨parsed, -, handles⟩ := Option.bind_eq_some_iff.mp handles
  cases parsed with
  | error status =>
    cases handles
    exact ⟨waitless, rfl⟩
  | ok parsed =>
    simp only at handles
    split at handles
    · cases handles
    · rw [coapHandleResponse, noMatch, Option.bind_some] at handles
      split at handles
      · obtain ⟨packet, -, rfl⟩ := Option.map_eq_some_iff.mp handles
        split
        · exact ⟨⟨waitless.transactions, waitless.requests⟩, rfl⟩
        · exact ⟨waitless, rfl⟩
      · cases handles
        exact ⟨waitless, rfl⟩

/-- Along every run, its callbacks have been called as often as at the start. -/
theorem Waitless.run [DecidableEq A] {network : Network A U} {start link : Link A U E}
    (waitless : Waitless start.client) (runs : Relation.ReflTransGen network.Step start link) :
    Waitless link.client ∧ link.client.env = start.client.env := by
  induction runs with
  | refl => exact ⟨waitless, rfl⟩
  | tail _ step ih =>
    obtain ⟨still, same⟩ := ih
    cases step with
    | toServer now taken handled => exact ⟨⟨still.transactions, still.requests⟩, same⟩
    | toClient taken handled =>
      obtain ⟨next, unchanged⟩ := still.clientHandlePacket handled
      exact ⟨next, unchanged.trans same⟩

end Waitless

/-! ## The client between two messages -/

section Client

variable {A U : Type} {ctx : ClientContext A U} {addr : A} {message : Packet}
  {callback : ClientCallback U}

theorem sendTransactionAt_armed (allocated : Allocated ctx) (retries : 0 < ctx.defaultRetransCnt) :
    sendTransactionAt ctx.nextPtr (armed addr message callback ctx) =
      some (launched addr message callback ctx) := by
  rw [sendTransactionAt, transactionAt_armed allocated, Option.bind_some,
    coapSendTransaction_armed allocated retries]

/-- The states of a client, one of which belongs to the transfer at hand. -/
structure HoldsState (ctx : ClientContext A U) (others : List (RequestState U))
    (state : RequestState U) : Prop where
  states : ctx.env.states = others ++ [state]
  only : ∀ other ∈ others, other.ptr ≠ state.ptr

variable {others : List (RequestState U)} {state : RequestState U}

theorem HoldsState.onlyAt (holds : HoldsState ctx others state) :
    OnlyAt RequestState.ptr state.ptr others state [] :=
  ⟨rfl, holds.only, fun _ member => absurd member List.not_mem_nil⟩

theorem HoldsState.stateAt (holds : HoldsState ctx others state) :
    stateAt ctx state.ptr = some state := by
  rw [Idrm.Coap.stateAt, holds.states, holds.onlyAt.find]

theorem HoldsState.free (holds : HoldsState ctx others state) :
    freeBlockwiseState state ctx = ctx.withEnv { ctx.env with states := others } := by
  rw [freeBlockwiseState, holds.states, holds.onlyAt.filter, List.append_nil]
  rfl

theorem HoldsState.store (holds : HoldsState ctx others state) (changed : RequestState U)
    (same : changed.ptr = state.ptr) :
    storeState changed ctx = ctx.withEnv { ctx.env with states := others ++ [changed] } := by
  rw [storeState, holds.states, same, holds.onlyAt.map fun _ => changed]
  rfl

/-! ## The client of a transfer -/

/-- The message id of a message of a transfer. -/
def transferMid (base : ClientContext A U) (index : Nat) : UInt16 :=
  base.env.currentMid + 1 + UInt16.ofNat index

theorem transferMid_succ (base : ClientContext A U) (index : Nat) :
    transferMid base (index + 1) = transferMid base index + 1 := by
  rw [transferMid, transferMid, UInt16.ofNat_add, ← UInt16.add_assoc]
  rfl

theorem transferMid_zero (base : ClientContext A U) :
    transferMid base 0 = base.env.currentMid + 1 :=
  UInt16.add_zero _

/-- A client whose next messages can be told from those of others. -/
structure ReadyClient (base : ClientContext A U) (messages : Nat) : Prop where
  allocated : Allocated base
  states : ∀ state ∈ base.env.states, state.ptr < base.nextPtr
  retries : 0 < base.defaultRetransCnt
  mids : ∀ t ∈ base.transactions, ∀ index ≤ messages, t.mid ≠ transferMid base index

end Client

end Idrm.Coap
