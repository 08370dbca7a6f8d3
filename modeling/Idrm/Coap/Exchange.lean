import Idrm.Lib.Keyed
import Idrm.Coap.Transactions

/-!
# One exchange of a context

A confirmable message with a token leaves one transaction and one ongoing request
behind, which refer to each other. The response takes both away again, whatever else
the context holds and whatever the callback adds.
-/

namespace Idrm.Coap

open Idrm.Lib Option List

section Exchange

variable {A K E : Type} {ctx : CoapContext A K E}

/-- Everything a context holds was allocated. -/
structure Allocated (ctx : CoapContext A K E) : Prop where
  transactions : ∀ t ∈ ctx.transactions, t.ptr < ctx.nextPtr
  requests : ∀ r ∈ ctx.ongoingRequests, r.ptr < ctx.nextPtr

/-- The transaction of a message that was sent a number of times. -/
def sentTransaction (count : UInt8) (ptr : Nat) (addr : A) (message : Packet) : Transaction A where
  ptr := ptr
  mid := message.mid
  retransCounter := count
  addr := addr
  type := .con
  packet := udpMessage message
  ongoingRequest := some (ptr + 1)

/-- The request that waits for the response to it. -/
def sentRequest (ptr : Nat) (message : Packet) (callback : K) : OngoingRequest K where
  ptr := ptr + 1
  token := message.token.bytes
  observe := message.isOption .observe
  transaction := some ptr
  callback := callback

/-- A context that has sent a message with a callback for the response. -/
def launched (addr : A) (message : Packet) (callback : K) (ctx : CoapContext A K E) :
    CoapContext A K E :=
  { ctx with
    transactions := ctx.transactions ++ [sentTransaction 1 ctx.nextPtr addr message]
    ongoingRequests := ctx.ongoingRequests ++ [sentRequest ctx.nextPtr message callback]
    nextPtr := ctx.nextPtr + 2
    txData := ctx.txData ++ [(addr, udpMessage message)] }

/-- What can be sent and answered: it is confirmable, has a token and fits a datagram. -/
structure Sendable (message : Packet) : Prop where
  con : message.type = .con
  token : message.token.bytes.length ≠ 0
  fits : FitsUdp message

/-! ## Sending -/

/-- A transaction with its packet, and the request to wait for its response. -/
def armed (addr : A) (message : Packet) (callback : K) (ctx : CoapContext A K E) :
    CoapContext A K E :=
  { ctx with
    transactions := ctx.transactions ++ [sentTransaction 0 ctx.nextPtr addr message]
    ongoingRequests := ctx.ongoingRequests ++ [sentRequest ctx.nextPtr message callback]
    nextPtr := ctx.nextPtr + 2 }

theorem Allocated.onlyAt (allocated : Allocated ctx) {t : Transaction A}
    (here : t.ptr = ctx.nextPtr) : OnlyAt Transaction.ptr ctx.nextPtr ctx.transactions t [] where
  here := here
  front := fun other member => Nat.ne_of_lt (allocated.transactions other member)
  back := fun _ member => absurd member not_mem_nil

/-- The last transaction is changed where it is. -/
theorem modifyTransaction_last (allocated : Allocated ctx)
    {t : Transaction A} (here : t.ptr = ctx.nextPtr)
    (change : Transaction A → Transaction A) {later : CoapContext A K E}
    (last : later.transactions = ctx.transactions ++ [t]) :
    modifyTransaction ctx.nextPtr change later =
      { later with transactions := ctx.transactions ++ [change t] } := by
  rw [modifyTransaction, last, (allocated.onlyAt here).map change]

theorem setTransactionPacket_fits {message : Packet} (fits : FitsUdp message) (ptr : Nat) :
    setTransactionPacket ptr message ctx = some (modifyTransaction ptr
      (fun t => { t with type := message.type, packet := udpMessage message }) ctx) := by
  rw [setTransactionPacket, coapSerializeMessage_fits fits (udpMessage_length_le fits), map_some]

section Send

variable {addr : A} {message : Packet} {callback : K}

theorem coapSetResponseHandler_token (token : message.token.bytes.length ≠ 0) (ptr : Nat) :
    coapSetResponseHandler ptr message callback ctx =
      { modifyTransaction ptr (fun t => { t with ongoingRequest := some ctx.nextPtr }) ctx with
        ongoingRequests := ctx.ongoingRequests ++
          [⟨ctx.nextPtr, message.token.bytes, message.isOption .observe, some ptr, callback⟩]
        nextPtr := ctx.nextPtr + 1 } := by
  rw [coapSetResponseHandler, if_neg token]
  rfl

/-- The packet is written before the callback is set. -/
theorem arm_packetFirst (allocated : Allocated ctx) (sendable : Sendable message) :
    (setTransactionPacket ctx.nextPtr message (coapNewTransaction message.mid addr ctx).2).map
      (coapSetResponseHandler ctx.nextPtr message callback) =
      some (armed addr message callback ctx) := by
  rw [setTransactionPacket_fits sendable.fits, coapNewTransaction, modifyTransaction_last
    allocated rfl _ rfl, map_some, coapSetResponseHandler_token sendable.token,
    modifyTransaction_last allocated rfl _ rfl, sendable.con]
  rfl

/-- The callback is set before the packet is written. -/
theorem arm_handlerFirst (allocated : Allocated ctx)
    (sendable : Sendable message) {request : Packet} (sameToken : request.token = message.token)
    (sameObserve : request.isOption .observe = message.isOption .observe) :
    setTransactionPacket ctx.nextPtr message (coapSetResponseHandler ctx.nextPtr request callback
      (coapNewTransaction message.mid addr ctx).2) = some (armed addr message callback ctx) := by
  rw [coapNewTransaction, coapSetResponseHandler_token (sameToken ▸ sendable.token),
    modifyTransaction_last allocated rfl _ rfl, setTransactionPacket_fits sendable.fits,
    modifyTransaction_last allocated rfl _ rfl, sendable.con, sameToken, sameObserve]
  rfl

theorem transactionAt_armed (allocated : Allocated ctx) :
    (armed addr message callback ctx).transactionAt ctx.nextPtr =
      some (sentTransaction 0 ctx.nextPtr addr message) :=
  (allocated.onlyAt rfl).find

theorem transactionAt_launched (allocated : Allocated ctx) :
    (launched addr message callback ctx).transactionAt ctx.nextPtr =
      some (sentTransaction 1 ctx.nextPtr addr message) :=
  (allocated.onlyAt rfl).find

/-- A transaction that is ready is sent and stays. -/
theorem coapSendTransaction_armed (allocated : Allocated ctx) (retries : 0 < ctx.defaultRetransCnt)
    (run : K → Option Packet → CoapContext A K E → Option (CoapContext A K E)) :
    coapSendTransaction run (sentTransaction 0 ctx.nextPtr addr message)
      (armed addr message callback ctx) = some (launched addr message callback ctx) := by
  have waits : (sentTransaction 0 ctx.nextPtr addr message).retransCounter.toUInt16 <
      (armed addr message callback ctx).defaultRetransCnt := retries
  have type : (sentTransaction 0 ctx.nextPtr addr message).type = .con := rfl
  have ptr : (sentTransaction 0 ctx.nextPtr addr message).ptr = ctx.nextPtr := rfl
  rw [coapSendTransaction, if_pos type, if_pos waits, ptr,
    modifyTransaction_last allocated rfl _ rfl]
  rfl

end Send

/-! ## The response -/

/-- A context that holds a transaction and a request that belong together, among others. -/
structure Holds (ctx : CoapContext A K E) (front : List (Transaction A)) (t : Transaction A)
    (back : List (Transaction A)) (frontRequests : List (OngoingRequest K)) (r : OngoingRequest K)
    (backRequests : List (OngoingRequest K)) : Prop where
  transactions : ctx.transactions = front ++ t :: back
  requests : ctx.ongoingRequests = frontRequests ++ r :: backRequests
  onlyTransaction : OnlyAt Transaction.ptr t.ptr front t back
  onlyRequest : OnlyAt OngoingRequest.ptr r.ptr frontRequests r backRequests
  toRequest : t.ongoingRequest = some r.ptr
  toTransaction : r.transaction = some t.ptr

/-- What a response leaves of its request: an observing one waits for more. -/
def keptRequest (r : OngoingRequest K) : List (OngoingRequest K) :=
  if r.observe then [{ r with transaction := none }] else []

section Response

variable {front back : List (Transaction A)} {t : Transaction A}
  {frontRequests backRequests : List (OngoingRequest K)} {r : OngoingRequest K}

theorem Holds.requestAt (holds : Holds ctx front t back frontRequests r backRequests) :
    ctx.requestAt t.ongoingRequest = some r := by
  rw [CoapContext.requestAt, holds.toRequest, bind_some, holds.requests, holds.onlyRequest.find]

theorem Holds.clear (holds : Holds ctx front t back frontRequests r backRequests) :
    coapClearTransaction t ctx =
      { ctx with
        transactions := front ++ back
        ongoingRequests := frontRequests ++ { r with transaction := none } :: backRequests } := by
  rw [coapClearTransaction, holds.toRequest, holds.transactions, holds.onlyTransaction.filter]
  simp only [modifyRequest, holds.requests]
  rw [holds.onlyRequest.map fun r => { r with transaction := none }]

/-- Freed, a request is no longer referred to by its transaction. -/
theorem Holds.freed (holds : Holds ctx front t back frontRequests r backRequests) :
    freeOngoingRequest r ctx =
      { ctx with
        transactions := front ++ { t with ongoingRequest := none } :: back
        ongoingRequests := frontRequests ++ backRequests } := by
  simp only [freeOngoingRequest, holds.toTransaction, modifyTransaction, holds.requests,
    holds.transactions]
  rw [holds.onlyTransaction.map fun t => { t with ongoingRequest := none },
    holds.onlyRequest.filter]

theorem Holds.end (holds : Holds ctx front t back frontRequests r backRequests) :
    endTransaction t ctx = { ctx with
      transactions := front ++ back
      ongoingRequests := frontRequests ++ backRequests } := by
  have still : OnlyAt Transaction.ptr t.ptr front { t with ongoingRequest := none } back :=
    ⟨rfl, holds.onlyTransaction.front, holds.onlyTransaction.back⟩
  rw [endTransaction, holds.requestAt]
  simp only [holds.freed, coapClearTransaction]
  rw [still.filter]

/-- An acknowledgement with a response calls back, and takes transaction and request
away from what the callback leaves. -/
theorem Holds.answered {waiting called : CoapContext A K E}
    {run : K → Option Packet → CoapContext A K E → Option (CoapContext A K E)} {message : Packet}
    (waits : Holds waiting front t [] frontRequests r [])
    (called_holds : Holds called front t back frontRequests r backRequests)
    (calls : run r.callback (some message) waiting = some called)
    (others : ∀ other ∈ front, other.mid ≠ message.mid) (mid : t.mid = message.mid)
    (ack : message.type = .ack) (code : message.code ≠ 0) (source : A) :
    coapHandleResponse run source message waiting =
      some { called with
        transactions := front ++ back
        ongoingRequests := frontRequests ++ (keptRequest r ++ backRequests) } := by
  have found : coapGetTransactionByMid waiting message.mid = some t := by
    have none : front.find? (fun other => other.mid = message.mid) = none :=
      List.find?_eq_none.mpr fun other member => by simpa using others other member
    rw [coapGetTransactionByMid, waits.transactions, List.find?_append, none,
      List.find?_cons_of_pos (by simpa using mid)]
    rfl
  have noAck : message.type ≠ .con := by
    rw [ack]
    decide
  have noReset : message.type ≠ .rst := by
    rw [ack]
    decide
  rw [coapHandleResponse, matchResponse, found]
  simp only [waits.requestAt]
  rw [if_pos (.inl code), calls, map_some, bind_some, if_neg noAck]
  cases observe : r.observe with
  | false =>
    rw [if_pos (.inl ⟨code, rfl⟩), called_holds.end, keptRequest, observe]
    rfl
  | true =>
    rw [if_neg (by simp [noReset]), called_holds.clear, keptRequest, observe]
    rfl

end Response

/-! ## A context that waits -/

/-- A context whose last message has been delivered. -/
def waitingFor (addr : A) (message : Packet) (callback : K) (ctx : CoapContext A K E) :
    CoapContext A K E :=
  { launched addr message callback ctx with txData := ctx.txData }

/-- A context with what its callbacks work on changed. -/
def CoapContext.withEnv (env : E) (ctx : CoapContext A K E) : CoapContext A K E :=
  { ctx with env := env }

/-- A context with other datagrams on their way. -/
def CoapContext.withSent (sent : List (A × List UInt8)) (ctx : CoapContext A K E) :
    CoapContext A K E :=
  { ctx with txData := sent }

theorem waitingFor_withSent {addr : A} {message : Packet} {callback : K}
    (sent : List (A × List UInt8)) : (waitingFor addr message callback ctx).withSent sent =
      waitingFor addr message callback (ctx.withSent sent) := rfl

/-- A context behind an exchange: the addresses are used up, and a request that
observes is left. -/
def exchanged (message : Packet) (callback : K) (ctx : CoapContext A K E) : CoapContext A K E :=
  { ctx with
    ongoingRequests := ctx.ongoingRequests ++ keptRequest (sentRequest ctx.nextPtr message callback)
    nextPtr := ctx.nextPtr + 2 }

section Waiting

variable {addr : A} {message next response : Packet} {callback callback' : K} {env : E}
  {run : K → Option Packet → CoapContext A K E → Option (CoapContext A K E)}

theorem Allocated.waitingFor (allocated : Allocated ctx) :
    Allocated (waitingFor addr message callback ctx) where
  transactions := by
    intro t member
    change t.ptr < ctx.nextPtr + 2
    rcases mem_append.mp member with member | member
    · have bound := allocated.transactions t member
      omega
    · rw [mem_singleton.mp member]
      change ctx.nextPtr < ctx.nextPtr + 2
      omega
  requests := by
    intro r member
    change r.ptr < ctx.nextPtr + 2
    rcases mem_append.mp member with member | member
    · have bound := allocated.requests r member
      omega
    · rw [mem_singleton.mp member]
      change ctx.nextPtr + 1 < ctx.nextPtr + 2
      omega

theorem Allocated.withEnv (allocated : Allocated ctx) (env : E) : Allocated (ctx.withEnv env) :=
  ⟨allocated.transactions, allocated.requests⟩

theorem Allocated.exchanged (allocated : Allocated ctx) :
    Allocated (exchanged message callback ctx) where
  transactions := by
    intro t member
    have bound := allocated.transactions t member
    change t.ptr < ctx.nextPtr + 2
    omega
  requests := by
    intro r member
    change r.ptr < ctx.nextPtr + 2
    rcases mem_append.mp member with member | member
    · have bound := allocated.requests r member
      omega
    · unfold keptRequest at member
      split at member
      · rw [mem_singleton.mp member]
        change ctx.nextPtr + 1 < ctx.nextPtr + 2
        omega
      · cases member

theorem waitingFor_holds (allocated : Allocated ctx) :
    Holds (waitingFor addr message callback ctx) ctx.transactions
      (sentTransaction 1 ctx.nextPtr addr message) [] ctx.ongoingRequests
      (sentRequest ctx.nextPtr message callback) [] where
  transactions := rfl
  requests := rfl
  onlyTransaction := allocated.onlyAt rfl
  onlyRequest := by
    refine ⟨rfl, fun other member => ?_, fun _ member => absurd member not_mem_nil⟩
    have bound := allocated.requests other member
    change other.ptr ≠ ctx.nextPtr + 1
    omega
  toRequest := rfl
  toTransaction := rfl

/-- The next message of a context that still waits. -/
theorem launched_holds (allocated : Allocated ctx) :
    Holds (launched addr next callback' (waitingFor addr message callback ctx)) ctx.transactions
      (sentTransaction 1 ctx.nextPtr addr message) [sentTransaction 1 (ctx.nextPtr + 2) addr next]
      ctx.ongoingRequests (sentRequest ctx.nextPtr message callback)
      [sentRequest (ctx.nextPtr + 2) next callback'] where
  transactions := append_assoc _ _ _
  requests := append_assoc _ _ _
  onlyTransaction := by
    refine ⟨rfl, fun other member => Nat.ne_of_lt (allocated.transactions other member),
      fun other member => ?_⟩
    rw [mem_singleton.mp member]
    change ctx.nextPtr + 2 ≠ ctx.nextPtr
    omega
  onlyRequest := by
    refine ⟨rfl, fun other member => ?_, fun other member => ?_⟩
    · have bound := allocated.requests other member
      change other.ptr ≠ ctx.nextPtr + 1
      omega
    · rw [mem_singleton.mp member]
      change ctx.nextPtr + 2 + 1 ≠ ctx.nextPtr + 1
      omega
  toRequest := rfl
  toTransaction := rfl

/-- A response to the message that is waited for. -/
structure Answers (message response : Packet) : Prop where
  mid : response.mid = message.mid
  ack : response.type = .ack
  code : response.code ≠ 0

theorem Answers.noReset (answers : Answers message response) : response.type ≠ .rst := by
  rw [answers.ack]
  decide

/-- A response after which nothing more is sent. -/
theorem coapHandleResponse_last (allocated : Allocated ctx) (answers : Answers message response)
    (others : ∀ other ∈ ctx.transactions, other.mid ≠ message.mid)
    (calls : run callback (some response) (waitingFor addr message callback ctx) =
      some (waitingFor addr message callback (ctx.withEnv env))) (source : A) :
    coapHandleResponse run source response (waitingFor addr message callback ctx) =
      some (exchanged message callback (ctx.withEnv env)) := by
  have waits : Holds (waitingFor addr message callback ctx) ctx.transactions _ [] _ _ [] :=
    waitingFor_holds allocated
  have holds : Holds (waitingFor addr message callback (ctx.withEnv env))
      ctx.transactions _ [] _ _ [] :=
    waitingFor_holds (allocated.withEnv env)
  rw [waits.answered holds calls (by rw [answers.mid]; exact others) answers.mid.symm answers.ack
    answers.code, append_nil, append_nil]
  rfl

/-- A response on which the next message is sent. -/
theorem coapHandleResponse_next (allocated : Allocated ctx) (answers : Answers message response)
    (others : ∀ other ∈ ctx.transactions, other.mid ≠ message.mid)
    (calls : run callback (some response) (waitingFor addr message callback ctx) =
      some (launched addr next callback' (waitingFor addr message callback (ctx.withEnv env))))
    (source : A) :
    coapHandleResponse run source response (waitingFor addr message callback ctx) =
      some (launched addr next callback' (exchanged message callback (ctx.withEnv env))) := by
  have waits : Holds (waitingFor addr message callback ctx) ctx.transactions _ [] _ _ [] :=
    waitingFor_holds allocated
  have holds : Holds
    (launched addr next callback' (waitingFor addr message callback (ctx.withEnv env)))
    ctx.transactions _ _ _ _ _ := launched_holds (allocated.withEnv env)
  rw [waits.answered holds calls (by rw [answers.mid]; exact others) answers.mid.symm answers.ack
    answers.code, ← append_assoc]
  rfl

end Waiting

end Exchange

end Idrm.Coap
