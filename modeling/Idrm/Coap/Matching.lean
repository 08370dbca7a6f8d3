import Idrm.Coap.Transactions

/-!
# Which request a response reaches

`coap_handle_packet` looks for a transaction with the message id of a response, and only
where there is none for a request with its token. Neither search looks at the address the
response came from, and the first does not look at the token. Here a callback only writes
down whose it is: the token of its request and the address that was sent to.
-/

namespace Idrm.Coap

open Idrm.Lib Option List

/-- What a request was sent with. -/
@[ext] structure Sent (A : Type) where
  token : List UInt8
  addr : A
deriving DecidableEq

/-- A context whose callbacks are known by what their requests were sent with. -/
abbrev SentContext (A : Type) := CoapContext A (Sent A) (List (Sent A))

section Matching

variable {A : Type}

/-- A callback is run. -/
def recordCallback (sent : Sent A) (_message : Option Packet) (ctx : SentContext A) :
    Option (SentContext A) :=
  some { ctx with env := ctx.env ++ [sent] }

/-- The callbacks are those of the requests, and a transaction goes where its request was
sent. -/
structure KnownBySent (ctx : SentContext A) : Prop where
  token : ∀ r ∈ ctx.ongoingRequests, r.callback.token = r.token
  addr : ∀ t ∈ ctx.transactions, ∀ r, ctx.requestAt t.ongoingRequest = some r →
    r.callback.addr = t.addr

/-- A request that a packet answers. -/
def AnswersRequest (source : A) (message : Packet) (r : OngoingRequest (Sent A)) : Prop :=
  r.token = message.token.bytes ∧ r.callback.addr = source

/-- The callbacks that are run are those of requests that the packet answers, and a packet
that answers none leaves the transactions alone. -/
def ReachesAnswered (source : A) (message : Packet) (ctx : SentContext A) : Prop :=
  ∃ next called, coapHandleResponse recordCallback source message ctx = some next ∧
    next.env = ctx.env ++ called ∧ (∀ sent ∈ called, sent = ⟨message.token.bytes, source⟩) ∧
    ((∀ r ∈ ctx.ongoingRequests, ¬AnswersRequest source message r) →
    called = [] ∧ next.transactions = ctx.transactions)

/-- The transaction with the message id of the packet is of a request with its token and
went to its source; one without a request is met only by a packet that answers some
request. Where there is no such transaction, the first request with the token was sent to
the source. -/
def MatchesAnswered (source : A) (message : Packet) (ctx : SentContext A) : Prop :=
  match coapGetTransactionByMid ctx message.mid with
  | some t =>
    match ctx.requestAt t.ongoingRequest with
    | some r => r.token = message.token.bytes ∧ t.addr = source
    | none => ∃ r ∈ ctx.ongoingRequests, AnswersRequest source message r
  | none => ∀ r, coapFindOngoingRequest ctx message.token.bytes = some r → r.callback.addr = source

variable {source : A} {message : Packet} {ctx next : SentContext A}

/-- The acknowledgement of a confirmable packet changes no transaction and runs no callback. -/
theorem handleResponse_of_matchResponse (source : A)
    (matched : matchResponse recordCallback message ctx = some next) : ∃ final,
    coapHandleResponse recordCallback source message ctx = some final ∧ final.env = next.env ∧
    final.transactions = next.transactions := by
  rw [coapHandleResponse, matched, bind_some]
  split
  · have written : coapSerializeMessage coapMaxPacketSize (coapInitMessage .ack 0 message.mid) =
        some (udpHeader (coapInitMessage .ack 0 message.mid)) := rfl
    rw [sendCoapMsg, written, map_some]
    refine ⟨_, rfl, ?_⟩
    split
    · exact ⟨rfl, rfl⟩
    · exact ⟨rfl, rfl⟩
  · exact ⟨next, rfl, rfl, rfl⟩

theorem not_mem_clearTransaction (t : Transaction A) (ctx : SentContext A) :
    t ∉ (coapClearTransaction t ctx).transactions := by
  unfold coapClearTransaction
  cases t.ongoingRequest with
  | none => simp
  | some request => simp [modifyRequest]

/-- What follows from the one callback that is run, or from none. -/
theorem reachesAnswered_iff_of_matched {called : List (Sent A)}
    (matched : matchResponse recordCallback message ctx = some next)
    (env : next.env = ctx.env ++ called) : ReachesAnswered source message ctx ↔
    (∀ sent ∈ called, sent = ⟨message.token.bytes, source⟩) ∧
    ((∀ r ∈ ctx.ongoingRequests, ¬AnswersRequest source message r) →
      called = [] ∧ next.transactions = ctx.transactions) := by
  obtain ⟨final, handled, finalEnv, finalTransactions⟩ :=
    handleResponse_of_matchResponse source matched
  constructor
  · rintro ⟨other, otherCalled, otherHandled, otherEnv, reaches, leaves⟩
    obtain rfl := some.inj (handled.symm.trans otherHandled)
    obtain rfl : called = otherCalled :=
      append_cancel_left (env.symm.trans (finalEnv.symm.trans otherEnv))
    rw [← finalTransactions]
    exact ⟨reaches, leaves⟩
  · rintro ⟨reaches, leaves⟩
    rw [← finalTransactions] at leaves
    exact ⟨final, called, handled, finalEnv.trans env, reaches, leaves⟩

/-- Where the callback of a request is run, the packet must answer it. -/
theorem reachesAnswered_iff_of_called {r : OngoingRequest (Sent A)} (known : KnownBySent ctx)
    (member : r ∈ ctx.ongoingRequests)
    (matched : matchResponse recordCallback message ctx = some next)
    (env : next.env = ctx.env ++ [r.callback]) : ReachesAnswered source message ctx ↔
    AnswersRequest source message r := by
  rw [reachesAnswered_iff_of_matched matched env]
  constructor
  · rintro ⟨reaches, -⟩
    have same := reaches r.callback mem_cons_self
    exact ⟨(known.token r member).symm.trans (congrArg Sent.token same), congrArg Sent.addr same⟩
  · intro answers
    refine ⟨fun sent isCalled => ?_, fun unanswered => absurd answers (unanswered r member)⟩
    rw [mem_singleton.mp isCalled]
    exact Sent.ext ((known.token r member).trans answers.1) answers.2

/-- A response reaches requests that it answers, and no other transaction is touched, exactly
where the first transaction or request it matches is one it answers. -/
theorem reachesAnswered_iff_matchesAnswered (known : KnownBySent ctx)
    (response : message.code ≠ 0) :
    ReachesAnswered source message ctx ↔ MatchesAnswered source message ctx := by
  unfold MatchesAnswered
  cases byMid : coapGetTransactionByMid ctx message.mid with
  | some t =>
    have member : t ∈ ctx.transactions := mem_of_find?_eq_some byMid
    cases linked : ctx.requestAt t.ongoingRequest with
    | some r =>
      have isMatched : ∃ next, matchResponse recordCallback message ctx = some next ∧
          next.env = ctx.env ++ [r.callback] := by
        simp only [matchResponse, byMid, linked, recordCallback,
          if_pos (.inl response : message.code ≠ 0 ∨ _), map_some]
        refine ⟨_, rfl, ?_⟩
        split
        · exact (endTransaction_leaves t _).env
        · exact (coapClearTransaction_leaves t _).env
      obtain ⟨next, matched, env⟩ := isMatched
      simp only [linked]
      rw [reachesAnswered_iff_of_called known (requestAt_mem linked) matched env, AnswersRequest,
        known.addr t member r linked]
    | none =>
      have matched :
          matchResponse recordCallback message ctx = some (coapClearTransaction t ctx) := by
        simp only [matchResponse, byMid, linked]
      have env : (coapClearTransaction t ctx).env = ctx.env ++ [] := by
        rw [append_nil]
        exact (coapClearTransaction_leaves t ctx).env
      simp only [linked]
      rw [reachesAnswered_iff_of_matched matched env]
      constructor
      · rintro ⟨-, leaves⟩
        by_contra unanswered
        have same := (leaves fun r inRequests answers => unanswered ⟨r, inRequests, answers⟩).2
        rw [← same] at member
        exact not_mem_clearTransaction t ctx member
      · rintro ⟨r, inRequests, answers⟩
        refine ⟨fun sent isCalled => absurd isCalled not_mem_nil, fun unanswered => ?_⟩
        exact absurd answers (unanswered r inRequests)
  | none =>
    cases byToken : coapFindOngoingRequest ctx message.token.bytes with
    | some r =>
      have member : r ∈ ctx.ongoingRequests := mem_of_find?_eq_some byToken
      have token : r.token = message.token.bytes := by simpa using List.find?_some byToken
      have isMatched : ∃ next, matchResponse recordCallback message ctx = some next ∧
          next.env = ctx.env ++ [r.callback] := by
        simp only [matchResponse, byMid, byToken, recordCallback, map_some]
        refine ⟨_, rfl, ?_⟩
        split
        · exact (freeOngoingRequest_leaves r _).env
        · rfl
      obtain ⟨next, matched, env⟩ := isMatched
      simp only [Option.some.injEq, forall_eq']
      rw [reachesAnswered_iff_of_called known member matched env, AnswersRequest,
        and_iff_right token]
    | none =>
      have matched : matchResponse recordCallback message ctx = some ctx := by
        simp only [matchResponse, byMid, byToken]
      rw [reachesAnswered_iff_of_matched matched (append_nil _).symm]
      constructor
      · intro _ r impossible
        cases impossible
      · exact fun _ => ⟨fun sent isCalled => absurd isCalled not_mem_nil, fun _ => ⟨rfl, rfl⟩⟩

end Matching

/-- A request with the token `[1]` to the peer 1. -/
def oneOutstanding : SentContext Nat where
  transactions := [⟨1, 5, 1, 1, .con, [], some 2⟩]
  ongoingRequests := [⟨2, [1], false, some 1, ⟨[1], 1⟩⟩]
  defaultRetransCnt := coapMaxRetransmit
  nextPtr := 3
  txData := []
  env := []

/-- A response with the message id of the request and some token. -/
def contentWith (token : List UInt8) : Packet := coapSetToken token (coapInitMessage .ack 0x45 5)

theorem knownBySent_oneOutstanding : KnownBySent oneOutstanding := by
  constructor
  · intro r member
    rw [mem_singleton.mp member]
  · intro t member r linked
    rw [mem_singleton.mp member] at linked ⊢
    rw [← some.inj linked]

theorem reachesAnswered_oneOutstanding : ReachesAnswered 1 (contentWith [1]) oneOutstanding :=
  (reachesAnswered_iff_matchesAnswered knownBySent_oneOutstanding (by decide)).mpr ⟨rfl, rfl⟩

/-- Another peer's response with another token closes the request if the message id is its
own. -/
theorem reachesAnswered_otherPeer_fails : ¬ReachesAnswered 2 (contentWith [7]) oneOutstanding := by
  rintro ⟨next, called, handled, env, reaches, -⟩
  obtain rfl := some.inj handled
  obtain rfl : [⟨[1], 1⟩] = called := env
  have same := reaches ⟨[1], 1⟩ mem_cons_self
  cases same

end Idrm.Coap
