import Idrm.Coap.Blocking
import Idrm.Coap.ParsedOptions

/-!
# What a blocking request reports

A blocking request that reports success is to have accepted all blocks of its answer. The loop
breaks this where it gives up: a response with another block number than the one asked for
ends it when it is the last block, or the fourth of its kind. The result that the callback left
with the block before it is then handed out.
-/

namespace Idrm.Coap

open Idrm.Lib Option List

/-! ## What is accepted -/

/-- The block of a response; one without the option is a block of its own. -/
def responseBlock (response : Packet) : Block := (coapGetHeaderBlock2 response).getD .zero

/-- The response to its request that a round finds in what it receives. -/
def Transport.found (transport : Transport) (reception : Reception)
    (state : Waiting RequestUserData) : Option Packet :=
  match transport with
  | .udp => reception.data.bind fun data => (matchingResponse state.request data).join
  | .tcp =>
    if state.waitingMs - reception.elapsedMs.toInt32 ≤ 0 then none
    else reception.data.bind fun data =>
      if data.length = 0 then none else (matchingResponseTcp state.request data).join

/-- The response that a round accepts: it is the block asked for, and goes to the callback. -/
def Transport.accepted (transport : Transport) (reception : Reception) :
    Progress RequestUserData → Option Packet
  | .returns _ _ => none
  | .waits state => (transport.found reception state).filter fun response =>
    decide ((state.note response).resBlock = (state.note response).blockNum)

/-- The responses that a loop accepts from some point on. -/
def Transport.acceptedFrom (transport : Transport) (defaults : RetransDefaults)
    (receptions : List Reception) (progress : Progress RequestUserData) : List Packet :=
  (visited (transport.round defaults) receptions progress).filterMap fun visit =>
    transport.accepted visit.2 visit.1

/-- The responses that `make_blocking_request` accepts. -/
def acceptedResponses (transport : Transport) (defaults : RetransDefaults) (currentMid : UInt16)
    (request : Packet) (receptions : List Reception) : List Packet :=
  ((transport.begin defaults currentMid request).map
    (transport.acceptedFrom defaults receptions)).getD []

/-- Responses that make up an answer: blocks from the first one on, in order. -/
def InSequence (responses : List Packet) : Prop :=
  ∀ index response, responses[index]? = some response → (responseBlock response).num.toNat = index

/-- Responses that make up a whole answer with some payload. -/
structure Complete (responses : List Packet) (payload : List UInt8) : Prop where
  inSequence : InSequence responses
  last : ∃ response, responses.getLast? = some response ∧ (responseBlock response).more = false
  payload : payload = (responses.map fun response => response.payload).flatten

/-- Success is reported for complete answers only. -/
def ReportsComplete (transport : Transport) (defaults : RetransDefaults) (currentMid : UInt16)
    (request : Packet) (receptions : List Reception) : Prop :=
  ∀ progress userData,
    makeBlockingRequest transport defaults currentMid request receptions = some progress →
    progress.handedOut = some userData → userData.result = .success →
    Complete (acceptedResponses transport defaults currentMid request receptions) userData.payload

/-- A round gives up on an answer of which blocks have been accepted: it finds another block
than the one asked for, and that one is the last, or the fourth of its kind. -/
def Transport.misleads (transport : Transport) (reception : Reception) :
    Progress RequestUserData → Prop
  | .returns _ _ => False
  | .waits state => ∃ response, transport.found reception state = some response ∧
      state.blockNum ≠ 0 ∧ (state.note response).resBlock ≠ (state.note response).blockNum ∧
      ((state.note response).more = false ∨ ¬ state.blockError + 1 < coapMaxAttempts)

/-! ## What a round does -/

variable {transport : Transport} {defaults : RetransDefaults} {reception : Reception}
  {state : Waiting RequestUserData}
  {next : Progress RequestUserData} {response : Packet}

/-- States of a loop that have come equally far. -/
structure Alike (one two : Waiting RequestUserData) : Prop where
  blockNum : two.blockNum = one.blockNum
  blockError : two.blockError = one.blockError
  resBlock : two.resBlock = one.resBlock
  more : two.more = one.more
  userData : two.userData = one.userData

/-- A request whose later blocks are written if the first one was. -/
def Transport.Writable (transport : Transport) (request : Packet) : Prop :=
  match transport with
  | .udp => True
  | .tcp => request.uriHost.length + request.uriPath.length + request.uriQuery.length ≤
      tcpOptionBuffer - 64

/-- The head of a loop sends the next request. -/
def Transport.Sends (transport : Transport)
    (sendNext : Waiting RequestUserData → Option (Progress RequestUserData)) : Prop :=
  ∀ {state next}, transport.Writable state.request → sendNext state = some next →
    ∃ after, next = .waits after ∧ Alike state after ∧ transport.Writable after.request

theorem sendNext_sends (defaults : RetransDefaults) :
    Transport.udp.Sends (·.sendNext defaults) := by
  intro state next writable sends
  obtain ⟨packet, -, rfl⟩ := map_eq_some_iff.mp sends
  exact ⟨_, rfl, ⟨rfl, rfl, rfl, rfl, rfl⟩, trivial⟩

theorem sameStrings_setBlock2 (num : UInt32) (more : Bool) (size : UInt16) (packet : Packet) :
    (coapSetHeaderBlock2 num more size packet).uriHost = packet.uriHost ∧
      (coapSetHeaderBlock2 num more size packet).uriPath = packet.uriPath ∧
      (coapSetHeaderBlock2 num more size packet).uriQuery = packet.uriQuery := by
  unfold coapSetHeaderBlock2
  split
  · exact ⟨rfl, rfl, rfl⟩
  · exact ⟨rfl, rfl, rfl⟩

/-- A request that is not too long for the writer is written, and none other. -/
theorem coapSerializeMessageTcp_left {request left : Packet} {packet : List UInt8}
    (serializes : coapSerializeMessageTcp request = some (packet, left)) :
    (packet.length = 0 ↔ ¬ Transport.tcp.Writable request) ∧
    left = { request with token := tcpToken request } := by
  unfold coapSerializeMessageTcp at serializes
  simp only at serializes
  split at serializes
  · rename_i long
    obtain ⟨rfl, rfl⟩ := Prod.mk.inj (some.inj serializes)
    exact ⟨⟨fun _ => Nat.not_le_of_gt long, fun _ => rfl⟩, rfl⟩
  · rename_i short
    split at serializes
    · cases serializes
    · obtain ⟨rfl, rfl⟩ := Prod.mk.inj (some.inj serializes)
      refine ⟨⟨fun empty => ?_, fun long => absurd (Nat.le_of_not_gt short) long⟩, rfl⟩
      simp at empty

/-- The number of a request, its token and its block do not change its strings. -/
theorem nextRequest_writable (state : Waiting RequestUserData) : Transport.tcp.Writable
      (coapSetHeaderBlock2 state.blockNum false (UInt16.ofNat restMaxChunkSize) (coapSetToken
      (midBytes (state.currentMid + 1)) { state.request with mid := state.currentMid + 1 })) ↔
    Transport.tcp.Writable state.request := by
  obtain ⟨host, path, query⟩ := sameStrings_setBlock2 state.blockNum false
    (UInt16.ofNat restMaxChunkSize) (coapSetToken (midBytes (state.currentMid + 1))
    { state.request with mid := state.currentMid + 1 })
  unfold Transport.Writable
  rw [host, path, query]
  rfl

theorem sendNextTcp_sends (ret : Int) : Transport.tcp.Sends (·.sendNextTcp ret) := by
  intro state next writable sends
  obtain ⟨⟨packet, request⟩, serializes, rfl⟩ := map_eq_some_iff.mp sends
  obtain ⟨written, rfl⟩ := coapSerializeMessageTcp_left serializes
  have still := (nextRequest_writable state).mpr writable
  refine ⟨_, if_neg fun empty => written.mp empty still, ?_, ?_⟩
  · exact ⟨rfl, rfl, rfl, rfl, rfl⟩
  · exact still

/-- A request that is too long is not sent at all. -/
theorem sendNextTcp_refuses {ret : Int} (long : ¬ Transport.tcp.Writable state.request)
    (sends : state.sendNextTcp ret = some next) : next = .returns ret state.userData := by
  obtain ⟨⟨packet, request⟩, serializes, rfl⟩ := map_eq_some_iff.mp sends
  obtain ⟨written, -⟩ := coapSerializeMessageTcp_left serializes
  exact if_pos (written.mpr fun writable => long ((nextRequest_writable state).mp writable))

/-- A response that a round finds has a block number of 28 bits. -/
theorem found_num (found : transport.found reception state = some response) :
    (responseBlock response).num.toNat < 2 ^ 28 := by
  have parsed : response.block2.num.toNat < 2 ^ 28 := by
    cases transport with
    | udp =>
      obtain ⟨data, -, joined⟩ := bind_eq_some_iff.mp found
      obtain ⟨parsed, parses, matched⟩ := map_eq_some_iff.mp (join_eq_some_iff.mp joined)
      cases parsed with
      | error status => cases matched
      | ok parsed =>
        simp only at matched
        split at matched
        · cases matched
        · exact some.inj matched ▸ coapParseMessage_block2 parses
    | tcp =>
      simp only [Transport.found] at found
      split at found
      · cases found
      obtain ⟨data, -, found⟩ := bind_eq_some_iff.mp found
      split at found
      · cases found
      obtain ⟨parsed, parses, matched⟩ := map_eq_some_iff.mp (join_eq_some_iff.mp found)
      cases parsed with
      | error status => cases matched
      | ok parsed =>
        simp only at matched
        split at matched
        · cases matched
        · exact some.inj matched ▸ coapParseMessageTcp_block2 parses
  unfold responseBlock coapGetHeaderBlock2
  split
  · exact parsed
  · decide

/-- A round that finds no response waits, or gives up. -/
theorem round_nothing (nothing : transport.found reception state = none)
    (writable : transport.Writable state.request)
    (rounds : transport.round defaults reception (.waits state) = some next) :
    (∃ after, next = .waits after ∧ Alike state after ∧ transport.Writable after.request) ∨
    ∃ userData, next = .returns (-1) userData := by
  cases transport with
  | udp =>
    simp only [Transport.round, coapBlockingRequest] at rounds
    cases arrived : reception.data with
    | none =>
      rw [arrived] at rounds
      simp only at rounds
      split at rounds
      · exact .inr ⟨_, (some.inj rounds).symm⟩
      · exact .inl ⟨_, (some.inj rounds).symm, ⟨rfl, rfl, rfl, rfl, rfl⟩, trivial⟩
    | some data =>
      rw [arrived] at rounds
      obtain ⟨found, matched, rounds⟩ := bind_eq_some_iff.mp rounds
      rw [Transport.found, arrived, bind_some, matched, join_some] at nothing
      subst nothing
      exact .inl ⟨_, (some.inj rounds).symm, ⟨rfl, rfl, rfl, rfl, rfl⟩, trivial⟩
  | tcp =>
    have abandons :
        ∀ {after : Waiting RequestUserData}, after.abandon blockingRequestHandler = some next →
        ∃ userData, next = .returns (-1) userData := by
      intro after abandons
      obtain ⟨called, -, rfl⟩ := map_eq_some_iff.mp abandons
      exact ⟨_, rfl⟩
    simp only [Transport.round, coapBlockingRequestTcp] at rounds
    split at rounds
    · exact .inr (abandons rounds)
    rename_i early
    rw [Transport.found, if_neg early] at nothing
    cases arrived : reception.data with
    | none =>
      rw [arrived] at rounds
      exact .inr (abandons rounds)
    | some data =>
      rw [arrived] at rounds nothing
      simp only at rounds
      split at rounds
      · exact .inr (abandons rounds)
      rename_i filled
      obtain ⟨found, matched, rounds⟩ := bind_eq_some_iff.mp rounds
      rw [bind_some, if_neg filled, matched, join_some] at nothing
      subst nothing
      exact .inl ⟨_, (some.inj rounds).symm, ⟨rfl, rfl, rfl, rfl, rfl⟩, writable⟩

/-- A round that finds a response deals with it. -/
theorem round_found (defaults : RetransDefaults)
    (found : transport.found reception state = some response) :
    ∃ (after : Waiting RequestUserData) (stopped ret : Int)
      (sendNext : Waiting RequestUserData → Option (Progress RequestUserData)),
    Alike state after ∧ after.request = state.request ∧ transport.Sends sendNext ∧ ret ≠ -1 ∧
    transport.round defaults reception (.waits state) =
      after.respond blockingRequestHandler stopped ret sendNext response := by
  cases transport with
  | udp =>
    obtain ⟨data, arrived, joined⟩ := bind_eq_some_iff.mp found
    refine ⟨{ state with waitingMs := if state.waitingMs.toUInt32 > reception.elapsedMs then
        state.waitingMs - reception.elapsedMs.toInt32 else 1 }, 0, data.length,
          (·.sendNext defaults),
      ⟨rfl, rfl, rfl, rfl, rfl⟩, rfl, sendNext_sends defaults, by omega, ?_⟩
    simp only [Transport.round, coapBlockingRequest, arrived, join_eq_some_iff.mp joined, bind_some]
  | tcp =>
    simp only [Transport.found] at found
    split at found
    · cases found
    rename_i early
    obtain ⟨data, arrived, found⟩ := bind_eq_some_iff.mp found
    split at found
    · cases found
    rename_i filled
    refine ⟨{ state with waitingMs := state.waitingMs - reception.elapsedMs.toInt32 },
      -1, data.length, (·.sendNextTcp data.length), ⟨rfl, rfl, rfl, rfl, rfl⟩, rfl,
      sendNextTcp_sends data.length, by omega, ?_⟩
    simp only [Transport.round, coapBlockingRequestTcp, arrived, if_neg early, if_neg filled,
      join_eq_some_iff.mp found, bind_some]

/-! ## What has been gathered -/

/-- What a waiting loop has gathered: the accepted responses are the first blocks, and none of
them was the last. -/
structure Gathered (responses : List Packet) (state : Waiting RequestUserData) : Prop where
  counted : state.blockNum.toNat = responses.length
  inSequence : InSequence responses
  goOn : ∀ response ∈ responses, (responseBlock response).more = true
  payload : state.userData.payload = (responses.map fun response => response.payload).flatten
  result : state.userData.result = if responses = [] then .fail else .success
  noted : (state.resBlock = 0 ∧ state.more = false ∧ responses = []) ∨
    state.resBlock ≠ state.blockNum
  errors : state.blockError < coapMaxAttempts

variable {responses : List Packet} {after : Waiting RequestUserData}

theorem Alike.note (alike : Alike state after) (response : Packet) : Alike (state.note response)
    (after.note response) := by
  unfold Waiting.note
  split
  · exact ⟨alike.blockNum, alike.blockError, rfl, rfl, alike.userData⟩
  · exact alike

theorem Gathered.alike (gathered : Gathered responses state) (alike : Alike state after) :
    Gathered responses after where
  counted := by rw [alike.blockNum, gathered.counted]
  inSequence := gathered.inSequence
  goOn := gathered.goOn
  payload := by rw [alike.userData, gathered.payload]
  result := by rw [alike.userData, gathered.result]
  noted := by rw [alike.resBlock, alike.more, alike.blockNum]; exact gathered.noted
  errors := by rw [alike.blockError]; exact gathered.errors

/-- Blocks have been accepted when the first one is no longer asked for. -/
theorem Gathered.blockNum_eq_zero (gathered : Gathered responses state) : state.blockNum = 0 ↔
    responses = [] := by
  rw [← UInt32.toNat_inj, gathered.counted]
  exact length_eq_zero_iff

/-- The response that brings the block asked for is the next one. One without a block option
can only be the first, and is the last as well. -/
theorem Gathered.asked (gathered : Gathered responses state)
    (asked : (state.note response).resBlock = (state.note response).blockNum) :
    (responseBlock response).num.toNat = responses.length ∧
    (responseBlock response).more = (state.note response).more := by
  unfold Waiting.note at asked ⊢
  unfold responseBlock
  cases option : coapGetHeaderBlock2 response with
  | none =>
    rw [option] at asked
    obtain ⟨-, last, rfl⟩ := gathered.noted.resolve_right fun differs => differs asked
    exact ⟨rfl, last.symm⟩
  | some block =>
    rw [option] at asked
    exact ⟨by rw [← gathered.counted]; exact congrArg UInt32.toNat asked, rfl⟩

theorem InSequence.concat (inSequence : InSequence responses)
    (next : (responseBlock response).num.toNat = responses.length) :
    InSequence (responses ++ [response]) := by
  intro index other at_
  rcases Nat.lt_or_ge index responses.length with before | behind
  · rw [List.getElem?_append_left before] at at_
    exact inSequence index other at_
  · rw [List.getElem?_append_right behind, List.getElem?_singleton] at at_
    split at at_
    · obtain rfl := some.inj at_
      omega
    · cases at_

/-- A loop that waits has gathered part of an answer, and one that returns with success all of
it. -/
def Transport.Honest (transport : Transport) (responses : List Packet) :
    Progress RequestUserData → Prop
  | .waits state => Gathered responses state ∧ transport.Writable state.request
  | .returns ret userData => ret ≠ -1 → userData.result = .success →
      Complete responses userData.payload

/-- Accepting the last block completes the answer. -/
theorem Gathered.complete (gathered : Gathered responses state)
    (next : (responseBlock response).num.toNat = responses.length)
    (last : (responseBlock response).more = false) :
    Complete (responses ++ [response]) (state.userData.payload ++ response.payload) where
  inSequence := gathered.inSequence.concat next
  last := ⟨response, List.getLast?_concat, last⟩
  payload := by rw [gathered.payload, map_append, flatten_append]; simp

/-- Accepting another block leaves a loop that waits for the one behind it. -/
theorem Gathered.accept (gathered : Gathered responses state)
    (next : (responseBlock response).num.toNat = responses.length)
    (narrow : (responseBlock response).num.toNat < 2 ^ 28)
    (more : (responseBlock response).more = true)
    (asked : after.resBlock = state.blockNum) (counted : after.blockNum = state.blockNum + 1)
    (errors : after.blockError = state.blockError)
    (userData : after.userData = ⟨state.userData.payload ++ response.payload, .success⟩) :
    Gathered (responses ++ [response]) after where
  counted := by
    rw [counted, UInt32.toNat_add, gathered.counted, show (1 : UInt32).toNat = 1 from rfl,
      length_append, length_singleton]
    omega
  inSequence := gathered.inSequence.concat next
  goOn := by
    intro other member
    rcases mem_append.mp member with earlier | same
    · exact gathered.goOn other earlier
    · rw [mem_singleton.mp same]
      exact more
  payload := by rw [userData, gathered.payload, map_append, flatten_append]; simp
  result := by
    rw [userData, if_neg (by simp)]
  noted := by
    refine .inr ?_
    rw [asked, counted]
    intro same
    have wraps := congrArg UInt32.toNat same
    rw [UInt32.toNat_add, gathered.counted, show (1 : UInt32).toNat = 1 from rfl] at wraps
    omega
  errors := by rw [errors]; exact gathered.errors

/-- The callback stops a request for a response that brings no content, and else takes its
payload in. -/
theorem blockingRequestHandler_some {userCtx userData : RequestUserData} {answer : Int}
    (called : blockingRequestHandler userCtx (some response) = some (answer, userData)) :
    (answer = stopRequest ∧ userData.result = .fail) ∨
      (answer ≠ stopRequest ∧ userData = ⟨userCtx.payload ++ response.payload, .success⟩) := by
  simp only [blockingRequestHandler] at called
  split at called
  · obtain ⟨rfl, rfl⟩ := Prod.mk.inj (some.inj called)
    exact .inl ⟨rfl, rfl⟩
  · split at called
    · cases called
    · obtain ⟨rfl, rfl⟩ := Prod.mk.inj (some.inj called)
      exact .inr ⟨by decide, rfl⟩

/-- A response changes nothing but what the last block option said. -/
theorem note_same (response : Packet) (state : Waiting RequestUserData) :
    (state.note response).blockNum = state.blockNum ∧
    (state.note response).blockError = state.blockError ∧
    (state.note response).userData = state.userData ∧
    (state.note response).request = state.request := by
  unfold Waiting.note
  split
  · exact ⟨rfl, rfl, rfl, rfl⟩
  · exact ⟨rfl, rfl, rfl, rfl⟩

variable {sendNext : Waiting RequestUserData → Option (Progress RequestUserData)}

/-- The end of a round, by cases. -/
theorem proceed_cases {ret : Int} (proceeds : state.proceed ret sendNext = some next)
    (sends : transport.Sends sendNext) (writable : transport.Writable state.request) :
    (state.more = false ∧ next = .returns 0 state.userData) ∨
    (state.more = true ∧ state.blockError < coapMaxAttempts ∧
      ∃ after, next = .waits after ∧ Alike state after ∧ transport.Writable after.request) ∨
    (¬ state.blockError < coapMaxAttempts ∧ next = .returns ret state.userData) := by
  unfold Waiting.proceed at proceeds
  split at proceeds
  · exact .inl ⟨‹_›, (some.inj proceeds).symm⟩
  · rename_i goesOn
    split at proceeds
    · exact .inr (.inl ⟨Bool.not_eq_false _ ▸ goesOn, ‹_›, sends writable proceeds⟩)
    · exact .inr (.inr ⟨‹_›, (some.inj proceeds).symm⟩)

/-- Dealing with the block asked for keeps a loop honest. -/
theorem Gathered.respond_asked (gathered : Gathered responses state)
    (writable : transport.Writable state.request)
    (narrow : (responseBlock response).num.toNat < 2 ^ 28) {stopped ret : Int}
    (sends : transport.Sends sendNext)
    (asked : (state.note response).resBlock = (state.note response).blockNum)
    (responds : state.respond blockingRequestHandler stopped ret sendNext response = some next) :
    transport.Honest (responses ++ [response]) next := by
  obtain ⟨isNext, more⟩ := gathered.asked asked
  obtain ⟨blockNum, blockError, userData, request⟩ := note_same response state
  rw [Waiting.respond, if_pos asked] at responds
  obtain ⟨⟨answer, left⟩, called, responds⟩ := bind_eq_some_iff.mp responds
  rw [userData] at called
  rcases blockingRequestHandler_some called with ⟨rfl, failed⟩ | ⟨goesOn, rfl⟩
  · obtain rfl := some.inj responds
    intro _ succeeded
    rw [failed] at succeeded
    cases succeeded
  simp only [if_neg goesOn] at responds
  have stillWritable : transport.Writable (state.note response).request := by rwa [request]
  rcases proceed_cases responds sends stillWritable with ⟨last, rfl⟩ |
    ⟨goesOn, -, after, rfl, alike, writes⟩ | ⟨tooMany, rfl⟩
  · exact fun _ _ => gathered.complete isNext (more.trans last)
  · refine ⟨gathered.accept isNext narrow (more.trans goesOn) ?_ ?_ ?_ ?_, writes⟩
    · rw [alike.resBlock]
      exact asked.trans blockNum
    · rw [alike.blockNum]
      exact congrArg (· + 1) blockNum
    · exact alike.blockError.trans blockError
    · exact alike.userData
  · exact absurd (blockError ▸ gathered.errors) tooMany

/-- Dealing with another block keeps a loop honest that goes on, or has accepted none. -/
theorem Gathered.respond_other (gathered : Gathered responses state)
    (writable : transport.Writable state.request)
    {stopped ret : Int} (sends : transport.Sends sendNext)
    (other : (state.note response).resBlock ≠ (state.note response).blockNum)
    (harmless : responses = [] ∨
      ((state.note response).more = true ∧ state.blockError + 1 < coapMaxAttempts))
    (responds : state.respond blockingRequestHandler stopped ret sendNext response = some next) :
    transport.Honest responses next := by
  obtain ⟨blockNum, blockError, userData, request⟩ := note_same response state
  rw [Waiting.respond, if_neg other] at responds
  have stillWritable : transport.Writable (state.note response).request := by rwa [request]
  have fails : ∀ ret, responses = [] →
      transport.Honest responses (.returns ret (state.note response).userData) := by
    intro ret none _ succeeded
    rw [userData, gathered.result, if_pos none] at succeeded
    cases succeeded
  rcases proceed_cases responds sends stillWritable with ⟨last, rfl⟩ |
    ⟨-, fewer, after, rfl, alike, writes⟩ | ⟨tooMany, rfl⟩
  · rcases harmless with none | ⟨goesOn, -⟩
    · exact fails 0 none
    · exact absurd (goesOn.symm.trans last) (by decide)
  · refine ⟨⟨?_, gathered.inSequence, gathered.goOn, ?_, ?_, .inr ?_, ?_⟩, writes⟩
    · rw [alike.blockNum]
      exact (congrArg UInt32.toNat blockNum).trans gathered.counted
    · rw [alike.userData]
      exact (congrArg RequestUserData.payload userData).trans gathered.payload
    · rw [alike.userData]
      exact (congrArg RequestUserData.result userData).trans gathered.result
    · rw [alike.resBlock, alike.blockNum]
      exact other
    · rw [alike.blockError]
      exact fewer
  · rcases harmless with none | ⟨-, fewer⟩
    · exact fails ret none
    · exact absurd (show (state.note response).blockError + 1 < coapMaxAttempts from
        blockError.symm ▸ fewer) tooMany

/-! ## Runs -/

variable {progress final : Progress RequestUserData} {receptions : List Reception}

/-- A round that does not mislead keeps a loop honest. -/
theorem Transport.Honest.round (honest : transport.Honest responses progress)
    (rounds : transport.round defaults reception progress = some next)
    (leads : ¬ transport.misleads reception progress) :
    transport.Honest (responses ++ (transport.accepted reception progress).toList) next := by
  cases progress with
  | returns ret userData =>
    obtain rfl := some.inj rounds
    rw [Transport.accepted, toList_none, append_nil]
    exact honest
  | waits state =>
    obtain ⟨gathered, writable⟩ := honest
    cases found : transport.found reception state with
    | none =>
      rw [Transport.accepted, found, filter_none, toList_none, append_nil]
      rcases round_nothing found writable rounds with ⟨after, rfl, alike, writes⟩ | ⟨userData, rfl⟩
      · exact ⟨gathered.alike alike, writes⟩
      · exact fun differs => absurd rfl differs
    | some response =>
      obtain ⟨after, stopped, ret, sendNext, alike, request, sends, -, responds⟩ :=
        round_found defaults found
      have noted := alike.note response
      have stillGathered := gathered.alike alike
      have stillWritable : transport.Writable after.request := by rwa [request]
      rw [responds] at rounds
      by_cases asked : (state.note response).resBlock = (state.note response).blockNum
      · rw [Transport.accepted, found, filter_some, if_pos (decide_eq_true asked), toList_some]
        rw [← noted.resBlock, ← noted.blockNum] at asked
        exact stillGathered.respond_asked stillWritable (found_num found) sends asked rounds
      · rw [Transport.accepted, found, filter_some, if_neg (by simpa using asked),
          toList_none, append_nil]
        refine stillGathered.respond_other stillWritable sends ?_ ?_ rounds
        · rwa [noted.resBlock, noted.blockNum]
        · rw [noted.more, alike.blockError, ← gathered.blockNum_eq_zero]
          by_contra harmful
          obtain ⟨accepted, ends⟩ := not_or.mp harmful
          refine leads ⟨response, found, accepted, asked, ?_⟩
          by_cases last : (state.note response).more = false
          · exact .inl last
          · exact .inr fun fewer => ends ⟨Bool.not_eq_false _ ▸ last, fewer⟩

/-- A loop has accepted what a round accepts, and what it accepts from there. -/
theorem acceptedFrom_cons (rounds : transport.round defaults reception progress = some next) :
    transport.acceptedFrom defaults (reception :: receptions) progress = (transport.accepted
      reception progress).toList ++ transport.acceptedFrom defaults receptions next := by
  rw [Transport.acceptedFrom, visited, rounds, map_some, getD_some, filterMap_cons]
  cases transport.accepted reception progress with
  | none => rfl
  | some response => rfl

/-- A run without a misleading round keeps a loop honest. -/
theorem Transport.Honest.run (honest : transport.Honest responses progress)
    (ran : runAll (transport.round defaults) receptions progress = some final)
    (leads : ∀ visit ∈ visited (transport.round defaults) receptions progress,
      ¬ transport.misleads visit.2 visit.1) :
    transport.Honest (responses ++ transport.acceptedFrom defaults receptions progress) final := by
  induction receptions generalizing progress responses with
  | nil =>
    obtain rfl := some.inj ran
    rw [Transport.acceptedFrom, visited, filterMap_nil, append_nil]
    exact honest
  | cons reception rest ih =>
    obtain ⟨next, rounds, later⟩ := bind_eq_some_iff.mp ran
    rw [visited, rounds, map_some, getD_some] at leads
    rw [acceptedFrom_cons rounds, ← append_assoc]
    exact ih (honest.round rounds (leads _ mem_cons_self)) later
      fun visit member => leads visit (mem_cons_of_mem _ member)

/-- A misleading round returns the success that the block before it left. -/
theorem misleads_returns (defaults : RetransDefaults) (gathered : Gathered responses state)
    (misleads : transport.misleads reception (.waits state)) : ∃ ret userData,
    transport.round defaults reception (.waits state) = some (.returns ret userData) ∧ ret ≠ -1 ∧
    userData.result = .success ∧ transport.accepted reception (.waits state) = none ∧
    responses ≠ [] := by
  obtain ⟨response, found, accepted, other, ends⟩ := misleads
  obtain ⟨after, stopped, ret, sendNext, alike, -, -, valid, responds⟩ := round_found defaults found
  have noted := alike.note response
  obtain ⟨-, blockError, userData, -⟩ := note_same response after
  have some_ : responses ≠ [] := fun none => accepted (gathered.blockNum_eq_zero.mpr none)
  have succeeded : (after.note response).userData.result = .success := by
    rw [userData, alike.userData, gathered.result, if_neg some_]
  have nothing : transport.accepted reception (.waits state) = none := by
    rw [Transport.accepted, found, filter_some, if_neg (by simpa using other)]
  have still : (after.note response).resBlock ≠ (after.note response).blockNum := by
    rwa [noted.resBlock, noted.blockNum]
  rw [responds, Waiting.respond, if_neg still, Waiting.proceed]
  by_cases last : (after.note response).more = false
  · exact ⟨0, _, if_pos last, by decide, succeeded, nothing, some_⟩
  · have tooMany : ¬ (after.note response).blockError + 1 < coapMaxAttempts := by
      rw [blockError, alike.blockError]
      exact ends.resolve_left (noted.more ▸ last)
    exact ⟨ret, _, by rw [if_neg last, if_neg tooMany], valid, succeeded, nothing, some_⟩

/-- Nothing more is received or accepted behind the end of a loop. -/
theorem returned_stays (transport : Transport) (defaults : RetransDefaults)
    (ret : Int) (userData : RequestUserData) (receptions : List Reception) : runAll
      (transport.round defaults) receptions (.returns ret userData) = some (.returns ret userData) ∧
    transport.acceptedFrom defaults receptions (.returns ret userData) = [] := by
  induction receptions with
  | nil => exact ⟨rfl, rfl⟩
  | cons reception rest ih =>
    have stays : transport.round defaults reception (.returns ret userData) =
      some (.returns ret userData) := rfl
    rw [runAll, acceptedFrom_cons stays, stays, bind_some]
    exact ih

/-- A run with a misleading round reports success for part of an answer. -/
theorem Transport.Honest.misled (honest : transport.Honest responses progress)
    (misled : ∃ visit ∈ visited (transport.round defaults) receptions progress,
      transport.misleads visit.2 visit.1) : ∃ ret userData,
    runAll (transport.round defaults) receptions progress = some (.returns ret userData) ∧
    ret ≠ -1 ∧ userData.result = .success ∧ ¬ Complete
      (responses ++ transport.acceptedFrom defaults receptions progress) userData.payload := by
  induction receptions generalizing progress responses with
  | nil =>
    obtain ⟨visit, member, -⟩ := misled
    cases member
  | cons reception rest ih =>
    by_cases here : transport.misleads reception progress
    · cases progress with
      | returns ret userData => exact absurd here id
      | waits state =>
        obtain ⟨ret, userData, rounds, valid, succeeded, nothing, some_⟩ :=
          misleads_returns defaults honest.1 here
        obtain ⟨stays, noMore⟩ := returned_stays transport defaults ret userData rest
        refine ⟨ret, userData, by rw [runAll, rounds, bind_some, stays], valid, succeeded, ?_⟩
        rw [acceptedFrom_cons rounds, nothing, noMore, toList_none, append_nil, append_nil]
        rintro ⟨-, ⟨response, last, ends⟩, -⟩
        have goesOn := honest.1.goOn response (mem_of_getLast? last)
        exact absurd (goesOn.symm.trans ends) (by decide)
    · obtain ⟨visit, member, misleads⟩ := misled
      rw [visited] at member
      rcases mem_cons.mp member with rfl | later
      · exact absurd misleads here
      cases rounds : transport.round defaults reception progress with
      | none =>
        rw [rounds] at later
        cases later
      | some next =>
        rw [rounds, map_some, getD_some] at later
        rw [runAll, rounds, acceptedFrom_cons rounds, ← append_assoc]
        exact ih (honest.round rounds here) ⟨visit, later, misleads⟩

/-- The first request leaves a loop that has gathered nothing. -/
theorem begin_honest {currentMid : UInt16}
    {request : Packet} (begins : transport.begin defaults currentMid request = some progress) :
    transport.Honest [] progress := by
  have nothing : ∀ {after : Waiting RequestUserData},
      Alike (Waiting.start defaults currentMid request .zero) after → Gathered [] after := by
    intro after alike
    refine Gathered.alike ⟨rfl, ?_, ?_, rfl, rfl, .inl ⟨rfl, rfl, rfl⟩,
      show (0 : UInt8) < coapMaxAttempts by decide⟩ alike
    · intro index response at_
      cases at_
    · intro response member
      cases member
  cases transport with
  | udp =>
    obtain ⟨after, rfl, alike, writes⟩ := sendNext_sends defaults trivial begins
    exact ⟨nothing alike, writes⟩
  | tcp =>
    by_cases writable : Transport.tcp.Writable request
    · have starts : Transport.tcp.Writable
        (Waiting.start defaults currentMid request RequestUserData.zero).request := writable
      obtain ⟨after, rfl, alike, writes⟩ := sendNextTcp_sends (-1) starts begins
      exact ⟨nothing alike, writes⟩
    · have long : ¬ Transport.tcp.Writable
        (Waiting.start defaults currentMid request RequestUserData.zero).request := writable
      obtain rfl := sendNextTcp_refuses long begins
      exact fun valid => absurd rfl valid

/-- A blocking request reports success for complete answers only, exactly when no round gives
up on an answer of which blocks have been accepted. -/
theorem reportsComplete_iff (transport : Transport) (defaults : RetransDefaults)
    (currentMid : UInt16) (request : Packet) (receptions : List Reception) :
    ReportsComplete transport defaults currentMid request receptions ↔
    ∀ start, transport.begin defaults currentMid request = some start →
    ∀ visit ∈ visited (transport.round defaults) receptions start,
    ¬ transport.misleads visit.2 visit.1 := by
  unfold ReportsComplete makeBlockingRequest acceptedResponses
  cases begins : transport.begin defaults currentMid request with
  | none =>
    constructor
    · rintro - start begun
      cases begun
    · rintro - progress userData ran
      cases ran
  | some start =>
    have honest := begin_honest begins
    rw [bind_some, map_some, getD_some]
    constructor
    · intro complete other begun visit member misleads
      obtain rfl := some.inj begun
      obtain ⟨ret, userData, ran, valid, succeeded, partly⟩ :=
        honest.misled ⟨visit, member, misleads⟩
      exact partly (complete _ userData ran (if_pos valid) succeeded)
    · intro leads progress userData ran handedOut succeeded
      have ended := honest.run ran (leads start rfl)
      cases progress with
      | waits state => cases handedOut
      | returns ret left =>
        rw [Progress.handedOut] at handedOut
        split at handedOut
        · rename_i valid
          obtain rfl := some.inj handedOut
          exact ended valid succeeded
        · cases handedOut

/-- The first block of an answer, then one that no one asked for. -/
def strayBlock : List Reception :=
  [⟨0, some [0x60, 0x45, 0, 1, 0xD1, 0x0A, 0x0E, 0xFF, 0x61]⟩,
    ⟨0, some [0x60, 0x45, 0, 2, 0xD1, 0x0A, 0x56, 0xFF, 0x62]⟩]

/-- Behind the first of two blocks or more comes block 5, the last of another answer: success
is reported for the first block. -/
theorem reportsComplete_fails :
    ¬ ReportsComplete .udp ⟨4, 2000⟩ 0 (coapInitMessage .con coapGet 0) strayBlock := by
  have ends : (makeBlockingRequest .udp ⟨4, 2000⟩ 0 (coapInitMessage .con coapGet 0)
    strayBlock).bind Progress.handedOut = some ⟨[0x61], .success⟩ := by decide +kernel
  have goOn :
    ∀ response ∈ acceptedResponses .udp ⟨4, 2000⟩ 0 (coapInitMessage .con coapGet 0) strayBlock,
    (responseBlock response).more = true := by decide +kernel
  obtain ⟨progress, ran, handedOut⟩ := bind_eq_some_iff.mp ends
  intro complete
  obtain ⟨-, ⟨response, last, ends⟩, -⟩ := complete progress _ ran handedOut rfl
  exact absurd ((goOn response (mem_of_getLast? last)).symm.trans ends) (by decide)

end Idrm.Coap
