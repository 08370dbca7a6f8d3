import Idrm.Coap.DownloadClient
import Idrm.Coap.Upload

/-!
# Downloads from end to end

A client that gets a representation and a server whose handler produces it: whatever its
length, the handler is called once, and the client's callback with responses whose
payloads make up the representation. All but the last of them tell of more.
-/

namespace Idrm.Coap

open Idrm.Lib List

section Download

variable {A U E : Type} {network : Network A U} {base link : Link A U E}
  {request served : Packet} {callback : U}
  {handler : Handler E} {url : CString} {index blocks : Nat}

/-- What a download comes to: the handler was called once, and the callback with the
blocks of what the handler handed out. -/
structure Downloaded (base : Link A U E) (request : Packet) (callback : U) (handler : Handler E)
    (link : Link A U E) : Prop where
  delivered : link.client.txData = [] ∧ link.server.txData = []
  transactions : link.client.transactions = base.client.transactions
  states : link.client.env.states = base.client.env.states
  called : ∃ served front last, link.server.handled = base.server.handled ++ [served] ∧
    served.code = request.code ∧ coapGetFullUrlAlloc served = coapGetFullUrlAlloc request ∧
    link.server.app = (handler served base.server.app).2 ∧ link.client.env.called =
    base.client.env.called ++ (front ++ [last]).map (fun response => (callback, some response)) ∧
    (front ++ [last]).flatMap CoapPacket.payload =
    (handler served base.server.app).1.representation ∧
    (∀ response ∈ front, moreBlocks response = true) ∧ moreBlocks last = false

/-- A request that the handler has answered. -/
structure Served (base : Link A U E) (request : Packet) (handler : Handler E) (blocks : Nat)
    (served : Packet) (representation : List UInt8) : Prop where
  code : served.code = request.code
  url : coapGetFullUrlAlloc served = coapGetFullUrlAlloc request
  result : (handler served base.server.app).1.representation = representation
  last : lastChunk representation ≤ blocks

/-- What the client holds of a download before a block arrives. -/
structure Collected (base : Link A U E) (representation : List UInt8) (index : Nat)
    (requests : List (OngoingRequest (ClientCallback U))) (responses : List Packet) : Prop where
  allocated : ∀ r ∈ requests, r.ptr < base.client.nextPtr + 1 + 2 * index
  payloads : responses.flatMap CoapPacket.payload = representation.take (1024 * index)
  more : ∀ response ∈ responses, moreBlocks response = true

/-- The calls of a callback with responses. -/
def callsWith (callback : U) (base : Link A U E) (responses : List Packet) :
    List (U × Option Packet) :=
  base.client.env.called ++ responses.map fun response => (callback, some response)

theorem callsWith_snoc (callback : U) (base : Link A U E) (responses : List Packet)
    (response : Packet) : callsWith callback base responses ++ [(callback, some response)] =
      callsWith callback base (responses ++ [response]) := by
  rw [callsWith, callsWith, map_append, append_assoc]
  rfl

theorem moreBlocks_arrives {sent packet : Packet} (arrives : Arrives sent packet) :
    moreBlocks packet = moreBlocks sent ∧ ((coapGetHeaderBlock2 packet).getD .zero).num =
      ((coapGetHeaderBlock2 sent).getD .zero).num := by
  rw [moreBlocks, moreBlocks, arrives.block2]
  cases coapGetHeaderBlock2 sent with
  | none => exact ⟨rfl, rfl⟩
  | some block => exact ⟨rfl, rfl⟩

theorem Collected.next {representation : List UInt8}
    {requests left : List (OngoingRequest (ClientCallback U))}
    {responses : List Packet} {response : Packet}
    (collected : Collected base representation index requests responses)
    (allocated : ∀ r ∈ left, r.ptr < base.client.nextPtr + 1 + 2 * (index + 1))
    (payload : response.payload = chunkAt representation index)
    (more : moreBlocks response = true) :
    Collected base representation (index + 1) left (responses ++ [response]) where
  allocated := allocated
  payloads := by
    rw [flatMap_append, collected.payloads, flatMap_cons, flatMap_nil, append_nil, payload,
      take_chunkAt]
  more := by
    intro other member
    rcases mem_append.mp member with member | member
    · exact collected.more other member
    · rw [mem_singleton.mp member]
      exact more

theorem take_lastChunk (representation : List UInt8) :
    representation.take (1024 * (lastChunk representation + 1)) = representation := by
  refine take_of_length_le ?_
  rw [lastChunk]
  omega

/-- A message of a download, as the server gets it. -/
theorem downloadMessage_arrives {packet : Packet} (downloadable : Downloadable request blocks)
    (small : blocks < 2 ^ 20) (inside : index ≤ blocks)
    (arrives : Arrives (downloadMessage base.client request index) packet) :
    Confirmable packet ∧ packet.code = coapGet ∧
    coapGetHeaderUriPath packet = coapGetHeaderUriPath request ∧
    coapGetFullUrlAlloc packet = coapGetFullUrlAlloc request ∧ coapGetHeaderBlock2 packet =
      if index = 0 then none else some ⟨UInt32.ofNat index, false, 1024, packet.block2.offset⟩ := by
  obtain ⟨asks, -, sendable⟩ :=
    @downloadMessage_carried A U base.client request index blocks downloadable small inside
  obtain ⟨path, url⟩ := asks.paths
  refine ⟨⟨arrives.type.trans sendable.con, by rw [arrives.token]; exact sendable.token⟩,
    arrives.code.trans (asks.code.trans downloadable.get), arrives.uriPath.trans path,
    arrives.fullUrl.trans url, ?_⟩
  rw [arrives.block2]
  by_cases first : index = 0
  · have plain : coapGetHeaderBlock2 (downloadMessage base.client request index) = none := by
      rw [coapGetHeaderBlock2, downloadMessage, getMessage, if_pos first]
      exact if_neg (Bool.eq_false_iff.mp downloadable.plain)
    rw [plain, if_pos first, Option.map_none]
  · obtain ⟨offset, block⟩ := asks.block first
    rw [block, if_neg first, Option.map_some]

theorem downloadMessage_isRequest (downloadable : Downloadable request blocks)
    (small : blocks < 2 ^ 20)
    (inside : index ≤ blocks) : isRequest (downloadMessage base.client request index) = true := by
  obtain ⟨asks, -, -⟩ :=
    @downloadMessage_carried A U base.client request index blocks downloadable small inside
  rw [isRequest, asks.code, downloadable.get]
  rfl

section Rounds

variable [DecidableEq A]

/-- A server that keeps nothing for a download, and whose handler answers it. -/
structure DownloadServer (server : ServerContext A E) (source : A) (request : Packet)
    (handler : Handler E) (blocks : Nat) : Prop where
  serves : Serves server request handler
  represents : Represents handler blocks
  absent : ∀ url, coapGetFullUrlAlloc request = some url →
    findBlock source url true server.blockwise = none

/-- The request for a later block, on its way to the server. -/
def DownloadRound (network : Network A U) (base : Link A U E) (request : Packet) (callback : U)
    (handler : Handler E) (served : Packet) (representation : List UInt8) (url : CString)
    (index : Nat) (link : Link A U E) : Prop :=
  ∃ requests responses store, Collected base representation index requests responses ∧
    Cached network.clientAddr url representation store ∧ link = ⟨launched network.serverAddr
    (downloadMessage base.client request index) (.request base.client.nextPtr)
    (downloadReady base.client request callback index requests (callsWith callback base responses)),
    (base.server.called served handler).withStore store⟩

/-- With a block on its way to the client, the next one is asked for, or the download is
complete. -/
theorem block_arrives {representation : List UInt8} {packet answer : Packet} {store : BlockStore A}
    {requests : List (OngoingRequest (ClientCallback U))} {responses : List Packet}
    (downloadable : Downloadable request blocks) (small : blocks < 2 ^ 20)
    (client : ReadyClient base.client blocks)
    (goesOn : ∀ calls, network.stops calls = false) (idle : base.server.txData = [])
    (serves : Served base request handler blocks served representation)
    (collected : Collected base representation index requests responses)
    (inside : index ≤ lastChunk representation)
    (mid : packet.mid = (downloadMessage base.client request index).mid)
    (block : BlockAnswer representation index (acknowledgement packet) answer)
    (cached : 0 < lastChunk representation → Cached network.clientAddr url representation store) :
    Inevitably network.Step (fun link => index < lastChunk representation ∧ DownloadRound network
      base request callback handler served representation url (index + 1) link ∨
        index = lastChunk representation ∧ Downloaded base request callback handler link)
      ⟨downloadWaiting network.serverAddr base.client request callback index requests
          (callsWith callback base responses),
        ((base.server.called served handler).withStore store).sent network.clientAddr answer⟩ := by
  refine Network.client_next (block.sendable.carried block.code.2) block.code.1
    (congrArg (· ++ _) idle) rfl fun response back => ?_
  have answers : Answers (downloadMessage base.client request index) response := by
    refine ⟨(back.mid.trans block.mid).trans mid, back.type.trans block.type, ?_⟩
    rw [back.code]
    exact block.code.2
  obtain ⟨more, num⟩ := moreBlocks_arrives back
  rw [block.more] at more
  rw [block.num] at num
  have payload := back.payload.trans block.payload
  have delivered := @ServerContext.sent_delivered A E
    ((base.server.called served handler).withStore store) idle network.clientAddr answer
  by_cases notLast : index < lastChunk representation
  · rw [decide_eq_true notLast] at more
    obtain ⟨left, allocated, handles⟩ := @download_continues A U base.client request response
      callback index blocks network.serverAddr requests (callsWith callback base responses)
      network.stops downloadable small client (Nat.lt_of_lt_of_le notLast serves.last)
      collected.allocated answers num more goesOn network.serverAddr
    refine ⟨_, handles, .here (.inl ⟨notLast, left, responses ++ [response], store,
      collected.next allocated payload more, cached (by omega), ?_⟩)⟩
    rw [delivered, callsWith_snoc]
  · rw [decide_eq_false notLast] at more
    have last : index = lastChunk representation := by omega
    obtain ⟨left, handles⟩ := @download_completes A U base.client request response callback index
      blocks network.serverAddr requests (callsWith callback base responses) network.stops client
      (Nat.le_trans inside serves.last) collected.allocated answers num more goesOn
      network.serverAddr
    refine ⟨_, handles,
      .here (.inr ⟨last, ⟨rfl, rfl⟩, rfl, rfl, served, responses, response, rfl, serves.code,
      serves.url, rfl, callsWith_snoc callback base responses response, ?_, collected.more, more⟩)⟩
    rw [flatMap_append, collected.payloads, flatMap_cons, flatMap_nil, append_nil, payload,
      take_chunkAt, last, take_lastChunk, serves.result]

/-- The first round calls the handler. -/
theorem firstRound (downloadable : Downloadable request blocks) (small : blocks < 2 ^ 20)
    (client : ReadyClient base.client blocks)
    (server : DownloadServer base.server network.clientAddr request handler blocks)
    (goesOn : ∀ calls, network.stops calls = false) (idle : base.server.txData = [])
    (full : coapGetFullUrlAlloc request = some url) :
    Inevitably network.Step (fun link => ∃ served representation,
      Served base request handler blocks served representation ∧ (0 < lastChunk representation ∧
      DownloadRound network base request callback handler served representation url 1 link ∨
          0 = lastChunk representation ∧ Downloaded base request callback handler link))
            ⟨launched network.serverAddr (downloadMessage base.client request 0)
            (.request base.client.nextPtr) (downloadReady base.client request callback 0
            base.client.ongoingRequests base.client.env.called), base.server⟩ := by
  obtain ⟨-, carried, -⟩ :=
    @downloadMessage_carried A U base.client request 0 blocks downloadable small (Nat.zero_le _)
  refine Network.server_next carried (downloadMessage_isRequest downloadable small (Nat.zero_le _))
    rfl idle fun now packet arrives => ?_
  obtain ⟨confirmable, get, path, sameUrl, plain⟩ :=
    downloadMessage_arrives downloadable small (Nat.zero_le _) arrives
  have serves : Serves base.server packet handler := by
    refine ⟨path ▸ server.serves.some_path, path ▸ server.serves.short, ?_⟩
    rw [path, get, ← downloadable.get]
    exact server.serves.found
  obtain ⟨answer, store, handles, block, cached⟩ := coapRequestHandler_first confirmable get plain
    (sameUrl.trans full) serves server.represents small (server.absent url full) now
  refine ⟨_, handles, ?_⟩
  have isServed :
      Served base request handler blocks packet (handler packet base.server.app).1.representation :=
    ⟨get.trans downloadable.get.symm, sameUrl, rfl, server.represents.blocks packet base.server.app⟩
  have collected : Collected base (handler packet base.server.app).1.representation 0
      base.client.ongoingRequests [] := by
    refine ⟨fun r member => ?_, rfl, fun _ member => absurd member not_mem_nil⟩
    have bound := client.allocated.requests r member
    omega
  have arrived := @block_arrives A U E network base request packet callback handler url
    0 blocks _ _ packet answer store _ _ downloadable small client goesOn idle isServed collected
    (Nat.zero_le _) arrives.mid block cached
  have start : callsWith callback base [] = base.client.env.called := append_nil _
  rw [start] at arrived
  exact arrived.trans fun link reached => .here ⟨packet, _, isServed, reached⟩

/-- A later round takes its block from the store. -/
theorem DownloadRound.advances {representation : List UInt8}
    (downloadable : Downloadable request blocks)
    (small : blocks < 2 ^ 20) (client : ReadyClient base.client blocks)
    (goesOn : ∀ calls, network.stops calls = false) (idle : base.server.txData = [])
    (full : coapGetFullUrlAlloc request = some url)
    (serves : Served base request handler blocks served representation) (later : 0 < index)
    (inside : index ≤ lastChunk representation) (round :
      DownloadRound network base request callback handler served representation url index link) :
    Inevitably network.Step (fun link => index < lastChunk representation ∧ DownloadRound network
      base request callback handler served representation url (index + 1) link ∨
        index = lastChunk representation ∧ Downloaded base request callback handler link) link := by
  obtain ⟨requests, responses, store, collected, cached, rfl⟩ := round
  have below := Nat.le_trans inside serves.last
  obtain ⟨-, carried, -⟩ :=
    @downloadMessage_carried A U base.client request index blocks downloadable small below
  refine Network.server_next carried (downloadMessage_isRequest downloadable small below) rfl idle
    fun now packet arrives => ?_
  obtain ⟨confirmable, get, -, sameUrl, asks⟩ :=
    downloadMessage_arrives downloadable small below arrives
  rw [if_neg (Nat.pos_iff_ne_zero.mp later)] at asks
  have filled : 0 < representation.length := by
    rw [lastChunk] at inside
    omega
  obtain ⟨answer, next, handles, block, still⟩ :=
    @coapRequestHandler_cached A E _ network.clientAddr url packet
    ((base.server.called served handler).withStore store) representation index _ confirmable get
    cached (sameUrl.trans full) asks inside filled (Nat.lt_of_le_of_lt serves.last small) now
  exact ⟨_, handles, block_arrives downloadable small client goesOn idle serves collected inside
    arrives.mid block fun _ => still⟩

/-- Whatever the length of what the handler hands out, a download comes to one call of
the handler, and calls of the user's callback with the blocks of it in order. -/
theorem coapNonblockingGet_downloaded (downloadable : Downloadable request blocks)
    (small : blocks < 2 ^ 20) (client : ReadyClient base.client blocks)
    (server : DownloadServer base.server network.clientAddr request handler blocks)
    (goesOn : ∀ calls, network.stops calls = false)
    (idle : base.client.txData = [] ∧ base.server.txData = []) : ∃ started,
    coapNonblockingGet network.serverAddr request (some callback) 0 base.client = some started ∧
    Inevitably network.Step (Downloaded base request callback handler) ⟨started, base.server⟩ := by
  obtain ⟨url, full⟩ := server.serves.fullUrl
  refine ⟨_, coapNonblockingGet_started downloadable small client idle.1, ?_⟩
  refine (firstRound downloadable small client server goesOn idle.2 full).trans
    fun link reached => ?_
  obtain ⟨served, representation, serves, ⟨several, round⟩ | ⟨-, complete⟩⟩ := reached
  · have advances : ∀ index < lastChunk representation - 1, ∀ link, DownloadRound network base
        request callback handler served representation url (index + 1) link →
        Inevitably network.Step (DownloadRound network base request callback handler served
        representation url (index + 1 + 1)) link := by
      intro index below link round
      refine (round.advances downloadable small client goesOn idle.2 full serves
        (Nat.succ_pos index) (by omega)).trans fun next reached => ?_
      obtain ⟨-, advanced⟩ | ⟨last, -⟩ := reached
      · exact .here advanced
      · omega
    refine (Inevitably.rounds advances round).trans fun link round => ?_
    refine (round.advances downloadable small client goesOn idle.2 full serves (Nat.succ_pos _)
      (by omega)).trans fun next reached => ?_
    obtain ⟨early, -⟩ | ⟨-, complete⟩ := reached
    · omega
    · exact .here complete
  · exact .here complete

end Rounds

end Download

/-! ## Two downloads -/

/-- A handler whose representation has exactly two blocks. -/
def sampleGetHandler : Handler Unit := fun _ _ => (⟨content205, [], none, twoBlocks⟩, ())

/-- A client and a server with that handler, before anything was sent. -/
def sampleSource : Link Bool Unit Unit :=
  { sampleLink with server := { sampleLink.server with
    resources := [⟨.ofBytes [0x61], some sampleGetHandler, none, none, none⟩] } }

/-- A request for its representation, with a token. -/
def sampleDownload (type : CoapMessageType) : Packet :=
  { coapInitMessage type coapGet 0 with token := .copy [1], uriPath := [0x61], options := {11} }

theorem sampleDownload_downloadable : Downloadable (sampleDownload .con) 1 where
  get := rfl
  con := rfl
  token := (by decide : ([1] : List UInt8).length ≠ 0)
  plain := rfl
  expressible := ⟨(sampleUpload_expressible []).options, (sampleUpload_expressible []).clean,
    (sampleUpload_expressible []).block2, (sampleUpload_expressible []).block1⟩
  payload := Nat.zero_le _
  header := by decide +kernel

theorem sampleSource_server : DownloadServer sampleSource.server sampleNetwork.clientAddr
      (sampleDownload .con) sampleGetHandler 1 where
  serves := ⟨(by decide : ([0x61] : List UInt8) ≠ []),
    (by decide : ([0x61] : List UInt8).length < 256), rfl⟩
  represents := ⟨fun _ _ => (by decide : content205 ≠ notImplemented501), fun _ _ =>
    (by decide : content205 ≠ manualResponse), fun _ _ => (by decide : coapDelete < content205),
    fun _ _ => (by decide +kernel : lastChunk (HandlerResult.representation ⟨content205, [], none,
    twoBlocks⟩) ≤ 1)⟩
  absent := fun _ _ => rfl

theorem coapNonblockingGet_twoBlocks : ∃ started, coapNonblockingGet sampleNetwork.serverAddr
      (sampleDownload .con) (some ()) 0 sampleSource.client = some started ∧
      Inevitably sampleNetwork.Step
        (Downloaded sampleSource (sampleDownload .con) () sampleGetHandler)
        ⟨started, sampleSource.server⟩ :=
  coapNonblockingGet_downloaded sampleDownload_downloadable (by decide)
    (sampleLink_client 1) sampleSource_server
    (fun _ => rfl) ⟨rfl, rfl⟩

/-- A request that is not confirmable is sent and not waited for: its callback is never
called, whatever the server answers. -/
theorem coapNonblockingGet_unconfirmed : ∃ started, coapNonblockingGet sampleNetwork.serverAddr
      (sampleDownload .non) (some ()) 0 sampleSource.client = some started ∧
      ¬ Inevitably sampleNetwork.Step
        (Downloaded sampleSource (sampleDownload .non) () sampleGetHandler)
        ⟨started, sampleSource.server⟩ := by
  have started : (coapNonblockingGet sampleNetwork.serverAddr (sampleDownload .non) (some ()) 0
      sampleSource.client).map (fun client => (client.transactions.length,
      client.ongoingRequests.length, client.env.called.length)) = some (0, 0, 0) := by
    decide +kernel
  obtain ⟨client, starts, nothing⟩ := Option.map_eq_some_iff.mp started
  simp only [Prod.mk.injEq, length_eq_zero_iff] at nothing
  obtain ⟨transactions, requests, called⟩ := nothing
  refine ⟨client, starts, fun inevitable => ?_⟩
  obtain ⟨final, runs, downloaded⟩ := inevitable.reached
  have waitless : Waitless client := ⟨transactions, requests⟩
  obtain ⟨-, env⟩ := Waitless.run waitless runs
  obtain ⟨served, front, last, -, -, -, -, calls, -⟩ := downloaded.called
  rw [env, called, map_append] at calls
  exact absurd calls.symm (by simp)

end Idrm.Coap
