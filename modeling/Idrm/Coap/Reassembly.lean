import Idrm.Coap.CachedReads
import Idrm.Coap.ServerRuns
import Idrm.Coap.UploadServer

/-!
# Uploads put together by a server

A peer sends the blocks of a payload in turn, and may send the current one again. Between
them the server handles whatever others ask for, and refuses blocks that are neither the
current one nor the next. The node of the upload holds the blocks taken so far at the start
of its buffer, and the last block hands the payload to the resource handler.
-/

namespace Idrm.Coap

open Idrm.Lib Option List

/-! ## Sending -/

section Send

variable {A E : Type} {packet : Packet} {server : ServerContext A E}

theorem Brief.setStatusCode (brief : Brief packet) (code : UInt8) :
    Brief (coapSetStatusCode code packet) :=
  ⟨brief.options, brief.payload⟩

theorem Brief.setPayload (brief : Brief packet) (payload : List UInt8) :
    Brief (coapSetPayload payload packet) where
  options := brief.options
  payload := by
    rw [coapSetPayload, length_take]
    exact Nat.min_le_left _ _

theorem Brief.setOption (brief : Brief packet) {changed : Packet} {option : CoapOption}
    (known : option ∈ answerOptions) (options : changed.options = packet.options)
    (payload : changed.payload = packet.payload) : Brief (CoapPacket.setOption option changed) where
  options := by
    intro other present
    have same : changed.isOption other = packet.isOption other := by
      rw [CoapPacket.isOption, options]
      rfl
    rw [isOption_setOption, same, Bool.or_eq_true, decide_eq_true_eq] at present
    rcases present with rfl | present
    · exact known
    · exact brief.options other present
  payload := payload ▸ brief.payload

theorem Brief.setBlock1 (brief : Brief packet) (num : UInt32) (more : Bool) (size : UInt16) :
    Brief (coapSetHeaderBlock1 num more size packet) := by
  rw [coapSetHeaderBlock1]
  split
  · exact brief
  · exact brief.setOption (by decide) rfl rfl

theorem Brief.answerOf (brief : Brief packet) (result : HandlerResult) :
    Brief (answerOf result packet) := by
  unfold Idrm.Coap.answerOf applyResult
  refine Brief.setStatusCode ?_ result.status
  cases result.contentFormat with
  | none => exact brief.setPayload result.payload
  | some format => exact (brief.setPayload result.payload).setOption (by decide) rfl rfl

theorem prepareResponse_brief (request : Packet) (server : ServerContext A E) :
    Brief (prepareResponse request server).1 := by
  obtain ⟨type, mid, token, fresh⟩ := prepareResponse_form request server
  rw [fresh]
  exact (answer_init type content205 mid token).brief

/-- A brief response is always sent, if only as an empty message. -/
theorem ServerContext.send_brief (server : ServerContext A E) (brief : Brief packet) (source : A) :
    ∃ sent,
    server.send source packet = some { server with txData := server.txData ++ [(source, sent)] } ∧
      (packet.code ≠ 0 → sent = udpMessage packet) := by
  by_cases code : packet.code = 0
  · refine ⟨udpHeader packet, ?_, fun other => absurd code other⟩
    rw [ServerContext.send, coapSerializeMessage, if_pos code]
    rfl
  · refine ⟨udpMessage packet, ?_, fun _ => rfl⟩
    have filled : (udpMessage packet).length > 0 := by
      rw [udpMessage_length]
      omega
    rw [ServerContext.send, brief.serialized code, map_some, if_pos filled]

end Send

/-! ## Buffers -/

/-- The block behind those a buffer holds at its start goes there. -/
theorem copyInto_next {buffer payload : List UInt8} {size count : Nat}
    (held : buffer.take (size * count) = payload.take (size * count))
    (room : size * count + (sliceAt size payload count).length ≤ buffer.length) :
    ∃ next, copyInto buffer (size * count : Nat) (sliceAt size payload count) = some next ∧
    next.length = buffer.length ∧ next.take (size * count + (sliceAt size payload count).length) =
      payload.take (size * (count + 1)) := by
  refine ⟨buffer.take (size * count) ++ sliceAt size payload count ++
    buffer.drop (size * count + (sliceAt size payload count).length), ?_, ?_, ?_⟩
  · rw [copyInto, if_neg (by omega), Int.toNat_natCast, storeAll_inside _ _ _ room]
  · rw [length_append, length_append, length_take, length_drop]
    omega
  · have front : (buffer.take (size * count)).length = size * count := by
      rw [length_take]
      omega
    have whole : (buffer.take (size * count) ++ sliceAt size payload count).length =
        size * count + (sliceAt size payload count).length := by
      rw [length_append, front]
    rw [take_append_of_le_length (Nat.le_of_eq whole.symm), ← whole, take_length, held, sliceAt,
      Nat.mul_add, Nat.mul_one, take_add]

/-- A block that is there already stays. -/
theorem copyInto_again {buffer payload : List UInt8} {size count : Nat}
    (held : buffer.take (size * (count + 1)) = payload.take (size * (count + 1)))
    (room : size * (count + 1) ≤ buffer.length) (inside : size * (count + 1) ≤ payload.length) :
    ∃ next, copyInto buffer (size * count : Nat) (sliceAt size payload count) = some next ∧
    next.length = buffer.length ∧
    next.take (size * (count + 1)) = payload.take (size * (count + 1)) := by
  have shorter : buffer.take (size * count) = payload.take (size * count) := by
    have cut := congrArg (List.take (size * count)) held
    rw [take_take, take_take, Nat.min_eq_left (Nat.mul_le_mul_left _ (Nat.le_succ _))] at cut
    exact cut
  have length : (sliceAt size payload count).length = size := by
    rw [sliceAt_length]
    rw [Nat.mul_add] at inside
    omega
  obtain ⟨next, copied, sameLength, first⟩ :=
    copyInto_next shorter (by rw [length, ← Nat.mul_succ]; exact room)
  rw [length, ← Nat.mul_succ] at first
  exact ⟨next, copied, sameLength, first⟩

/-! ## One request -/

section Handle

variable {A E : Type} [DecidableEq A] {source : A} {url : CString}
  {request response : Packet} {block : Block}
  {node : BlockNode} {store rest : BlockStore A} {server : ServerContext A E} {now : UInt32}

/-- A request with a block of an upload. -/
structure UploadsBlock (url : CString) (block : Block) (request : Packet) : Prop where
  method : request.code = coapPost ∨ request.code = coapPut
  full : coapGetFullUrlAlloc request = some url
  option : coapGetHeaderBlock1 request = some block

theorem putDecision_opens (now : UInt32)
    (uploads : UploadsBlock url block request) (first : block.num = 0) (more : block.more = true)
    (absent : findBlock source url false store = none) :
    putDecision now source request store = .accepted block (if block.size < 1024 then block.size
      else 1024) (openedNode now url (coapGetHeaderSize1 request (1024 * 16))) 0 store := by
  rw [putDecision, uploads.option]
  simp only [uploads.full, absent]
  rw [if_neg fun single => absurd single.1 (by rw [more]; decide), if_neg fun later => later.elim
    (fun number => number first) (fun last => absurd last (by rw [more]; decide))]

theorem putDecision_early (uploads : UploadsBlock url block request) (later : block.num ≠ 0)
    (absent : findBlock source url false store = none) :
    putDecision now source request store = .refused badOption402 store := by
  rw [putDecision, uploads.option]
  simp only [uploads.full, absent]
  rw [if_neg fun single => later single.2, if_pos (.inl later)]

theorem putDecision_stray (uploads : UploadsBlock url block request)
    (several : block.num ≠ 0 ∨ block.more = true)
    (found : findBlock source url false store = some (node, rest))
    (stray : block.num ≠ node.blockNum ∧ block.num ≠ node.blockNum + 1) :
    putDecision now source request store = .refused badOption402 (addBlock source node rest) := by
  rw [putDecision, uploads.option]
  simp only [uploads.full, found]
  rw [if_neg fun single => several.elim (fun number => number single.2)
    (fun more => absurd single.1 (by
    rw [more]; decide)), if_pos stray]

theorem putDecision_current (uploads : UploadsBlock url block request)
    (several : block.num ≠ 0 ∨ block.more = true)
    (found : findBlock source url false store = some (node, rest))
    (current : block.num = node.blockNum ∨ block.num = node.blockNum + 1) :
    putDecision now source request store = if blockOffset block.num (if block.size < 1024 then
      block.size else 1024) + request.payload.length > node.bufferSize.toInt then
        .refused requestEntityTooLarge413 (addBlock source node rest)
      else .accepted block (if block.size < 1024 then block.size else 1024) node
        (blockOffset block.num (if block.size < 1024 then block.size else 1024)) rest := by
  rw [putDecision, uploads.option]
  simp only [uploads.full, found]
  rw [if_neg fun single => several.elim (fun number => number single.2)
    (fun more => absurd single.1 (by
    rw [more]; decide)), if_neg fun stray => current.elim stray.1 stray.2]

/-- A request that was replied to with a code, without a handler. -/
structure Replied (source : A) (code : UInt8) (store : BlockStore A)
    (server next : ServerContext A E) : Prop where
  blockwise : next.blockwise = store
  resources : next.resources = server.resources
  handled : next.handled = server.handled
  reply : ∃ answer : Packet, answer.code = code ∧
    next.txData = server.txData ++ [(source, udpMessage answer)]

omit [DecidableEq A] in
theorem send_replied (brief : Brief response) (filled : response.code ≠ 0)
    (mid : UInt16) (store : BlockStore A) (source : A) (server : ServerContext A E) :
    ∃ next, (({ server with currentMid := mid } : ServerContext A E).withStore store).send source
      response = some next ∧
      Replied source response.code store server next := by
  obtain ⟨sent, sends, same⟩ := ServerContext.send_brief (({ server with currentMid := mid } :
    ServerContext A E).withStore store) brief source
  rw [same filled] at sends
  exact ⟨_, sends, rfl, rfl, rfl, response, rfl, rfl⟩

variable (method : request.code = coapPost ∨ request.code = coapPut)

include method in
theorem method_notGet : request.code ≠ coapGet := by
  rcases method with post | put
  · rw [post]
    decide
  · rw [put]
    decide

include method in
/-- A request that writes is handled as its block is decided upon. -/
theorem coapRequestHandler_decided (now : UInt32) (source : A) (server : ServerContext A E) :
    ∃ mid response, Brief response ∧ coapRequestHandler now source request server =
      ((putDecision now source request server.blockwise).conclude now source request response
      server.blockwise).bind fun (check, response, store) =>
          let server := ({ server with currentMid := mid } : ServerContext A E).withStore store
          match check with
          | .notBlockwise => serveRequest now source request response server
          | .completed payload =>
            serveRequest now source { request with payload := payload } response server
          | _ => server.send source response := by
  have brief := prepareResponse_brief request server
  obtain ⟨mid, prepared⟩ := prepareResponse_server request server
  rw [coapRequestHandler]
  generalize prepareResponse request server = pair at brief prepared
  obtain ⟨response, ready⟩ := pair
  simp only at brief prepared ⊢
  subst prepared
  rw [if_neg (method_notGet method), if_pos method, checkBlockwiseTransferPut_eq]
  exact ⟨mid, response, brief, rfl⟩

include method in
/-- A refused block. -/
theorem coapRequestHandler_refuses (now : UInt32) {code : UInt8} (filled : code ≠ 0)
    (decided : putDecision now source request server.blockwise = .refused code store) :
    ∃ next, coapRequestHandler now source request server = some next ∧
    Replied source code store server next := by
  obtain ⟨mid, response, brief, handles⟩ := coapRequestHandler_decided method now source server
  rw [handles]
  simp only [decided, PutDecision.conclude, bind_some]
  exact send_replied (brief.setStatusCode code) filled mid store source server

include method in
/-- A block that is not the last. -/
theorem coapRequestHandler_takes {size : UInt16} {offset : Int} {buffer : List UInt8} (decided :
      putDecision now source request server.blockwise = .accepted block size node offset rest)
    (more : block.more = true)
    (copied : copyInto node.buffer offset request.payload = some buffer) :
    ∃ next, coapRequestHandler now source request server = some next ∧ Replied source continue231
      (addBlock source { node with buffer := buffer, lastAccess := now, blockNum := block.num }
      rest) server next := by
  obtain ⟨mid, response, brief, handles⟩ := coapRequestHandler_decided method now source server
  rw [handles]
  simp only [decided, PutDecision.conclude, acceptPutBlock_more more copied, bind_some]
  exact send_replied ((brief.setBlock1 block.num true size).setStatusCode continue231)
    (by decide : continue231 ≠ 0)
    mid _ source server

/-- Everything but a `GET` that reaches a handler is handled by it, once. -/
theorem serveRequest_handled {handler : Handler E} (serves : Serves server request handler)
    (notGet : request.code ≠ coapGet) (brief : Brief response) :
    ∃ next, serveRequest now source request response server = some next ∧
      next.handled = server.handled ++ [request] := by
  have answers := brief.answerOf (handler request server.app).1
  rw [serveRequest_eq, coapHandleRequestInternal_serves serves]
  simp only [if_neg notGet]
  have answered : ∀ (context : ServerContext A E) (status : UInt8),
    context.handled = server.handled ++ [request] →
    ∃ next, (if status = manualResponse then some context else if status ≠ notImplemented501 then
          context.send source
            (coapSetStatusCode status (applyResult (handler request server.app).1 response))
            else if context.responseOnNotFound then
          context.send source
            (coapSetStatusCode status (applyResult (handler request server.app).1 response))
            else some context) = some next ∧ next.handled = server.handled ++ [request] := by
    intro context status called
    obtain ⟨sent, sends, _⟩ := ServerContext.send_brief context
      (answers.setStatusCode status : Brief (coapSetStatusCode status _)) source
    split
    · exact ⟨context, rfl, called⟩
    split
    · exact ⟨_, sends, called⟩
    split
    · exact ⟨_, sends, called⟩
    · exact ⟨context, rfl, called⟩
  exact answered _ _ (ServerContext.fallBack_handled request _ (server.called request handler))

include method in
/-- The last block: the handler gets what the buffer holds. -/
theorem coapRequestHandler_hands {handler : Handler E} {size : UInt16}
    {offset : Int} {buffer : List UInt8} (serves : Serves server request handler) (decided :
      putDecision now source request server.blockwise = .accepted block size node offset rest)
    (last : block.more = false)
    (copied : copyInto node.buffer offset request.payload = some buffer) : ∃ next,
    coapRequestHandler now source request server = some next ∧ next.handled = server.handled ++
      [{ request with
        payload := buffer.take ((offset.toNat + request.payload.length) % 65536) }] := by
  obtain ⟨mid, response, brief, handles⟩ := coapRequestHandler_decided method now source server
  rw [handles]
  simp only [decided, PutDecision.conclude, acceptPutBlock_last last copied, bind_some]
  have still : Serves (({ server with currentMid := mid } : ServerContext A E).withStore rest)
      { request with payload := buffer.take ((offset.toNat + request.payload.length) % 65536) }
      handler :=
    ⟨serves.some_path, serves.short, serves.found⟩
  exact serveRequest_handled still (method_notGet method) (brief.setBlock1 block.num false size)

end Handle

/-! ## Uploads -/

/-- A payload on its way to a url: its path and query, the url they are put together to, the size of
the blocks, and the length the first of them announces, or stands for without an option. -/
structure Upload where
  place : List UInt8 × List UInt8
  url : CString
  payload : List UInt8
  size : UInt16
  announced : UInt32

namespace Upload

/-- The number of blocks. -/
def blocks (upload : Upload) : Nat := slicesOf upload.size.toNat upload.payload.length

/-- An upload of two blocks or more that is no longer than announced; a path with a query has no
terminator inside. -/
structure Proper (upload : Upload) : Prop where
  ends : upload.place.2 ≠ [] → 0 ∉ upload.place.1
  least : 16 ≤ upload.size.toNat
  chunk : upload.size.toNat ≤ 1024
  several : upload.size.toNat < upload.payload.length
  fits : upload.payload.length ≤ upload.announced.toNat
  small : upload.payload.length ≤ 65535

/-- A request with one of the blocks. -/
structure Sends (upload : Upload) (index : Nat) (request : Packet) : Prop where
  method : request.code = coapPost ∨ request.code = coapPut
  here : urlOf request = upload.place
  full : coapGetFullUrlAlloc request = some upload.url
  option : ∃ offset, coapGetHeaderBlock1 request =
    some ⟨UInt32.ofNat index, decide (index + 1 < upload.blocks), upload.size, offset⟩
  bytes : request.payload = sliceAt upload.size.toNat upload.payload index
  size1 : index = 0 → coapGetHeaderSize1 request (1024 * 16) = upload.announced

/-- A block for the url that is neither the current one nor the next, when so many blocks
were taken. -/
def Stray (upload : Upload) (count : Nat) (request : Packet) : Prop :=
  urlOf request = upload.place ∧
    ∃ block, UploadsBlock upload.url block request ∧ (block.num ≠ 0 ∨ block.more = true) ∧
    block.num ≠ UInt32.ofNat count ∧ (0 < count → block.num ≠ UInt32.ofNat (count - 1))

/-- A request that is not for the upload: of another peer, for another url, or a `GET`. -/
def Elsewhere {A : Type} (upload : Upload) (source peer : A) (request : Packet) : Prop :=
  peer ≠ source ∨ urlOf request ≠ upload.place ∨ request.code = coapGet

/-- Such a request does not get into the way: it is kept under its url, and if the same peer sends
it, another path and query are not put together to the url of the upload, as those of `/a?b` and
`/a&b` are. -/
def Apart {A : Type} (upload : Upload) (source peer : A) (request : Packet) : Prop :=
  Named request ∧
    (peer = source → coapGetFullUrlAlloc request = some upload.url → urlOf request = upload.place)

variable {A E : Type} [DecidableEq A] {source : A} {upload : Upload}
  {start server next : ServerContext A E}
  {count : Nat} {request : Packet} {now : UInt32}

/-- The runs of a server while an upload is sent, with the number of blocks it has taken:
requests for something else, stray blocks, the current block again, and the next one as long
as it is not the last. -/
inductive Run (upload : Upload) (source : A) (start : ServerContext A E) :
    Nat → ServerContext A E → Prop
  | start : Run upload source start 0 start
  | elsewhere {count : Nat} {server next : ServerContext A E}
      {now : UInt32} {peer : A} {request : Packet} :
      Run upload source start count server → upload.Elsewhere source peer request →
      upload.Apart source peer request →
      coapRequestHandler now peer request server = some next → Run upload source start count next
  | stray {count : Nat} {server next : ServerContext A E} {now : UInt32} {request : Packet} :
      Run upload source start count server → upload.Stray count request →
      coapRequestHandler now source request server = some next → Run upload source start count next
  | again {count : Nat} {server next : ServerContext A E} {now : UInt32} {request : Packet} :
      Run upload source start (count + 1) server → upload.Sends count request →
      coapRequestHandler now source request server = some next →
      Run upload source start (count + 1) next
  | next {count : Nat} {server next : ServerContext A E} {now : UInt32} {request : Packet} :
      Run upload source start count server → count + 1 < upload.blocks →
      upload.Sends count request → coapRequestHandler now source request server = some next →
      Run upload source start (count + 1) next

/-- What a node has of an upload, behind the block with an index. -/
structure Holds (upload : Upload) (index : Nat) (node : BlockNode) : Prop where
  blockNum : node.blockNum = UInt32.ofNat index
  bufferSize : node.bufferSize = upload.announced.toInt32
  length : node.buffer.length = upload.announced.toNat
  bytes : node.buffer.take (upload.size.toNat * (index + 1)) = upload.payload.take
    (upload.size.toNat * (index + 1))

/-- The invariant: the node of the upload holds the blocks taken, and there is none before the
first. -/
structure Taken (upload : Upload) (source : A) (count : Nat)
    (server : ServerContext A E) : Prop where
  unique : Unique server.blockwise
  unfinished : count < upload.blocks
  absent : count = 0 → nodeAt source upload.url false server.blockwise = none
  node : ∀ {index}, count = index + 1 → ∃ node,
    nodeAt source upload.url false server.blockwise = some node ∧ upload.Holds index node

namespace Proper

theorem positive (proper : upload.Proper) : 0 < upload.size.toNat :=
  Nat.lt_of_lt_of_le (by decide) proper.least

/-- A block that is in the upload starts in the payload. -/
theorem starts (proper : upload.Proper) {index : Nat} (inside : index < upload.blocks) :
    upload.size.toNat * index < upload.payload.length :=
  (lt_slicesOf proper.positive).mp inside

theorem index_small (proper : upload.Proper) {index : Nat} (inside : index < upload.blocks) :
    index < 2 ^ 12 := by
  have starts := proper.starts inside
  have least : 16 * index ≤ upload.size.toNat * index := Nat.mul_le_mul_right _ proper.least
  have small := proper.small
  omega

variable {index : Nat}

theorem number (proper : upload.Proper) (inside : index < upload.blocks) :
    (UInt32.ofNat index).toNat = index :=
  UInt32.toNat_ofNat_of_lt' (Nat.lt_trans (proper.index_small inside) (by decide))

/-- A block that is not the last is full. -/
theorem full (proper : upload.Proper) (inside : index + 1 < upload.blocks) :
    (sliceAt upload.size.toNat upload.payload index).length = upload.size.toNat := by
  have starts := proper.starts inside
  rw [Nat.mul_add] at starts
  rw [sliceAt_length]
  omega

theorem end_inside (proper : upload.Proper) (inside : index < upload.blocks) : upload.size.toNat *
      index + (sliceAt upload.size.toNat upload.payload index).length ≤ upload.payload.length := by
  have starts := proper.starts inside
  rw [sliceAt_length]
  omega

/-- The blocks up to the last one make up the payload. -/
theorem all (proper : upload.Proper) (last : index + 1 = upload.blocks) : upload.size.toNat *
      index + (sliceAt upload.size.toNat upload.payload index).length = upload.payload.length := by
  have starts := proper.starts (by omega : index < upload.blocks)
  have beyond : ¬ index + 1 < upload.blocks := by omega
  rw [blocks, lt_slicesOf proper.positive, Nat.mul_add] at beyond
  rw [sliceAt_length]
  omega

theorem offset (proper : upload.Proper) (inside : index < upload.blocks) :
    blockOffset (UInt32.ofNat index) upload.size = (upload.size.toNat * index : Nat) := by
  have small := proper.index_small inside
  rw [blockOffset_eq (by rw [proper.number inside]; omega) proper.chunk,
    proper.number inside, Nat.mul_comm]

end Proper

/-- The announced length is one an `int` holds. -/
def AnnouncesInt (upload : Upload) : Prop := upload.announced.toNat < 2 ^ 31

theorem AnnouncesInt.toInt (announces : upload.AnnouncesInt) :
    upload.announced.toInt32.toInt = upload.announced.toNat := by
  have same : upload.announced = UInt32.ofNat upload.announced.toNat := (UInt32.ofNat_toNat).symm
  rw [same, toInt_ofNat announces, UInt32.ofNat_toNat]

theorem Sends.uploads {index : Nat} (sends : upload.Sends index request) :
    ∃ offset, UploadsBlock upload.url ⟨UInt32.ofNat index, decide (index + 1 < upload.blocks),
      upload.size, offset⟩ request := by
  obtain ⟨offset, option⟩ := sends.option
  exact ⟨offset, sends.method, sends.full, option⟩

/-! ### Single requests -/

/-- A stray block is answered 4.02, and the upload is what it was. -/
theorem Taken.stray (taken : upload.Taken source count server) (stray : upload.Stray count request)
    (now : UInt32) : ∃ next store, coapRequestHandler now source request server = some next ∧
    Replied source badOption402 store server next ∧
    nodeAt source upload.url false store = nodeAt source upload.url false server.blockwise ∧
    Unique store := by
  obtain ⟨-, block, uploads, several, notNext, notCurrent⟩ := stray
  cases count with
  | zero =>
    have absent := findBlock_of_absent taken.unique (taken.absent rfl)
    obtain ⟨next, handles, replied⟩ := coapRequestHandler_refuses uploads.method now (by decide)
      (putDecision_early uploads notNext absent)
    exact ⟨next, server.blockwise, handles, replied, rfl, taken.unique⟩
  | succ index =>
    obtain ⟨node, there, holds⟩ := taken.node rfl
    obtain ⟨rest, found⟩ := findBlock_of_nodeAt taken.unique there
    have neither : block.num ≠ node.blockNum ∧ block.num ≠ node.blockNum + 1 := by
      rw [holds.blockNum]
      refine ⟨notCurrent (Nat.succ_pos _), fun same => notNext ?_⟩
      rw [same, UInt32.ofNat_add]
      rfl
    obtain ⟨next, handles, replied⟩ := coapRequestHandler_refuses uploads.method now (by decide)
      (putDecision_stray uploads several found neither)
    obtain ⟨puts, back⟩ := findBlock_addBlock_put taken.unique found rfl rfl
    exact ⟨next, _, handles, replied, back.trans there.symm, puts.shelved⟩

theorem Proper.two (proper : upload.Proper) : 1 < upload.blocks := by
  rw [blocks, lt_slicesOf proper.positive, Nat.mul_one]
  exact proper.several

/-- The current block and the next one are accepted, at their place. -/
theorem Holds.decides {index other : Nat} {node : BlockNode} {store rest : BlockStore A}
    (holds : upload.Holds index node) (proper : upload.Proper) (announces : upload.AnnouncesInt)
    (sends : upload.Sends other request) (inside : other < upload.blocks)
    (current : other = index ∨ other = index + 1)
    (found : findBlock source upload.url false store = some (node, rest)) (now : UInt32) :
    ∃ offset, putDecision now source request store =
      .accepted ⟨UInt32.ofNat other, decide (other + 1 < upload.blocks), upload.size,
      offset⟩ upload.size node (upload.size.toNat * other : Nat) rest := by
  obtain ⟨offset, uploads⟩ := sends.uploads
  have several : UInt32.ofNat other ≠ 0 ∨ decide (other + 1 < upload.blocks) = true := by
    by_cases first : other = 0
    · refine .inr (decide_eq_true ?_)
      rw [first]
      exact proper.two
    · refine .inl fun zero => first ?_
      rw [← proper.number inside, zero]
      rfl
  have near : UInt32.ofNat other = node.blockNum ∨ UInt32.ofNat other = node.blockNum + 1 := by
    rw [holds.blockNum]
    rcases current with rfl | rfl
    · exact .inl rfl
    · exact .inr (UInt32.ofNat_add _ _)
  have room := proper.end_inside inside
  have fits := proper.fits
  have chunk := size_chunk proper.chunk
  refine ⟨offset, ?_⟩
  rw [putDecision_current uploads several found near]
  simp only [chunk, proper.offset inside, holds.bufferSize, announces.toInt, sends.bytes]
  rw [if_neg (by omega)]

/-- The current block again, or the next: the node holds the same blocks, or one more. -/
theorem Taken.accepts {index other : Nat} (taken : upload.Taken source (index + 1) server)
    (proper : upload.Proper) (announces : upload.AnnouncesInt) (sends : upload.Sends other request)
    (unfinished : other + 1 < upload.blocks) (current : other = index ∨ other = index + 1)
    (now : UInt32) : ∃ next store, coapRequestHandler now source request server = some next ∧
    Replied source continue231 store server next ∧ upload.Taken source (other + 1) next := by
  obtain ⟨node, there, holds⟩ := taken.node rfl
  obtain ⟨rest, found⟩ := findBlock_of_nodeAt taken.unique there
  obtain ⟨offset, decided⟩ :=
    holds.decides proper announces sends (Nat.lt_of_succ_lt unfinished) current found now
  have room := proper.end_inside (Nat.lt_of_succ_lt unfinished)
  have length := proper.full unfinished
  have fits := proper.fits
  obtain ⟨buffer, copied, sameLength, bytes⟩ : ∃ buffer,
      copyInto node.buffer (upload.size.toNat * other : Nat) request.payload = some buffer ∧
      buffer.length = node.buffer.length ∧ buffer.take (upload.size.toNat * (other + 1)) =
      upload.payload.take (upload.size.toNat * (other + 1)) := by
    rw [sends.bytes]
    rcases current with rfl | rfl
    · refine copyInto_again holds.bytes ?_ ?_
      · rw [holds.length, Nat.mul_add]
        omega
      · rw [Nat.mul_add]
        omega
    · obtain ⟨buffer, copied, sameLength, bytes⟩ :=
        copyInto_next holds.bytes (by rw [holds.length]; omega)
      rw [length, ← Nat.mul_succ] at bytes
      exact ⟨buffer, copied, sameLength, bytes⟩
  obtain ⟨next, handles, replied⟩ :=
    coapRequestHandler_takes sends.method decided (decide_eq_true unfinished) copied
  have sameUrl :
    ({ node with buffer := buffer, lastAccess := now, blockNum := UInt32.ofNat other } :
    BlockNode).url = node.url := rfl
  obtain ⟨puts, put⟩ := findBlock_addBlock_put taken.unique found sameUrl rfl
  refine ⟨next, _, handles, replied, ?_, unfinished,
    fun none => absurd none (Nat.succ_ne_zero _), ?_⟩
  · rw [replied.blockwise]
    exact puts.shelved
  · intro last same
    obtain rfl := Nat.succ.inj same
    rw [replied.blockwise]
    exact ⟨_, put, rfl, holds.bufferSize, sameLength.trans holds.length, bytes⟩

/-- The first block opens the node, whatever length is announced. -/
theorem Taken.opens (taken : upload.Taken source 0 server) (proper : upload.Proper)
    (sends : upload.Sends 0 request) (now : UInt32) :
    ∃ next store, coapRequestHandler now source request server = some next ∧
      Replied source continue231 store server next ∧ upload.Taken source 1 next := by
  obtain ⟨offset, uploads⟩ := sends.uploads
  have more : decide (0 + 1 < upload.blocks) = true := decide_eq_true proper.two
  have absent := findBlock_of_absent taken.unique (taken.absent rfl)
  have decided := putDecision_opens now uploads rfl more absent
  have room := proper.end_inside (Nat.lt_of_succ_lt proper.two)
  have length : (sliceAt upload.size.toNat upload.payload 0).length = upload.size.toNat :=
    proper.full proper.two
  have fits := proper.fits
  simp only [size_chunk proper.chunk, sends.size1 rfl] at decided
  have held : (List.replicate upload.announced.toNat (0 : UInt8)).take (upload.size.toNat * 0) =
      upload.payload.take (upload.size.toNat * 0) := rfl
  obtain ⟨buffer, copied, sameLength, bytes⟩ := copyInto_next held (by rw [length_replicate]; omega)
  rw [← sends.bytes] at copied
  obtain ⟨next, handles, replied⟩ := coapRequestHandler_takes sends.method decided more copied
  have sameUrl : ({ openedNode now upload.url upload.announced with
      buffer := buffer, lastAccess := now, blockNum :=
        UInt32.ofNat 0 } : BlockNode).url = upload.url := rfl
  obtain ⟨puts, put⟩ := addBlock_put taken.unique sameUrl rfl (taken.absent rfl)
  refine ⟨next, _, handles, replied, ?_, proper.two,
    fun none => absurd none (Nat.succ_ne_zero _), ?_⟩
  · rw [replied.blockwise]
    exact puts.shelved
  · intro last same
    obtain rfl := Nat.succ.inj same
    rw [replied.blockwise]
    rw [length, ← Nat.mul_succ] at bytes
    exact ⟨_, put, rfl, rfl, sameLength.trans length_replicate, bytes⟩

/-- The last block hands the payload to the handler. -/
theorem Taken.completes {index : Nat}
    {handler : Handler E} (taken : upload.Taken source (index + 1) server) (proper : upload.Proper)
    (announces : upload.AnnouncesInt) (sends : upload.Sends (index + 1) request)
    (last : index + 2 = upload.blocks) (serves : Serves server request handler) (now : UInt32) :
    ∃ next, coapRequestHandler now source request server = some next ∧
    next.handled = server.handled ++ [{ request with payload := upload.payload }] := by
  obtain ⟨node, there, holds⟩ := taken.node rfl
  obtain ⟨rest, found⟩ := findBlock_of_nodeAt taken.unique there
  obtain ⟨offset, decided⟩ :=
    holds.decides proper announces sends taken.unfinished (.inr rfl) found now
  have room := proper.end_inside taken.unfinished
  have whole := proper.all last
  have fits := proper.fits
  have small := proper.small
  obtain ⟨buffer, copied, sameLength, bytes⟩ :=
    copyInto_next holds.bytes (by rw [holds.length]; omega)
  have beyond : upload.payload.length ≤ upload.size.toNat * (index + 1 + 1) := by
    have ends : ¬ index + 1 + 1 < upload.blocks := by omega
    rw [blocks, lt_slicesOf proper.positive] at ends
    omega
  rw [whole, take_of_length_le beyond] at bytes
  rw [← sends.bytes] at copied
  obtain ⟨next, handles, called⟩ := coapRequestHandler_hands sends.method serves decided
    (decide_eq_false (by omega)) copied
  have length : ((upload.size.toNat * (index + 1) : Nat) : Int).toNat + request.payload.length =
      upload.payload.length := by
    rw [Int.toNat_natCast, sends.bytes, whole]
  rw [length, Nat.mod_eq_of_lt (by omega), bytes] at called
  exact ⟨next, handles, called⟩

/-- Requests for something else leave the upload as it is. -/
theorem Taken.elsewhere {peer : A} (taken : upload.Taken source count server)
    (elsewhere : upload.Elsewhere source peer request) (apart : upload.Apart source peer request)
    (handles : coapRequestHandler now peer request server = some next) :
    upload.Taken source count next := by
  have touches := coapRequestHandler_touches taken.unique handles
  have same : nodeAt source upload.url false next.blockwise =
      nodeAt source upload.url false server.blockwise := by
    rcases touches with unchanged | ⟨url, full, touches⟩
    · rw [unchanged]
    · refine touches.frame fun samePeer samePlace => ?_
      obtain ⟨sameUrl, notGet⟩ := Prod.mk.inj samePlace
      rcases elsewhere with other | other | get
      · exact other samePeer.symm
      · exact other (apart.2 samePeer.symm (sameUrl ▸ full))
      · rw [decide_eq_true get] at notGet
        cases notGet
  exact ⟨touches.unique taken.unique, taken.unfinished,
    fun none => same.trans (taken.absent none), fun later => by
    rw [same]
    exact taken.node later⟩

/-! ### Runs -/

/-- The invariant holds on every run. -/
theorem Run.taken (run : upload.Run source start count server) (proper : upload.Proper)
    (announces : upload.AnnouncesInt) (unique : Unique start.blockwise)
    (absent : nodeAt source upload.url false start.blockwise = none) :
    upload.Taken source count server := by
  induction run with
  | start =>
    exact ⟨unique, Nat.lt_trans (by decide) proper.two, fun _ => absent,
      fun {_} later => by cases later⟩
  | elsewhere _ elsewhere apart handles taken => exact taken.elsewhere elsewhere apart handles
  | @stray count server next now request _ stray handles taken =>
    obtain ⟨other, store, handled, replied, same, unique⟩ := taken.stray stray now
    obtain rfl := some.inj (handles.symm.trans handled)
    rw [← replied.blockwise] at same unique
    exact ⟨unique, taken.unfinished, fun none => same.trans (taken.absent none), fun later => by
      rw [same]
      exact taken.node later⟩
  | @again count server next now request _ sends handles taken =>
    obtain ⟨other, store, handled, _, still⟩ :=
      taken.accepts proper announces sends taken.unfinished (.inl rfl) now
    obtain rfl := some.inj (handles.symm.trans handled)
    exact still
  | @next count server next now request _ unfinished sends handles taken =>
    cases count with
    | zero =>
      obtain ⟨other, store, handled, _, opened⟩ := taken.opens proper sends now
      obtain rfl := some.inj (handles.symm.trans handled)
      exact opened
    | succ index =>
      obtain ⟨other, store, handled, _, further⟩ :=
        taken.accepts proper announces sends unfinished (.inr rfl) now
      obtain rfl := some.inj (handles.symm.trans handled)
      exact further

end Upload

section Reassembly

variable {A E : Type} [DecidableEq A] {source : A} {upload : Upload}
  {fresh start server : ServerContext A E}
  {count : Nat}

/-- On every run of a server from an empty store whose requests are kept under their urls, once an
upload starts that announces a length an `int` holds, and no other request gets into its way: stray
blocks are answered 4.02 and leave the upload as it is, the blocks ahead of the last are taken and
taken again without a handler, and the last one calls the handler once, with the payload. -/
theorem upload_reassembled (proper : upload.Proper)
    (announces : upload.AnnouncesInt) (empty : fresh.blockwise = []) {calls : List (ServerCall A)}
    (runs : RunsUnder ServerContext.perform (fun _ call => call.Named) fresh calls start)
    (absent : nodeAt source upload.url false start.blockwise = none)
    (run : upload.Run source start count server) (now : UInt32) (request : Packet) :
    (upload.Stray count request → ∃ next, coapRequestHandler now source request server = some next ∧
      next.handled = server.handled ∧ nodeAt source upload.url false next.blockwise = nodeAt
      source upload.url false server.blockwise ∧ ∃ answer : Packet, answer.code = badOption402 ∧
      next.txData = server.txData ++ [(source, udpMessage answer)]) ∧
    (∀ index, upload.Sends index request →
      index = count ∧ index + 1 < upload.blocks ∨ index + 1 = count → ∃ next,
      coapRequestHandler now source request server = some next ∧ next.handled = server.handled) ∧
    (upload.Sends count request → count + 1 = upload.blocks → ∀ handler, Serves
      server request handler → ∃ next, coapRequestHandler now source request server = some next ∧
      next.handled = server.handled ++ [{ request with payload := upload.payload }]) := by
  have unique : Unique start.blockwise := by
    refine runAll_keeps
      (fun unique performed => ServerContext.perform_unique unique performed) runs.ran ?_
    rw [empty]
    exact shelved_nil
  have taken := run.taken proper announces unique absent
  refine ⟨fun stray => ?_, fun index sends which => ?_, fun sends last handler serves => ?_⟩
  · obtain ⟨next, store, handles, replied, same, _⟩ := taken.stray stray now
    rw [← replied.blockwise] at same
    exact ⟨next, handles, replied.handled, same, replied.reply⟩
  · have accepted : ∃ next store, coapRequestHandler now source request server = some next ∧
        Replied source continue231 store server next ∧ upload.Taken source (index + 1) next := by
      rcases which with ⟨rfl, unfinished⟩ | rfl
      · cases index with
        | zero => exact taken.opens proper sends now
        | succ before => exact taken.accepts proper announces sends unfinished (.inr rfl) now
      · exact taken.accepts proper announces sends taken.unfinished (.inl rfl) now
    obtain ⟨next, _, handles, replied, _⟩ := accepted
    exact ⟨next, handles, replied.handled⟩
  · cases count with
    | zero => exact absurd proper.two (by omega)
    | succ index => exact taken.completes proper announces sends last serves now

/-- A handler that accepts every payload. -/
def acceptAll : Handler Unit := fun _ _ => (⟨changed204, [], none, []⟩, ())

/-- A server with it. -/
def acceptServer : ServerContext Bool Unit :=
  ⟨[], [⟨.ofBytes [0x61], none, some acceptAll, none, none⟩], none, true, 1, (), [], []⟩

/-- Two blocks of sixteen bytes, and what they announce. -/
def pairUpload (announced : UInt32) : Upload :=
  ⟨([0x61], []), .ofBytes [0x61], List.replicate 32 7, 16, announced⟩

theorem pairUpload_proper (announced : UInt32) (fits : 32 ≤ announced.toNat) :
    (pairUpload announced).Proper :=
  ⟨fun queried => absurd rfl queried,
    (by decide : 16 ≤ (16 : UInt16).toNat), (by decide : (16 : UInt16).toNat ≤ 1024),
    (by decide : (16 : UInt16).toNat < (List.replicate 32 (7 : UInt8)).length), fits,
    (by decide : (List.replicate 32 (7 : UInt8)).length ≤ 65535)⟩

theorem pairUpload_blocks (announced : UInt32) : (pairUpload announced).blocks = 2 :=
  (by decide : slicesOf (16 : UInt16).toNat (List.replicate 32 (7 : UInt8)).length = 2)

theorem pairUpload_first (announced : UInt32) :
    (pairUpload announced).Sends 0 (smallBlock 0 true announced (List.replicate 16 7)) where
  method := .inr rfl
  here := rfl
  full := rfl
  option := ⟨0, by
    rw [pairUpload_blocks]
    rfl⟩
  bytes := rfl
  size1 := fun _ => if_pos rfl

theorem pairUpload_second (announced : UInt32) :
    (pairUpload announced).Sends 1 (smallBlock 1 false announced (List.replicate 16 7)) where
  method := .inr rfl
  here := rfl
  full := rfl
  option := ⟨0, by
    rw [pairUpload_blocks]
    rfl⟩
  bytes := rfl
  size1 := fun first => absurd first (by decide)

theorem pairUpload_serves (announced : UInt32) {server : ServerContext Bool Unit}
    (resources : server.resources = acceptServer.resources) :
    Serves server (smallBlock 1 false announced (List.replicate 16 7)) acceptAll := by
  refine ⟨(by decide +kernel : ([0x61] : List UInt8) ≠ []),
    (by decide : ([0x61] : List UInt8).length < 256), ?_⟩
  rw [resources]
  rfl

theorem acceptServer_taken (announced : UInt32) (fits : 32 ≤ announced.toNat) :
    (pairUpload announced).Taken false 0 acceptServer :=
  ⟨shelved_nil, Nat.lt_trans (by decide) (pairUpload_proper announced fits).two, fun _ => rfl,
    fun {_} later => by cases later⟩

/-- The second of two blocks that announce forty bytes hands over thirty-two. -/
theorem upload_reassembled_pair : ∃ first last, coapRequestHandler 3 false
      (smallBlock 0 true 40 (List.replicate 16 7)) acceptServer = some first ∧
    coapRequestHandler 4 false (smallBlock 1 false 40 (List.replicate 16 7)) first = some last ∧
    last.handled = first.handled ++
      [{ smallBlock 1 false 40 (List.replicate 16 7) with payload := List.replicate 32 7 }] := by
  have proper := pairUpload_proper 40 (by decide)
  have announces : (pairUpload 40).AnnouncesInt := (by decide : (40 : UInt32).toNat < 2 ^ 31)
  obtain ⟨first, _, handles, replied, _⟩ :=
    (acceptServer_taken 40 (by decide)).opens proper (pairUpload_first 40) 3
  have run : (pairUpload 40).Run false acceptServer 1 first :=
    .next .start proper.two (pairUpload_first 40) handles
  obtain ⟨last, hands, called⟩ :=
    (upload_reassembled proper announces (rfl : acceptServer.blockwise = []) (.done _) rfl run 4
    (smallBlock 1 false 40 (List.replicate 16 7))).2.2 (pairUpload_second 40) (by decide) acceptAll
      (pairUpload_serves 40 replied.resources)
  exact ⟨first, last, handles, hands, called⟩

/-- A length that is too large for an `int` is accepted with the first block, and the second
is refused as beyond it. -/
theorem upload_announced_refused :
    ¬ ∀ (upload : Upload) (start server : ServerContext Bool Unit) (count : Nat) (now : UInt32)
      (request : Packet) (handler : Handler Unit),
    upload.Proper → start.blockwise = [] → upload.Run false start count server →
      upload.Sends count request → count + 1 = upload.blocks → Serves server request handler →
      ∃ next, coapRequestHandler now false request server = some next ∧
        next.handled = server.handled ++ [{ request with payload := upload.payload }] := by
  intro claimed
  have proper := pairUpload_proper 0x80000000 (by decide)
  obtain ⟨first, _, handles, replied, taken⟩ :=
    (acceptServer_taken 0x80000000 (by decide)).opens proper (pairUpload_first _) 3
  obtain ⟨node, there, holds⟩ := taken.node rfl
  obtain ⟨rest, found⟩ := findBlock_of_nodeAt taken.unique there
  obtain ⟨offset, uploads⟩ := (pairUpload_second 0x80000000).uploads
  have refused : putDecision 4 false (smallBlock 1 false 0x80000000 (List.replicate 16 7))
      first.blockwise = .refused requestEntityTooLarge413 (addBlock false node rest) := by
    rw [putDecision_current uploads (.inl (by decide : (1 : UInt32) ≠ 0)) found
      (.inr (by rw [holds.blockNum]; rfl)), holds.bufferSize]
    exact if_pos (by decide : blockOffset 1 16 + (16 : Nat) > (0x80000000 : UInt32).toInt32.toInt)
  obtain ⟨other, refuses, kept⟩ := coapRequestHandler_refuses uploads.method 4 (by decide) refused
  obtain ⟨next, hands, called⟩ := claimed (pairUpload 0x80000000) acceptServer first 1 4
    (smallBlock 1 false 0x80000000 (List.replicate 16 7)) acceptAll proper rfl
    (.next .start proper.two (pairUpload_first _) handles) (pairUpload_second _) (by decide)
    (pairUpload_serves _ replied.resources)
  obtain rfl := some.inj (hands.symm.trans refuses)
  rw [kept.handled] at called
  exact absurd (congrArg List.length called) (by rw [length_append, length_singleton]; omega)

end Reassembly

end Idrm.Coap
