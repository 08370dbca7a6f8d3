import Idrm.Agent.BusRequests
import Idrm.Lib.Run

/-!
# The cache of data points

While the link to the cloud is down, `SendRequest` publishes a data point under `/dp-cache/`.
The database module queues it and stores it as a row; once the link is up the rows are
published under `/ibroker/dp/`, the oldest first, and the agent sends them on.

The table returns what was bound, and the bus delivers what was published. An entry keeps
the call of `SendRequest` it comes from, so that what reaches the cloud can be compared with
what would have been sent at once.
-/

namespace Idrm.Agent

open Idrm.Lib Idrm.Coap Idrm.Ilink Idrm.Bus Option List

/-- `DpCacheData`; `payload_len` is the length of the payload, and `uri` what `strncpy` leaves
of the uri in 256 bytes. -/
structure DpCacheData where
  time : Int64
  fmt : Int32
  payload : List UInt8
  uri : List UInt8
deriving DecidableEq

/-- `"/dp-cache"` -/
def dpCacheStart : List UInt8 := [0x2F, 0x64, 0x70, 0x2D, 0x63, 0x61, 0x63, 0x68, 0x65]
/-- `"/ibroker/dp"` -/
def ibrokerDpStart : List UInt8 := busIbroker ++ [0x64, 0x70]

/-- `Database_Receive` with `add_dp_cache_data`. A message without format or time leaves what
the variables hold. -/
def databaseReceive (staleFmt : Int32) (staleTm : Int64) (message : BusMessage) :
    Option DpCacheData :=
  let properties := message.properties
  if properties .tag = some tagRestReq ∧ (properties .mid).isSome then
    (properties .uri).bind fun uri => (properties .action).bind fun action =>
      if Url.checkUrlStart uri.bytes dpCacheStart ≠ 0 ∧
        (action = restActionStr 3 ∨ action = restActionStr 2) then
        some
          { time := ((properties .tm).map strtol).getD staleTm
            fmt := ((properties .fmt).map atoi).getD staleFmt
            payload := message.content
            uri := (uri.bytes.drop 9).take 256 }
      else none
  else none

/-- `sendCacheDataToAgent` -/
def sendCacheDataToAgent (moduleId : CString) (msgId : UInt32) (data : DpCacheData) : BusMessage :=
  let cUri := CString.ofBytes ((ibrokerDpStart ++ data.uri).take 255)
  ((setupBusRestfulMessage moduleId tagRestReq data.fmt (some cUri) none coapPut.toNat
    data.payload).set .mid (decimal msgId.toInt32.toInt)).set .tm (decimal data.time.toInt)

/-- What the agent sends to the cloud for a message of the bus. -/
def sentToCloud (selfAgentId : CString) (msgId : UInt32) (message : BusMessage) :
    Option (Option IbrokerMessage) :=
  (iagentReceive message).bind fun
    | .ibroker url src tm => (handleBusIbroker selfAgentId msgId message url src tm).map
        (·.map Prod.snd)
    | _ => some none

/-! ## The table -/

/-- A data point on its way, with the call it comes from. -/
structure CacheEntry where
  data : DpCacheData
  origin : Option (SendContext × SendArgs)

/-- A row of `DP_CACHE_DATA_LIST` -/
structure CacheRow where
  id : Nat
  entry : CacheEntry

/-- A row that was sent and deleted, with what reached the cloud for it. -/
structure Delivery where
  origin : Option (SendContext × SendArgs)
  message : Option IbrokerMessage

/-- `g_dp_cache_queue`, the table with its row ids, `g_max_dpcache_row`, and what was sent. -/
structure DpCache where
  queue : List CacheEntry
  rows : List CacheRow
  newId : Nat
  maxRow : Int
  delivered : List Delivery

namespace DpCache

/-- An empty cache. -/
def start (maxRow : Int) : DpCache := ⟨[], [], 0, maxRow, []⟩

/-- A row comes first when ordered by `TIME`. -/
def isOldest (rows : List CacheRow) (row : CacheRow) : Bool :=
  rows.all fun other => row.entry.data.time ≤ other.entry.data.time

/-- `sqlite3_column_int`, which takes the low 32 bits of what a column holds. -/
def sqlite3ColumnInt (value : Nat) : Int32 := Int32.ofNat value

/-- The statement of `deleteDpCacheData` -/
def deleteRow (autoGenId : Int32) (rows : List CacheRow) : List CacheRow :=
  rows.filter fun row => (row.id : Int) ≠ autoGenId.toInt

/-- `deleteOlderDpCacheData` of one row. Rows of one time come in any order: `id` is the one
that does. -/
def deleteOlder (id : Nat) (cache : DpCache) : Option (CacheEntry × DpCache) :=
  (cache.rows.find? fun row => row.id = id && isOldest cache.rows row).map fun row =>
    (row.entry, { cache with rows := deleteRow (sqlite3ColumnInt row.id) cache.rows })

/-- `storeDpCacheData` -/
def storeDpCacheData (entry : CacheEntry) (cache : DpCache) : DpCache :=
  { cache with rows := cache.rows ++ [⟨cache.newId, entry⟩], newId := cache.newId + 1 }

/-- A message on the bus reaches the module. -/
def receive (staleFmt : Int32) (staleTm : Int64) (origin : Option (SendContext × SendArgs))
    (message : BusMessage) (cache : DpCache) : DpCache :=
  match databaseReceive staleFmt staleTm message with
  | none => cache
  | some data => { cache with queue := cache.queue ++ [⟨data, origin⟩] }

/-- What happens to the cache: the agent sends a request, another message comes over the bus,
and the thread of the module stores a data point or sends the oldest. -/
inductive CacheEvent where
  | sendRequest (context : SendContext) (args : SendArgs) (staleFmt : Int32) (staleTm : Int64)
  | message (message : BusMessage) (staleFmt : Int32) (staleTm : Int64)
  | store (oldest : Nat)
  | forward (oldest : Nat) (moduleId : CString) (msgId : UInt32) (selfAgentId : CString)
      (cloudMsgId : UInt32)

/-- The thread takes a data point from the queue; a table that is too long loses its oldest
row. There is no result for an uri without a terminator, which `storeDpCacheData` would read
past. -/
def storeNext (oldest : Nat) (cache : DpCache) : Option DpCache :=
  match cache.queue with
  | [] => some cache
  | entry :: rest =>
    if entry.data.uri.length < 256 then
      let cache := storeDpCacheData entry { cache with queue := rest }
      if (cache.rows.length : Int) > cache.maxRow then (deleteOlder oldest cache).map Prod.snd
      else some cache
    else none

/-- The thread publishes the oldest row, and the agent sends it on. -/
def forwardOldest (oldest : Nat) (moduleId : CString) (msgId : UInt32) (selfAgentId : CString)
    (cloudMsgId : UInt32) (cache : DpCache) : Option DpCache :=
  (deleteOlder oldest cache).bind fun (entry, cache) =>
    (sentToCloud selfAgentId cloudMsgId (sendCacheDataToAgent moduleId msgId entry.data)).map
      fun message =>
      { cache with delivered := cache.delivered ++ [⟨entry.origin, message⟩] }

/-- One event. -/
def perform : CacheEvent → DpCache → Option DpCache
  | .sendRequest context args staleFmt staleTm, cache =>
    (Idrm.Agent.sendRequest context args).map fun
      | .bus message => receive staleFmt staleTm (some (context, args)) message cache
      | _ => cache
  | .message message staleFmt staleTm, cache => some (receive staleFmt staleTm none message cache)
  | .store oldest, cache => storeNext oldest cache
  | .forward oldest moduleId msgId selfAgentId cloudMsgId, cache =>
    forwardOldest oldest moduleId msgId selfAgentId cloudMsgId cache

end DpCache

/-! ## Data points -/

/-- The packet of a data point. -/
def dpPacket (type : CoapMessageType) (mid : UInt16) (token : ShortBytes) (fmt : Int32)
    (payload path : List UInt8) : Packet :=
  { CoapPacket.zero [] with
    type := type
    code := coapPut
    mid := mid
    token := token
    options := {CoapOption.uriPath.number, CoapOption.contentFormat.number}
    contentFormat := fmt.toUInt32
    uriPath := path
    payload := payload }

/-- The options of a data point are the same set in whatever order they were set. -/
theorem eq_dpPacket {type : CoapMessageType} {mid : UInt16} {token : ShortBytes} {fmt : Int32}
    {payload path : List UInt8} {packet : Packet} (options : Finset Nat)
    (fields : packet = { dpPacket type mid token fmt payload path with options := options })
    (same : options = {CoapOption.uriPath.number, CoapOption.contentFormat.number}) :
    packet = dpPacket type mid token fmt payload path := by
  rw [fields, same]
  rfl

variable {type : CoapMessageType} {mid : UInt16} {token : ShortBytes} {fmt : Int32}
  {payload path : List UInt8}

theorem serializeOptions_dpPacket :
    serializeOptions (dpPacket type mid token fmt payload path) =
      coapSerializeArrayOption 11 0 path slash ++ coapSerializeIntOption 12 11 fmt.toUInt32 := by
  rfl

/-- A data point with a short path is serialized. -/
theorem serialize_dpPacket (named : token.bytes.length = 4) (short : path.length ≤ 246) :
    ∃ bytes, bytes ≠ [] ∧
      coapSerializeMessageTcp (dpPacket type mid token fmt payload path) =
        some (bytes, dpPacket type mid token fmt payload path) := by
  have pathBytes :
      26 * (coapSerializeArrayOption 11 0 path slash).length ≤ 28 * (path.length + 1) := by
    rw [coapSerializeArrayOption, if_pos (by decide)]
    exact splitLoop_length (by omega) (by decide) _ (by decide) (Nat.le_refl _)
  have formatBytes : (coapSerializeIntOption 12 11 fmt.toUInt32).length ≤ 6 := by
    have bytes := intOptionBytes_length fmt.toUInt32
    have header := @coapSetOptionHeader_length (12 - 11) (intOptionBytes fmt.toUInt32).length
      (by decide) (by omega)
    rw [coapSerializeIntOption, length_append]
    omega
  have marker := payloadMarker_length (dpPacket type mid token fmt payload path)
  refine coapSerializeMessageTcp_written (ne_of_eq_of_ne named (by decide)) ?_ ?_
  · show 0 + path.length + 0 ≤ tcpOptionBuffer - 64
    rw [tcpOptionBuffer]
    omega
  · rw [serializeOptions_dpPacket, length_append, length_append, tcpOptionBuffer]
    omega

/-- `"dp/"` -/
def dpSlash : List UInt8 := [0x64, 0x70, 0x2F]

/-- A target `/ibroker/dp/X`, and what a data point is sent with. -/
structure IsDataPoint (name : List UInt8) (args : SendArgs) : Prop where
  target : args.target.bytes = Url.slash :: (ibrokerDp ++ name)
  nonempty : name ≠ []
  short : name.length ≤ 243
  put : args.msgcode = coapPut
  noQuery : args.query = none
  format : 0 ≤ args.fmt
  payload : args.payload.length < 65536

section

variable {name : List UInt8} {args : SendArgs} {context : SendContext}

theorem IsDataPoint.nulFree (point : IsDataPoint name args) : (0 : UInt8) ∉ name := by
  intro member
  refine args.target.nulFree ?_
  rw [point.target]
  exact mem_cons_of_mem _ (mem_append_right _ member)

theorem IsDataPoint.format_present (point : IsDataPoint name args) : args.fmt ≠ -1 := by
  intro absent
  have format := point.format
  rw [absent] at format
  exact absurd format (by decide)

theorem coapSetPayloadTcp_short {payload : List UInt8} (short : payload.length < 65536)
    (packet : Packet) : coapSetPayloadTcp payload packet = { packet with payload := payload } := by
  rw [coapSetPayloadTcp, Nat.min_eq_right (by omega), Nat.mod_eq_of_lt short, take_length]

/-- The path of a data point, unless its name looks like a protocol. -/
theorem IsDataPoint.targetPath (point : IsDataPoint name args) {path : List UInt8}
    (found : targetPath args.target = some path) : path = ibrokerDp ++ name := by
  have dropped : args.target.bytes.dropWhile (· = Url.slash) = ibrokerDp ++ name := by
    rw [point.target, dropWhile_cons_of_pos (by decide)]
    exact dropWhile_cons_of_neg (by decide)
  unfold Agent.targetPath at found
  rw [dropped] at found
  split at found
  · cases found
  · cases found
    rfl

/-- A string of a path that starts with `dp/`. -/
theorem uriPath_dp (nulFree : (0 : UInt8) ∉ name) (packet : Packet) :
    coapSetHeaderUriPath (.ofBytes (dpSlash ++ name)) packet =
      CoapPacket.setOption .uriPath { packet with uriPath := dpSlash ++ name } := by
  have whole : (0 : UInt8) ∉ dpSlash ++ name := by
    simp [dpSlash, nulFree]
  rw [coapSetHeaderUriPath, CString.ofBytes_nulFree whole]
  rfl

theorem directPacket_dataPoint (point : IsDataPoint name args) :
    directPacket context args (ibrokerDp ++ name) =
      dpPacket (if args.requireResponse then .con else .non) context.msgId.toUInt16
        (.copy (leBytes 4 context.msgId.toNat)) args.fmt args.payload (dpSlash ++ name) := by
  have start : Url.checkUrlStart (ibrokerDp ++ name) (Url.slash :: ibrokerStem) = 8 := by
    show Url.checkUrlStart (ibrokerStem ++ Url.slash :: (dpSlash ++ name)) _ = 8
    rw [Url.checkUrlStart_append (by decide) (by decide) (by decide)]
    rfl
  have rest : (ibrokerDp ++ name).drop 8 = dpSlash ++ name := rfl
  simp only [directPacket, start, rest, point.noQuery, point.put, uriPath_dp point.nulFree]
  rw [coapSetPayloadTcp_short point.payload]
  exact eq_dpPacket (insert 12 (insert 11 ∅)) rfl (by decide)

/-- With the link up a data point goes to the cloud as it is. -/
theorem sendRequest_direct (point : IsDataPoint name args) (ready : context.ready = true)
    (found : targetPath args.target = some (ibrokerDp ++ name)) : ∃ payload, sendRequest context
      args = some (.cloud ⟨context.msgId, vheaderOf [(kAgentId, context.selfAgentId)],
      dpPacket (if args.requireResponse then .con else .non) context.msgId.toUInt16 (.copy
      (leBytes 4 context.msgId.toNat)) args.fmt args.payload (dpSlash ++ name), payload⟩) := by
  have under : Url.checkUrlStart (ibrokerDp ++ name) ibrokerStem ≠ 0 := by
    show Url.checkUrlStart (ibrokerStem ++ Url.slash :: (dpSlash ++ name)) _ ≠ 0
    rw [Url.checkUrlStart_append (by decide) (by decide) (by decide)]
    decide
  have short := point.short
  obtain ⟨bytes, -, written⟩ := @serialize_dpPacket (if args.requireResponse then .con else .non)
    context.msgId.toUInt16 (.copy (leBytes 4 context.msgId.toNat)) args.fmt args.payload
    (dpSlash ++ name) (by simp [ShortBytes.copy, shortLen]) (by simp [dpSlash]; omega)
  refine ⟨bytes, ?_⟩
  rw [sendRequest, found]
  dsimp only
  rw [if_neg under, if_neg (by simp [ready]), directPacket_dataPoint point, written]
  rfl

/-- A data point is published under `/dp-cache/` while the link is down. -/
theorem sendRequest_cached (point : IsDataPoint name args)
    {message : BusMessage} (sent : sendRequest context args = some (.bus message)) :
    targetPath args.target = some (ibrokerDp ++ name) ∧
    message = ((setupBusRestfulMessage context.moduleId tagRestReq args.fmt
      (some (.ofBytes (dpCacheSlash ++ name))) none coapPut.toNat args.payload).set .mid
      (decimal context.msgId.toNat)).set .tm (decimal context.time.toInt) := by
  unfold sendRequest at sent
  split at sent
  · cases sent
  rename_i path found
  obtain rfl := point.targetPath found
  have start : Url.checkUrlStart (ibrokerDp ++ name) ibrokerDp = 11 := by
    show Url.checkUrlStart ((ibrokerStem ++ [0x2F, 0x64, 0x70]) ++ Url.slash :: name) _ = 11
    rw [Url.checkUrlStart_append (by decide) (by decide) (by decide)]
    rfl
  have rest : (ibrokerDp ++ name).drop 11 = name := rfl
  have short := point.short
  have whole : (dpCacheSlash ++ name).take 1023 = dpCacheSlash ++ name :=
    take_of_length_le (by simp [dpCacheSlash]; omega)
  split at sent
  · cases sent
  split at sent
  · simp only [sendToCache, start, rest, whole, point.put] at sent
    exact ⟨found, (Sent.bus.inj (some.inj sent)).symm⟩
  · obtain ⟨written, -, direct⟩ := map_eq_some_iff.mp sent
    cases direct

/-- What a data point is queued as while the link is down. -/
theorem databaseReceive_dataPoint (point : IsDataPoint name args) {message : BusMessage}
    (sent : sendRequest context args = some (.bus message)) (staleFmt : Int32) (staleTm : Int64) :
    targetPath args.target = some (ibrokerDp ++ name) ∧
      databaseReceive staleFmt staleTm message =
        some ⟨context.time, args.fmt, args.payload, Url.slash :: name⟩ := by
  obtain ⟨found, rfl⟩ := sendRequest_cached point sent
  refine ⟨found, ?_⟩
  have nulFree : (0 : UInt8) ∉ dpCacheSlash ++ name := by
    simp [dpCacheSlash, point.nulFree]
  have under : Url.checkUrlStart (dpCacheSlash ++ name) dpCacheStart ≠ 0 := by
    refine (Url.checkUrlStart_pos_iff (by decide)).mpr (.inr ⟨name, ?_⟩)
    rfl
  have short := point.short
  have uri : ((dpCacheSlash ++ name).drop 9).take 256 = Url.slash :: name :=
    take_of_length_le (by simp [dpCacheSlash]; omega)
  unfold databaseReceive
  simp only [BusMessage.set_properties, BusMessage.set_content, Properties.addOrUpdate_apply,
    setupBusRestfulMessage_request point.format_present, CString.ofBytes_nulFree nulFree,
    reduceCtorEq, if_true, if_false, isSome_some, and_self, bind_some, map_some, getD_some,
    atoi_restFmtStr, strtol_decimal, uri]
  rw [if_pos ⟨under, .inl rfl⟩]
  rfl

/-- The request a stored data point is published as. -/
theorem sendCacheDataToAgent_dataPoint (point : IsDataPoint name args) (moduleId : CString)
    (msgId : UInt32) (time : Int64) : sendCacheDataToAgent moduleId msgId ⟨time, args.fmt,
      args.payload, Url.slash :: name⟩ = ((setupBusRestfulMessage moduleId tagRestReq args.fmt
      (some (.ofBytes (busIbroker ++ (dpSlash ++ name)))) none coapPut.toNat args.payload).set .mid
      (decimal msgId.toInt32.toInt)).set .tm (decimal time.toInt) := by
  have short := point.short
  have whole : (ibrokerDpStart ++ (Url.slash :: name)).take 255 = busIbroker ++ (dpSlash ++ name) :=
    take_of_length_le (by simp [ibrokerDpStart, busIbroker]; omega)
  rw [sendCacheDataToAgent, whole]

/-- The agent takes a request under `/ibroker/` for the cloud. -/
theorem requestTask_ibroker {properties : Properties}
    {url : List UInt8} (nulFree : (0 : UInt8) ∉ busIbroker ++ url)
    (id : UInt32) : requestTask properties ⟨busIbroker ++ url, nulFree⟩ id =
      some (.ibroker (.ofBytes url) (properties .src) (properties .tm)) := by
  have other (leading : List UInt8) (stem : Url.stripSlash (Url.skipSlash leading) ≠ [])
      (different : some (0x69 : UInt8) ≠ (Url.stripSlash (Url.skipSlash leading)).head?) :
      ¬ Url.checkUrlStart (busIbroker ++ url) leading ≠ 0 :=
    not_not.mpr (Url.checkUrlStart_other stem different)
  have under : Url.checkUrlStart (busIbroker ++ url) busIbroker ≠ 0 :=
    (Url.checkUrlStart_pos_iff (by decide)).mpr (.inr ⟨url, rfl⟩)
  rw [requestTask, if_neg (other busRd (by decide) (by decide)), if_neg
    (other busCal (by decide) (by decide)), if_neg (other busRefresher (by decide) (by decide)),
    if_neg (other busEp (by decide) (by decide)), if_pos under]
  rfl

/-- The packet a stored data point is converted to, before it gets its path and token. -/
theorem convertBusMsgToCoap_dataPoint (point : IsDataPoint name args)
    (moduleId : CString) (msgId : UInt32) (time : Int64) : ∃ packet mid,
    convertBusMsgToCoap (sendCacheDataToAgent moduleId msgId ⟨time, args.fmt, args.payload,
      Url.slash :: name⟩) = some packet ∧ packet.token.bytes.length = 4 ∧ ∀ cloudMsgId : UInt32,
    coapSetToken (leBytes 4 cloudMsgId.toNat)
      (coapSetHeaderUriPath (.ofBytes (dpSlash ++ name)) packet) = dpPacket .con mid
      (.copy (leBytes 4 cloudMsgId.toNat)) args.fmt args.payload (dpSlash ++ name) := by
  have format : (atoi (restFmtStr args.fmt)).toUInt32 = args.fmt.toUInt32 := by
    rw [atoi_restFmtStr]
  have action : actionFromString (restActionStr coapPut.toNat) = some 3 := by
    decide
  rw [sendCacheDataToAgent_dataPoint point, convertBusMsgToCoap, initFromProperties]
  simp only [BusMessage.set_properties, BusMessage.set_content, Properties.addOrUpdate_apply,
    setupBusRestfulMessage_request point.format_present, reduceCtorEq, if_true, if_false, bind_some,
    map_some, setFrom, format, action, setupBusRestfulMessage_content]
  rw [if_neg (by decide)]
  refine ⟨_, (atoi (decimal msgId.toInt32.toInt)).toUInt32.toUInt16, rfl, ?_, fun cloudMsgId => ?_⟩
  · show ((leBytes 4 _).take shortLen).length = 4
    simp [shortLen]
  · dsimp only
    rw [coapSetPayloadTcp_short point.payload, uriPath_dp point.nulFree]
    exact eq_dpPacket (insert 11 (insert 11 (insert 11 (insert 12 ∅)))) rfl (by decide)

/-- A stored data point reaches the cloud with its time. -/
theorem sentToCloud_dataPoint (point : IsDataPoint name args) (moduleId selfAgentId : CString)
    (msgId cloudMsgId : UInt32) (time : Int64) : ∃ message mid,
    sentToCloud selfAgentId cloudMsgId (sendCacheDataToAgent moduleId msgId ⟨time, args.fmt,
      args.payload, Url.slash :: name⟩) = some (some message) ∧ message.packet = dpPacket .con mid
      (.copy (leBytes 4 cloudMsgId.toNat)) args.fmt args.payload (dpSlash ++ name) ∧
    message.vheader = vheaderOf [(kTime, decimal time.toInt), (kAgentId, selfAgentId)] := by
  have nulFree : (0 : UInt8) ∉ busIbroker ++ (dpSlash ++ name) := by
    simp [busIbroker, dpSlash, point.nulFree]
  have short := point.short
  obtain ⟨packet, mid, converted, token, final⟩ :=
    convertBusMsgToCoap_dataPoint point moduleId msgId time
  have taken : iagentReceive
      (sendCacheDataToAgent moduleId msgId ⟨time, args.fmt, args.payload, Url.slash :: name⟩) =
      some (.ibroker (.ofBytes (dpSlash ++ name)) (some moduleId) (some (decimal time.toInt))) := by
    rw [sendCacheDataToAgent_dataPoint point, iagentReceive]
    simp only [BusMessage.set_properties, Properties.addOrUpdate_apply,
      setupBusRestfulMessage_request point.format_present, reduceCtorEq, if_true, if_false,
      any_none, CString.ofBytes_nulFree nulFree, requestTask_ibroker]
    rfl
  obtain ⟨bytes, written, serialized⟩ :=
    @serialize_dpPacket .con mid (.copy (leBytes 4 cloudMsgId.toNat)) args.fmt
    args.payload (dpSlash ++ name) (by simp [ShortBytes.copy, shortLen]) (by simp [dpSlash]; omega)
  have sent : sentToCloud selfAgentId cloudMsgId
      (sendCacheDataToAgent moduleId msgId ⟨time, args.fmt, args.payload, Url.slash :: name⟩) =
      some (some ⟨cloudMsgId, vheaderOf [(kTime, decimal time.toInt), (kAgentId, selfAgentId)],
      dpPacket .con mid (.copy (leBytes 4 cloudMsgId.toNat)) args.fmt args.payload
      (dpSlash ++ name), bytes⟩) := by
    have kept : (coapSetHeaderUriPath (.ofBytes (dpSlash ++ name)) packet).token.bytes.length = 4 :=
      token
    rw [sentToCloud, taken, bind_some]
    dsimp only
    rw [handleBusIbroker, converted]
    dsimp only
    rw [sendBusRequestToIbroker, if_neg (not_not.mpr kept), bind_some]
    dsimp only
    rw [final, serialized]
    simp [written]
  exact ⟨_, mid, sent, rfl, rfl⟩

end

/-! ## Every run -/

/-- Two packets ask for the same: they differ at most in token, message id and type. -/
def SameRequest (one other : Packet) : Prop :=
  { one with token := other.token, mid := other.mid, type := other.type } = other

/-- An entry holds what its data point was sent with. -/
def CacheEntry.Kept (entry : CacheEntry) : Prop :=
  ∀ context args name, entry.origin = some (context, args) → IsDataPoint name args →
    targetPath args.target = some (ibrokerDp ++ name) ∧
      entry.data = ⟨context.time, args.fmt, args.payload, Url.slash :: name⟩

/-- What reached the cloud for a data point is what would have been sent at once, with the
time it was sent. -/
def Delivery.AsDirect (delivery : Delivery) : Prop :=
  ∀ context args name, delivery.origin = some (context, args) → IsDataPoint name args →
    ∃ message direct, delivery.message = some message ∧
      sendRequest { context with ready := true } args = some (.cloud direct) ∧
      SameRequest message.packet direct.packet ∧
      ⟨kTime, true, .sVal (decimal context.time.toInt)⟩ ∈ message.vheader.nodes

namespace DpCache

/-- Every entry holds its data point and every delivery was as if sent at once. -/
structure Sound (cache : DpCache) : Prop where
  queue : ∀ entry ∈ cache.queue, entry.Kept
  rows : ∀ row ∈ cache.rows, row.entry.Kept
  delivered : ∀ delivery ∈ cache.delivered, delivery.AsDirect

theorem start_sound (maxRow : Int) : (start maxRow).Sound where
  queue _ member := absurd member not_mem_nil
  rows _ member := absurd member not_mem_nil
  delivered _ member := absurd member not_mem_nil

theorem Sound.receive {cache : DpCache}
    (sound : cache.Sound) {origin : Option (SendContext × SendArgs)}
    {message : BusMessage} {staleFmt : Int32} {staleTm : Int64}
    (kept : ∀ data, databaseReceive staleFmt staleTm message = some data →
      CacheEntry.Kept ⟨data, origin⟩) : (receive staleFmt staleTm origin message cache).Sound := by
  unfold DpCache.receive
  split
  · exact sound
  · rename_i data received
    refine ⟨fun entry member => ?_, sound.rows, sound.delivered⟩
    rcases mem_append.mp member with before | new
    · exact sound.queue entry before
    · rw [mem_singleton.mp new]
      exact kept data received

variable {entry : CacheEntry}

theorem Sound.deleteOlder {cache rest : DpCache} (sound : cache.Sound) {id : Nat}
    (deleted : deleteOlder id cache = some (entry, rest)) : entry.Kept ∧ rest.Sound := by
  obtain ⟨row, found, taken⟩ := map_eq_some_iff.mp deleted
  cases taken
  refine ⟨sound.rows row (mem_of_find?_eq_some found), sound.queue, fun other member => ?_,
    sound.delivered⟩
  exact sound.rows other (mem_of_mem_filter member)

theorem Sound.store {cache : DpCache} (sound : cache.Sound) (kept : entry.Kept) :
    (storeDpCacheData entry cache).Sound := by
  refine ⟨sound.queue, fun row member => ?_, sound.delivered⟩
  rcases mem_append.mp member with before | new
  · exact sound.rows row before
  · rw [mem_singleton.mp new]
    exact kept

/-- A row that is kept goes out as its data point would have. -/
theorem asDirect_of_kept (kept : entry.Kept) {moduleId selfAgentId : CString}
    {msgId cloudMsgId : UInt32} {message : Option IbrokerMessage}
    (sent : sentToCloud selfAgentId cloudMsgId (sendCacheDataToAgent moduleId msgId entry.data) =
      some message) : Delivery.AsDirect ⟨entry.origin, message⟩ := by
  intro context args name origin point
  obtain ⟨found, data⟩ := kept context args name origin point
  obtain ⟨cached, mid, reached, packet, vheader⟩ :=
    sentToCloud_dataPoint point moduleId selfAgentId msgId cloudMsgId context.time
  obtain ⟨payload, direct⟩ :=
    @sendRequest_direct name args { context with ready := true } point rfl found
  rw [data, reached] at sent
  refine ⟨cached, _, (some.inj sent).symm, direct, ?_, ?_⟩
  · rw [packet]
    rfl
  · rw [vheader]
    exact mem_cons_self

variable {cache next : DpCache}

theorem Sound.storeNext (sound : cache.Sound) {oldest : Nat}
    (performed : storeNext oldest cache = some next) : next.Sound := by
  unfold DpCache.storeNext at performed
  split at performed
  · cases performed
    exact sound
  · rename_i entry rest queue
    have first : entry.Kept := sound.queue entry (by rw [queue]; exact mem_cons_self)
    have later : DpCache.Sound { cache with queue := rest } :=
      ⟨fun other member => sound.queue other (by rw [queue]; exact mem_cons_of_mem _ member),
        sound.rows, sound.delivered⟩
    have stored := later.store first
    split at performed
    · dsimp only at performed
      split at performed
      · obtain ⟨⟨deleted, remaining⟩, removed, done⟩ := map_eq_some_iff.mp performed
        cases done
        exact (stored.deleteOlder removed).2
      · cases performed
        exact stored
    · cases performed

theorem Sound.forwardOldest (sound : cache.Sound) {oldest : Nat}
    {moduleId selfAgentId : CString} {msgId cloudMsgId : UInt32}
    (performed : forwardOldest oldest moduleId msgId selfAgentId cloudMsgId cache = some next) :
    next.Sound := by
  obtain ⟨⟨entry, rest⟩, deleted, sending⟩ := bind_eq_some_iff.mp performed
  obtain ⟨kept, remaining⟩ := sound.deleteOlder deleted
  obtain ⟨message, sent, done⟩ := map_eq_some_iff.mp sending
  cases done
  refine ⟨remaining.queue, remaining.rows, fun delivery member => ?_⟩
  rcases mem_append.mp member with before | new
  · exact remaining.delivered delivery before
  · rw [mem_singleton.mp new]
    exact asDirect_of_kept kept sent

theorem perform_sound {event : CacheEvent} (sound : cache.Sound)
    (performed : perform event cache = some next) : next.Sound := by
  cases event with
  | sendRequest context args staleFmt staleTm =>
    obtain ⟨sent, request, done⟩ := map_eq_some_iff.mp performed
    cases sent with
    | bus message =>
      cases done
      refine sound.receive fun data received => ?_
      intro context' args' name origin point
      cases origin
      obtain ⟨found, queued⟩ := databaseReceive_dataPoint point request staleFmt staleTm
      rw [queued] at received
      exact ⟨found, (some.inj received).symm⟩
    | elsewhere =>
      cases done
      exact sound
    | cloud message =>
      cases done
      exact sound
  | message message staleFmt staleTm =>
    cases performed
    exact sound.receive fun data _ context args name origin => nomatch origin
  | store oldest => exact sound.storeNext performed
  | forward oldest moduleId msgId selfAgentId cloudMsgId => exact sound.forwardOldest performed

/-- Every data point that reached the cloud from the cache got there as it would have been
sent with the link up, and with the time it was sent. -/
theorem delivered_asDirect {maxRow : Int} {events : List CacheEvent} {cache : DpCache}
    (ran : runAll perform events (start maxRow) = some cache) :
    ∀ delivery ∈ cache.delivered, delivery.AsDirect :=
  (runAll_keeps perform_sound ran (start_sound maxRow)).delivered

/-- The data point `/ibroker/dp/a`. -/
def sampleArgs : SendArgs where
  target := ⟨Url.slash :: (ibrokerDp ++ [0x61]), by decide⟩
  fmt := 0
  payload := [1, 2]
  requireResponse := false
  msgcode := coapPut
  query := none

/-- A call at time 5 while the link is down. -/
def sampleContext : SendContext := ⟨false, .empty, moduleAgent, 7, 5⟩

/-- The data point is sent, stored and forwarded. -/
def sampleRun : List CacheEvent :=
  [.sendRequest sampleContext sampleArgs 0 0, .store 0, .forward 0 .empty 1 .empty 2]

theorem delivered_asDirect_sample : ∃ cache delivery,
    runAll perform sampleRun (start 10) = some cache ∧ delivery ∈ cache.delivered ∧
    delivery.origin = some (sampleContext, sampleArgs) ∧ IsDataPoint [0x61] sampleArgs ∧
    delivery.AsDirect := by
  have point : IsDataPoint [0x61] sampleArgs :=
    ⟨rfl, by decide, by decide, rfl, rfl, by decide, by decide⟩
  have origins :
    (runAll perform sampleRun (start 10)).map (fun cache => cache.delivered.map Delivery.origin) =
    some [some (sampleContext, sampleArgs)] := rfl
  obtain ⟨cache, ran, delivered⟩ := map_eq_some_iff.mp origins
  have sent : some (sampleContext, sampleArgs) ∈ cache.delivered.map Delivery.origin := by
    rw [delivered]
    exact mem_cons_self
  obtain ⟨delivery, member, origin⟩ := List.mem_map.mp sent
  exact ⟨cache, delivery, ran, member, origin, point, delivered_asDirect ran delivery member⟩

end DpCache

end Idrm.Agent
