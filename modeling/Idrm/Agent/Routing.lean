import Idrm.Agent.CloudLink
import Idrm.Coap.OverTcp
import Idrm.Devices.ClientManager
import Idrm.Ilink.Frame

/-!
# Routing requests

A message from the cloud is a response to one of the agent's requests, or a request for
the refresher, an endpoint, a service of the agent or the bus; a request on the UDP port
that no resource takes goes to the bus. Both paths replace `dev` at the start of a url by
the standard of the device behind it.

An `assert` that fails ends the agent: the functions return which one it was. The url is
kept with the bytes that follow it in memory, since some tests look past its end.
-/

namespace Idrm.Agent

open Idrm.Lib Idrm.Coap Idrm.Ilink Idrm.Devices List

/-- The assertions of routing. -/
inductive Assertion where
  /-- `code >= COAP_GET && code <= COAP_DELETE` -/
  | requestCode
  /-- `strncmp(url, "ep/", 3) != 0` -/
  | noEndpointUrl
  /-- `strncmp(url_buffer, "dev/", 4) == 0` -/
  | genericDevUrl
deriving DecidableEq, Repr

/-- `"dev/"` -/
def devSlash : List UInt8 := [0x64, 0x65, 0x76, 0x2F]
/-- `"ep/"` -/
def epSlash : List UInt8 := [0x65, 0x70, 0x2F]
/-- `"refresher"` -/
def refresherUrl : List UInt8 := [0x72, 0x65, 0x66, 0x72, 0x65, 0x73, 0x68, 0x65, 0x72]
/-- `"rd/"` -/
def rdSlash : List UInt8 := [0x72, 0x64, 0x2F]
/-- `"iagent/"` -/
def iagentSlash : List UInt8 := [0x69, 0x61, 0x67, 0x65, 0x6E, 0x74, 0x2F]
/-- What `%s` prints of `NULL`. -/
def nullText : List UInt8 := [0x28, 0x6E, 0x75, 0x6C, 0x6C, 0x29]

/-! ## Generic device urls -/

/-- What `check_url_generic_dev` leaves: the buffer, the packet, and whether the uri path of
the packet now lies in the buffer. -/
structure GenericDev where
  urlBuffer : CString
  message : Packet
  inBuffer : Bool

/-- The end of `check_url_generic_dev`: the rest of the url is appended when it fits. -/
def appendRest (bufferLen : Nat) (message : Packet) (front rest : List UInt8) : GenericDev :=
  if bufferLen < front.length + rest.length then ⟨.ofBytes front, message, false⟩
  else ⟨.ofBytes (front ++ rest), coapSetHeaderUriPath (.ofBytes (front ++ rest)) message, true⟩

/-- `check_url_generic_dev` behind its assertion. -/
def genericDev (directory : Directory) (bufferLen : Nat) (message : Packet)
    (urlBuffer : CString) : GenericDev :=
  let unchanged : GenericDev := ⟨urlBuffer, message, false⟩
  if urlBuffer.bytes.length ≥ 511 then unchanged
  else
    let deviceId := ((urlBuffer.bytes.drop 4).takeWhile (· ≠ Url.slash)).take 99
    if deviceId.length = 99 then unchanged
    else
      match directory.findClient (.ofBytes deviceId) with
      | none => unchanged
      | some client =>
        if client.aliasName ≠ .empty then
          appendRest bufferLen message
            (client.standard.bytes ++ [Url.slash] ++ client.aliasName.bytes)
            (urlBuffer.bytes.drop (4 + deviceId.length))
        else appendRest bufferLen message client.standard.bytes (urlBuffer.bytes.drop 3)

/-- `check_url_generic_dev` -/
def checkUrlGenericDev (directory : Directory) (bufferLen : Nat) (message : Packet)
    (urlBuffer : CString) : Except Assertion GenericDev :=
  if devSlash <+: urlBuffer.bytes then .ok (genericDev directory bufferLen message urlBuffer)
  else .error .genericDevUrl

/-! ## Messages from the cloud -/

/-- A url in memory: the bytes from its start on, and its length. -/
structure UrlView where
  memory : List UInt8
  len : Nat

/-- The bytes of the url. -/
def UrlView.bytes (url : UrlView) : List UInt8 := url.memory.take url.len

/-- `sizeof(url_str)` -/
def urlSize : Nat := 256

/-- A url copied to the zeroed buffer. -/
def UrlView.copy (url : List UInt8) : UrlView :=
  ⟨url ++ List.replicate (urlSize - url.length) 0, url.length⟩

/-- The uri path of a packet that `coap_set_header_uri_path` pointed at a string in memory. -/
def UrlView.pointedAt (memory : List UInt8) : UrlView :=
  let rest := memory.dropWhile (· = Url.slash)
  ⟨rest, (CString.ofBytes rest).bytes.length⟩

/-- A buffer after a string was written to it. -/
def overwrite (string : CString) (memory : List UInt8) : List UInt8 :=
  string.terminated ++ memory.drop (string.bytes.length + 1)

/-- `iagent_id`, the prefix that names this agent, in a buffer of 64 bytes. -/
def iagentPrefix (selfAgentId : Option CString) : List UInt8 :=
  (iagentSlash ++ (selfAgentId.map CString.bytes).getD nullText).take 63

/-- A message from the cloud, with what `get_key_value` finds in its vheader and what
`coap_parse_message_tcp` makes of its payload. -/
structure CloudMessage where
  ilinkMsg : IlinkMessage
  agent : Option CString
  ep : Option CString
  parsed : Option Packet

/-- Where a message from the cloud goes. -/
inductive CloudRoute where
  /-- Nothing is done; the value returned. -/
  | dropped (result : Int)
  /-- `send_to_sub_agent` -/
  | subAgent (agent : CString)
  /-- `handle_type_iagent` -/
  | iagent
  /-- `bh_feed_response` of the outgoing requests. -/
  | response (id : UInt32) (message : Packet)
  /-- `handle_cloud_coap_refresher_request` -/
  | refresher (message : Packet)
  /-- `send_ilink_request_to_ep` -/
  | endpoint (name : CString) (message : Packet)
  /-- `serve_request_from_tcp`, and the bus where that does not serve it. -/
  | service (message : Packet)

/-- The prefix of this agent is taken off the url. -/
def stripAgent (selfAgentId : Option CString) (message : Packet) (url : UrlView) :
    Packet × UrlView :=
  let front := iagentPrefix selfAgentId
  if front <+: url.memory then
    let rest := url.memory.drop front.length
    (coapSetHeaderUriPath (.ofBytes rest) message, .pointedAt rest)
  else (message, url)

/-- The generic device of a url is looked up; `urlStr` is the buffer the url was copied to. -/
def replaceDev (directory : Directory) (urlStr : UrlView) (message : Packet) (url : UrlView) :
    Except Assertion (Packet × UrlView) :=
  if Url.checkUrlStart url.bytes devSlash ≠ 0 then
    (checkUrlGenericDev directory urlSize message (.ofBytes urlStr.memory)).map fun result =>
      (result.message,
        if result.inBuffer then .pointedAt (overwrite result.urlBuffer urlStr.memory)
        else ⟨coapGetHeaderUriPath result.message, (coapGetHeaderUriPath result.message).length⟩)
  else .ok (message, url)

/-- `handle_type_coap` from the first look at the url for a service on. -/
def routeUrl (ep : Option CString) (message : Packet) (url : UrlView) :
    Except Assertion CloudRoute :=
  if Url.checkUrlStart url.bytes refresherUrl ≠ 0 then .ok (.refresher message)
  else if Url.checkUrlStart url.bytes epSlash ≠ 0 then
    let name := (CString.ofBytes (url.memory.drop 3)).bytes
    if Url.slash ∈ name then
      let id := name.takeWhile (· ≠ Url.slash)
      .ok (.endpoint (.ofBytes id)
        (coapSetHeaderUriPath (.ofBytes (name.drop (id.length + 1))) message))
    else .ok (.dropped (-1))
  else
    match ep with
    | some name =>
      if epSlash <+: url.memory then .error .noEndpointUrl else .ok (.endpoint name message)
    | none =>
      if Url.checkUrlStart url.bytes rdSlash ≠ 0 then .ok (.dropped 0) else .ok (.service message)

/-- `handle_type_coap` of a packet that is no response, from the assertion of its code on. -/
def routeRequest (link : CloudLink) (directory : Directory) (ep : Option CString)
    (message : Packet) : Except Assertion CloudRoute :=
  if isRequest message = false then .error .requestCode
  else if message.isOption .uriPath = false ∨
    (coapGetHeaderUriPath message).length + 1 ≥ urlSize then
    .ok (.dropped (-2))
  else
    let urlStr := UrlView.copy (coapGetHeaderUriPath message)
    let (message, url) := stripAgent link.selfAgentId message urlStr
    (replaceDev directory urlStr message url).bind fun (message, url) => routeUrl ep message url

/-- `handle_type_coap` -/
def handleTypeCoap (link : CloudLink) (directory : Directory) (message : CloudMessage) :
    Except Assertion CloudRoute :=
  match message.parsed with
  | none => .ok (.dropped 0)
  | some coapMessage =>
    if message.ilinkMsg.leadingByte = fixedcharRespinse then
      .ok (.response message.ilinkMsg.msgID coapMessage)
    else if message.ilinkMsg.leadingByte = fixedcharNoMsgid ∧ isRequest coapMessage = false then
      if coapMessage.token.bytes.length ≠ 4 then .ok (.dropped 0)
      else .ok (.response (UInt32.ofNat (beNat coapMessage.token.bytes.reverse)) coapMessage)
    else routeRequest link directory message.ep coapMessage

/-- `COAP_OVER_TCP` -/
def coapOverTcp : UInt8 := 0
/-- `INTEL_IAGENT` -/
def intelIagent : UInt8 := 4
/-- `COMMENT_SETTING`, the last type. -/
def commentSetting : UInt8 := 6

/-- `handle_ilink_message` -/
def handleIlinkMessage (link : CloudLink) (directory : Directory) (message : CloudMessage) :
    Except Assertion CloudRoute :=
  if message.ilinkMsg.msgType ≠ intelIagent ∧ link.handshakeDone = false then .ok (.dropped (-1))
  else if message.ilinkMsg.vheader = none then .ok (.dropped (-1))
  else
    match message.agent.filter fun agent => !link.isMyAgentId agent with
    | some agent => .ok (.subAgent agent)
    | none =>
      if message.ilinkMsg.msgType = coapOverTcp then handleTypeCoap link directory message
      else if message.ilinkMsg.msgType = intelIagent then .ok .iagent
      else if message.ilinkMsg.msgType ≤ commentSetting then .ok (.dropped 0)
      else .ok (.dropped (-1))

/-! ## Requests on the UDP port -/

/-- What `forward_coap_request_to_bus` does with a request. -/
inductive BusRoute where
  /-- The status it returns at once. -/
  | refused (status : UInt8)
  /-- The request is published, after its device or resource was replaced by an alias or a
  separate url. -/
  | publish (message : Packet)

/-- `forward_coap_request_to_bus`; `url_len` is that of the request also where the url was
replaced. -/
def forwardCoapRequestToBus (directory : Directory) (message : Packet) :
    Except Assertion BusRoute :=
  if isRequest message = false then .error .requestCode
  else if message.isOption .uriPath = false ∨
    (coapGetHeaderUriPath message).length + 1 ≥ urlSize then
    .ok (.refused badRequest400)
  else
    let url := UrlView.copy (coapGetHeaderUriPath message)
    let replaced := if Url.checkUrlStart url.bytes devSlash ≠ 0 then
        (checkUrlGenericDev directory urlSize message (.ofBytes url.memory)).map fun result =>
          (result.message, { url with memory := overwrite result.urlBuffer url.memory })
      else .ok (message, url)
    replaced.bind fun (message, url) =>
      if Url.checkUrlStart url.bytes [0x65, 0x70] ≠ 0 then .ok (.refused badRequest400)
      else .ok (.publish message)

/-! ## Which assertions hold -/

/-- No assertion fails. -/
def Passes {α : Type} (result : Except Assertion α) : Prop := ∃ value, result = .ok value

/-- A value passes. -/
theorem passes_ok {α : Type} (value : α) : Passes (.ok value) := ⟨value, rfl⟩

/-- A failed assertion does not. -/
theorem not_passes_error {α : Type} (assertion : Assertion) :
    ¬ Passes (.error assertion : Except Assertion α) := by
  rintro ⟨value, failed⟩
  cases failed

/-- Changing the value changes nothing about it. -/
@[simp] theorem passes_map_iff {α β : Type} {result : Except Assertion α} {change : α → β} :
    Passes (result.map change) ↔ Passes result := by
  cases result with
  | ok value => exact ⟨fun _ => passes_ok _, fun _ => passes_ok _⟩
  | error assertion =>
    exact ⟨fun passes => absurd passes (not_passes_error _),
      fun passes => absurd passes (not_passes_error _)⟩

/-- What follows only counts where what comes before passes. -/
theorem passes_bind_iff {α β : Type} {result : Except Assertion α} {next : α → Except Assertion β}
    (follows : ∀ value, result = .ok value → Passes (next value)) : Passes (result.bind next) ↔
    Passes result := by
  cases result with
  | ok value => exact ⟨fun _ => passes_ok _, fun _ => follows value rfl⟩
  | error assertion =>
    exact ⟨fun passes => absurd passes (not_passes_error _),
      fun passes => absurd passes (not_passes_error _)⟩

/-- What `check_url_start` takes to be under `dev`. -/
def UnderDev (path : List UInt8) : Prop :=
  Url.skipSlash path = [0x64, 0x65, 0x76] ∨ devSlash <+: Url.skipSlash path

/-- The path behind the prefix of this agent, as `coap_set_header_uri_path` sees it. -/
def strippedPath (selfAgentId : Option CString) (path : List UInt8) : List UInt8 :=
  if iagentPrefix selfAgentId <+: path then
    (CString.ofBytes (path.drop (iagentPrefix selfAgentId).length)).bytes.dropWhile (· = Url.slash)
  else path

/-- The uri path of a packet is one the routing takes up. -/
def HasUrl (message : Packet) : Prop :=
  message.isOption .uriPath = true ∧ (coapGetHeaderUriPath message).length + 1 < urlSize

/-- A request whose url, once something was taken off it, is under `dev` only where it starts
with `dev/` as it came. -/
def DevAsItCame (strip : List UInt8 → List UInt8) (message : Packet) : Prop :=
  HasUrl message → UnderDev (strip (coapGetHeaderUriPath message)) →
    devSlash <+: coapGetHeaderUriPath message

/-- A message the agent handles as CoAP. -/
def Accepted (link : CloudLink) (message : CloudMessage) : Prop :=
  link.handshakeDone = true ∧ message.ilinkMsg.vheader ≠ none ∧
    message.ilinkMsg.msgType = coapOverTcp ∧ ∀ agent ∈ message.agent, link.isMyAgentId agent = true

/-- A packet from the cloud that is a response by its leading byte, or a request that can be
routed. -/
def Routable (link : CloudLink) (leadingByte : UInt8) (message : Packet) : Prop :=
  leadingByte = fixedcharRespinse ∨ (if isRequest message then
    DevAsItCame (strippedPath link.selfAgentId) message else leadingByte = fixedcharNoMsgid)

variable {message : Packet}

/-- A message has no url without the option, or with a path too long for the buffer. -/
theorem not_hasUrl_iff :
    ¬ HasUrl message ↔
      message.isOption .uriPath = false ∨ (coapGetHeaderUriPath message).length + 1 ≥ urlSize := by
  rw [HasUrl, Decidable.not_and_iff_or_not, Bool.not_eq_true, Nat.not_lt]

variable {path : List UInt8}

/-- `check_url_start` tells the paths under `/dev/`. -/
theorem underDev_iff : Url.checkUrlStart path devSlash ≠ 0 ↔ UnderDev path :=
  Url.checkUrlStart_pos_iff (by decide)

/-- A string without NUL starts a C string exactly where it starts its buffer. -/
theorem prefix_ofBytes_iff {front buffer : List UInt8} (nulFree : (0 : UInt8) ∉ front) :
    front <+: (CString.ofBytes buffer).bytes ↔ front <+: buffer := by
  constructor
  · intro starts
    exact starts.trans (List.takeWhile_prefix _)
  · rintro ⟨rest, rfl⟩
    have kept : front.takeWhile (· ≠ 0) = front :=
      congrArg CString.bytes (CString.ofBytes_nulFree nulFree)
    refine ⟨rest.takeWhile (· ≠ 0), ?_⟩
    show front ++ rest.takeWhile (· ≠ 0) = (front ++ rest).takeWhile (· ≠ 0)
    rw [takeWhile_append, kept, if_pos rfl]

/-- A string ends where it was copied to a zeroed buffer as it ended before. -/
theorem ofBytes_append_zeros (url : List UInt8) (count : Nat) :
    CString.ofBytes (url ++ List.replicate count 0) = CString.ofBytes url := by
  refine CString.ofBytes_append fun _ => ?_
  cases count with
  | zero => rfl
  | succ count => rfl

/-- A string without NUL starts a zeroed buffer exactly where it starts what was copied there. -/
theorem prefix_copy_iff {front url : List UInt8} (nulFree : (0 : UInt8) ∉ front) :
    front <+: (UrlView.copy url).memory ↔ front <+: url := by
  rw [← prefix_ofBytes_iff nulFree, UrlView.copy, ofBytes_append_zeros, prefix_ofBytes_iff nulFree]

/-- The prefix is a C string. -/
theorem iagentPrefix_nulFree (selfAgentId : Option CString) :
    (0 : UInt8) ∉ iagentPrefix selfAgentId := by
  intro member
  have inside := mem_of_mem_take member
  rcases mem_append.mp inside with fixed | named
  · revert fixed
    decide
  · cases selfAgentId with
    | none =>
      revert named
      decide
    | some self => exact self.nulFree named

/-- Slashes in front of a string can be dropped before or after its end is found. -/
theorem dropWhile_ofBytes (buffer : List UInt8) :
    (CString.ofBytes buffer).bytes.dropWhile (· = Url.slash) =
      (CString.ofBytes (buffer.dropWhile (· = Url.slash))).bytes := by
  show (buffer.takeWhile (· ≠ 0)).dropWhile (· = Url.slash) =
    (buffer.dropWhile (· = Url.slash)).takeWhile (· ≠ 0)
  induction buffer with
  | nil => rfl
  | cons byte rest ih =>
    by_cases isSlash : byte = Url.slash
    · subst isSlash
      simpa [Url.slash] using ih
    · have kept : (byte :: rest).dropWhile (· = Url.slash) = byte :: rest :=
        dropWhile_cons_of_neg (by simpa)
      rw [kept]
      by_cases isNul : byte = 0
      · subst isNul
        rfl
      · simp [isSlash, isNul]

/-! ## Urls with what follows them -/

/-- A url ends at a NUL or with the memory. -/
def UrlView.Closed (url : UrlView) : Prop :=
  url.memory[url.len]? = some 0 ∨ url.memory.length ≤ url.len

variable {url : UrlView}

/-- What starts the memory of a url starts the url. -/
theorem UrlView.Closed.prefix_bytes (closed : url.Closed) {front : List UInt8}
    (nulFree : (0 : UInt8) ∉ front) (starts : front <+: url.memory) : front <+: url.bytes := by
  obtain ⟨rest, memory⟩ := starts
  rcases Nat.lt_or_ge url.len front.length with past | within
  · exfalso
    rcases closed with nul | ended
    · rw [← memory, List.getElem?_append_left past] at nul
      exact nulFree (mem_of_getElem? nul)
    · rw [← memory, length_append] at ended
      omega
  · refine ⟨rest.take (url.len - front.length), ?_⟩
    rw [UrlView.bytes, ← memory, take_append, take_of_length_le within]

/-- A copy is terminated. -/
theorem UrlView.copy_closed (url : List UInt8) : (UrlView.copy url).Closed := by
  rcases Nat.lt_or_ge url.length urlSize with short | long
  · left
    show (url ++ List.replicate (urlSize - url.length) 0)[url.length]? = some 0
    rw [List.getElem?_append_right (Nat.le_refl _), List.getElem?_replicate, if_pos (by omega)]
  · right
    show (url ++ List.replicate (urlSize - url.length) 0).length ≤ url.length
    rw [length_append, length_replicate]
    omega

/-- It holds the bytes copied. -/
@[simp] theorem UrlView.copy_bytes (url : List UInt8) :
    (UrlView.copy url).bytes = url := take_left ..

/-- Behind a string is its NUL. -/
theorem getElem?_ofBytes_length (buffer : List UInt8) :
    buffer[(CString.ofBytes buffer).bytes.length]? = some 0 ∨
      buffer.length ≤ (CString.ofBytes buffer).bytes.length := by
  show buffer[(buffer.takeWhile (· ≠ 0)).length]? = some 0 ∨
    buffer.length ≤ (buffer.takeWhile (· ≠ 0)).length
  induction buffer with
  | nil => exact .inr (Nat.le_refl _)
  | cons byte rest ih =>
    by_cases isNul : byte = 0
    · subst isNul
      exact .inl rfl
    · simpa [isNul] using ih

/-- The memory behind a pointer is terminated. -/
theorem UrlView.pointedAt_closed (memory : List UInt8) : (UrlView.pointedAt memory).Closed :=
  getElem?_ofBytes_length _

/-- Leading slashes are passed over. -/
theorem UrlView.pointedAt_bytes (memory : List UInt8) : (UrlView.pointedAt memory).bytes =
      (CString.ofBytes memory).bytes.dropWhile (· = Url.slash) := by
  rw [dropWhile_ofBytes]
  exact (prefix_iff_eq_take.mp (List.takeWhile_prefix _)).symm

/-! ## The steps of routing -/

/-- Taking the prefix off leaves the url terminated. -/
theorem stripAgent_closed {selfAgentId : Option CString}
    (closed : url.Closed) : (stripAgent selfAgentId message url).2.Closed := by
  unfold stripAgent
  dsimp only
  split
  · exact UrlView.pointedAt_closed _
  · exact closed

/-- What is left is the path behind the prefix. -/
theorem stripAgent_bytes (selfAgentId : Option CString) (message : Packet) (path : List UInt8) :
    (stripAgent selfAgentId message (.copy path)).2.bytes = strippedPath selfAgentId path := by
  have starts : iagentPrefix selfAgentId <+: (UrlView.copy path).memory ↔
      iagentPrefix selfAgentId <+: path :=
    prefix_copy_iff (iagentPrefix_nulFree selfAgentId)
  unfold stripAgent strippedPath
  dsimp only
  split
  · rename_i named
    have named := starts.mp named
    have fits : (iagentPrefix selfAgentId).length ≤ path.length := named.length_le
    rw [if_pos named, UrlView.pointedAt_bytes]
    show (CString.ofBytes ((path ++ _).drop _)).bytes.dropWhile _ = _
    rw [drop_append_of_le_length fits, ofBytes_append_zeros]
  · rename_i other
    rw [if_neg (mt starts.mpr other), UrlView.copy_bytes]

variable {directory : Directory}

/-- The assertion of `check_url_generic_dev` is about the url as it was copied. -/
theorem checkUrlGenericDev_passes_iff {bufferLen : Nat} :
    Passes (checkUrlGenericDev directory bufferLen message (.ofBytes (UrlView.copy path).memory)) ↔
      devSlash <+: path := by
  have starts : devSlash <+: (CString.ofBytes (UrlView.copy path).memory).bytes ↔
      devSlash <+: path := by
    rw [prefix_ofBytes_iff (by decide), prefix_copy_iff (by decide)]
  unfold checkUrlGenericDev
  split
  · rename_i under
    exact ⟨fun _ => starts.mp under, fun _ => passes_ok _⟩
  · rename_i other
    exact ⟨fun passes => absurd passes (not_passes_error _),
      fun under => absurd (starts.mpr under) other⟩

/-- The assertion holds where the original path starts as the url does. -/
theorem replaceDev_passes_iff : Passes (replaceDev directory (.copy path) message url) ↔
    (UnderDev url.bytes → devSlash <+: path) := by
  unfold replaceDev
  split
  · rename_i under
    rw [passes_map_iff, checkUrlGenericDev_passes_iff]
    exact ⟨fun starts _ => starts, fun starts => starts (underDev_iff.mp under)⟩
  · rename_i other
    exact ⟨fun _ under => absurd (underDev_iff.mpr under) other, fun _ => passes_ok _⟩

/-- The url stays terminated. -/
theorem replaceDev_closed {urlStr url : UrlView}
    {result : Packet × UrlView} (closed : url.Closed)
    (replaced : replaceDev directory urlStr message url = .ok result) : result.2.Closed := by
  unfold replaceDev at replaced
  split at replaced
  · cases looked : checkUrlGenericDev directory urlSize message (.ofBytes urlStr.memory) with
    | error assertion =>
      rw [looked] at replaced
      cases replaced
    | ok found =>
      rw [looked] at replaced
      cases replaced
      dsimp only
      split
      · exact UrlView.pointedAt_closed _
      · exact .inr (Nat.le_refl _)
  · cases replaced
    exact closed

/-- A url that `check_url_start` does not find under `ep` does not start with `ep/`. -/
theorem routeUrl_passes {ep : Option CString} (closed : url.Closed) :
    Passes (routeUrl ep message url) := by
  unfold routeUrl
  split
  · exact passes_ok _
  split
  · dsimp only
    split <;> exact passes_ok _
  rename_i outside
  cases ep with
  | none =>
    dsimp only
    split <;> exact passes_ok _
  | some name =>
    have other : ¬ epSlash <+: url.memory := by
      intro starts
      refine outside ((Url.checkUrlStart_pos_iff (by decide)).mpr (.inr ?_))
      obtain ⟨rest, bytes⟩ := closed.prefix_bytes (by decide) starts
      exact ⟨rest, by rw [← bytes]; rfl⟩
    dsimp only
    rw [if_neg other]
    exact passes_ok _

variable {link : CloudLink}

/-- The assertions hold of a request from the cloud unless it only comes to lie under `dev`. -/
theorem routeRequest_passes_iff {ep : Option CString} :
    Passes (routeRequest link directory ep message) ↔
      isRequest message = true ∧ DevAsItCame (strippedPath link.selfAgentId) message := by
  unfold routeRequest
  split
  · rename_i other
    rw [other]
    exact ⟨fun passes => absurd passes (not_passes_error _),
      fun ⟨request, _⟩ => Bool.noConfusion request⟩
  rename_i request
  have request : isRequest message = true := Bool.not_eq_false _ ▸ request
  split
  · rename_i illegal
    exact ⟨fun _ => ⟨request, fun hasUrl => absurd hasUrl (not_hasUrl_iff.mpr illegal)⟩,
      fun _ => passes_ok _⟩
  · rename_i legal
    have hasUrl : HasUrl message := not_not.mp (mt not_hasUrl_iff.mp legal)
    rw [passes_bind_iff, replaceDev_passes_iff, stripAgent_bytes]
    · exact ⟨fun asItCame => ⟨request, fun _ => asItCame⟩, fun holds => holds.2 hasUrl⟩
    · intro result replaced
      exact routeUrl_passes (replaceDev_closed (stripAgent_closed (UrlView.copy_closed _)) replaced)

/-- The assertions hold of a CoAP message from the cloud exactly where it can be routed. -/
theorem handleTypeCoap_passes_iff {message : CloudMessage} :
    Passes (handleTypeCoap link directory message) ↔
      ∀ coapMessage ∈ message.parsed, Routable link message.ilinkMsg.leadingByte coapMessage := by
  unfold handleTypeCoap
  cases message.parsed with
  | none => exact ⟨fun _ => nofun, fun _ => passes_ok _⟩
  | some coapMessage =>
    simp only [Option.mem_def, Option.some.injEq, forall_eq']
    unfold Routable
    split
    · rename_i answered
      exact ⟨fun _ => .inl answered, fun _ => passes_ok _⟩
    rename_i unanswered
    split
    · rename_i response
      obtain ⟨idless, noRequest⟩ := response
      rw [noRequest]
      refine ⟨fun _ => .inr idless, fun _ => ?_⟩
      split <;> exact passes_ok _
    rename_i noResponse
    rw [routeRequest_passes_iff]
    cases request : isRequest coapMessage with
    | false =>
      constructor
      · rintro ⟨isRequest, _⟩
        cases isRequest
      · rintro (answered | idless)
        · exact absurd answered unanswered
        · exact absurd ⟨idless, request⟩ noResponse
    | true =>
      refine ⟨fun holds => .inr holds.2, ?_⟩
      rintro (answered | asItCame)
      · exact absurd answered unanswered
      · exact ⟨rfl, asItCame⟩

/-- Only messages the agent handles as CoAP meet an assertion. -/
theorem handleIlinkMessage_passes_iff {message : CloudMessage} :
    Passes (handleIlinkMessage link directory message) ↔
      (Accepted link message → ∀ coapMessage ∈ message.parsed,
        Routable link message.ilinkMsg.leadingByte coapMessage) := by
  unfold handleIlinkMessage
  split
  · rename_i early
    refine ⟨fun _ accepted => ?_, fun _ => passes_ok _⟩
    rw [accepted.1] at early
    cases early.2
  rename_i shaken
  split
  · rename_i bare
    exact ⟨fun _ accepted => absurd bare accepted.2.1, fun _ => passes_ok _⟩
  rename_i vheader
  split
  · rename_i agent foreign
    obtain ⟨named, notMine⟩ := Option.filter_eq_some_iff.mp foreign
    refine ⟨fun _ accepted => ?_, fun _ => passes_ok _⟩
    rw [accepted.2.2.2 agent named] at notMine
    cases notMine
  rename_i mine
  split
  · rename_i coap
    rw [handleTypeCoap_passes_iff]
    refine ⟨fun routable _ => routable, fun routable => routable ⟨?_, vheader, coap, ?_⟩⟩
    · by_contra undone
      refine shaken ⟨?_, Bool.not_eq_true _ ▸ undone⟩
      rw [coap]
      decide
    · intro agent named
      have kept := Option.filter_eq_none_iff.mp mine agent named
      simpa using kept
  rename_i other
  refine ⟨fun _ accepted => absurd accepted.2.2.1 other, fun _ => ?_⟩
  split
  · exact passes_ok _
  split <;> exact passes_ok _

/-- The assertions hold of a request on the UDP port unless its url is under `dev` for
`check_url_start` alone. -/
theorem forwardCoapRequestToBus_passes_iff : Passes (forwardCoapRequestToBus directory message) ↔
    isRequest message = true ∧ DevAsItCame id message := by
  unfold forwardCoapRequestToBus
  split
  · rename_i other
    rw [other]
    exact ⟨fun passes => absurd passes (not_passes_error _),
      fun ⟨request, _⟩ => Bool.noConfusion request⟩
  rename_i request
  have request : isRequest message = true := Bool.not_eq_false _ ▸ request
  split
  · rename_i illegal
    exact ⟨fun _ => ⟨request, fun hasUrl => absurd hasUrl (not_hasUrl_iff.mpr illegal)⟩,
      fun _ => passes_ok _⟩
  rename_i legal
  have hasUrl : HasUrl message := not_not.mp (mt not_hasUrl_iff.mp legal)
  dsimp only
  rw [passes_bind_iff, UrlView.copy_bytes]
  · split
    · rename_i under
      rw [passes_map_iff, checkUrlGenericDev_passes_iff]
      exact ⟨fun starts => ⟨request, fun _ _ => starts⟩,
        fun holds => holds.2 hasUrl (underDev_iff.mp under)⟩
    · rename_i other
      exact ⟨fun _ => ⟨request, fun _ under => absurd (underDev_iff.mpr under) other⟩,
        fun _ => passes_ok _⟩
  · intro result _
    split <;> exact passes_ok _

/-- No assertion of routing fails exactly where the packets from the cloud can be routed and
the requests on the UDP port lie under `dev` only as they came. -/
theorem routing_passes_iff (link : CloudLink) (directory : Directory) :
    (∀ message : CloudMessage, Passes (handleIlinkMessage link directory message) ↔
      (Accepted link message → ∀ coapMessage ∈ message.parsed,
        Routable link message.ilinkMsg.leadingByte coapMessage)) ∧
    (∀ message : Packet, Passes (forwardCoapRequestToBus directory message) ↔
      isRequest message = true ∧ DevAsItCame id message) :=
  ⟨fun _ => handleIlinkMessage_passes_iff, fun _ => forwardCoapRequestToBus_passes_iff⟩

/-- A link behind its handshake, of the agent `"a"`. -/
def shakenLink : CloudLink :=
  { CloudLink.start (some (CString.ofBytes [0x61])) with
    cloudStatus := .readyForWork
    handshake := ⟨.success, 0, 0⟩ }

/-- A message with an empty vheader and a CoAP payload. -/
def coapFrame (leadingByte : UInt8) (payload : List UInt8) : CloudMessage where
  ilinkMsg := { IlinkMessage.zero with
    leadingByte := leadingByte
    vheader := some [0, 4, 0, 0]
    payload := some payload }
  agent := none
  ep := none
  parsed := match coapParseMessageTcp payload with
    | some (.ok parsed) => some (received parsed)
    | _ => none

/-- A response with the leading byte of a request, the url `iagent/a/dev/b` from the cloud and
the url `dev` on the UDP port each fail an assertion. -/
theorem routing_asserts : handleIlinkMessage shakenLink .start
      (coapFrame fixedcharRequest [0x00, content205]) = .error .requestCode ∧
    handleIlinkMessage shakenLink .start (coapFrame fixedcharNoMsgid [0xD0, 0x02, coapGet, 0xB6,
      0x69, 0x61, 0x67, 0x65, 0x6E, 0x74, 0x01, 0x61, 0x03, 0x64, 0x65, 0x76, 0x01, 0x62]) =
      .error .genericDevUrl ∧ forwardCoapRequestToBus .start
      (coapSetHeaderUriPath ⟨[0x64, 0x65, 0x76], by decide⟩ (coapInitMessage .con coapGet 1)) =
        .error .genericDevUrl := by
  refine ⟨rfl, ?_, rfl⟩
  rfl

end Idrm.Agent
