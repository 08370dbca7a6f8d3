import Idrm.Agent.EndpointForward
import Idrm.Agent.Routing
import Idrm.Bus.RestConvert
import Idrm.Devices.Calibration
import Mathlib.Algebra.Order.BigOperators.Group.List

/-!
# The url of a request on the bus

A request from
  the cloud and a request on the UDP port come to the bus by functions of their own. Both look up
the device of the url, and put its alias or the separate url of a property in the place of the url.
`forward_coap_request_to_bus` looks up a copy that ends with the path.
  `publish_cloud_request_to_gw_bus` looks up
the string that starts with the path in memory, wherever that ends.
-/

namespace Idrm.Agent

open Idrm.Lib Idrm.Coap Idrm.Bus Idrm.Devices Option List

/-! ## Separate urls -/

/-- `CPropertySeperateUrl` -/
structure PropertyUrls where
  default : Option CString
  forGet : Option CString
  forPut : Option CString
  forPost : Option CString

/-- `GetUrl` -/
def PropertyUrls.getUrl (action : UInt8) (urls : PropertyUrls) : Option CString :=
  if action = coapGet ∧ urls.forGet.isSome then urls.forGet
  else if action = coapPut ∧ urls.forPut.isSome then urls.forPut
  else if action = coapPost ∧ urls.forPost.isSome then urls.forPost
  else urls.default

/-- `m_has_separate_url` of the devices, and `m_map_property_url` of their resources. -/
structure SeparateUrls where
  hasSeparateUrl : Client → Bool
  mapPropertyUrl : Client → ResObject → List (CString × PropertyUrls)

/-- A url is cut at its question mark. -/
def cutParams (url : CString) : CString × Option CString :=
  if 0x3F ∈ url.bytes then
    let path := url.bytes.takeWhile (· ≠ 0x3F)
    (.ofBytes path, some (url.drop (path.length + 1)))
  else (url, none)

/-- What `check_seperate_url` finds at a device. -/
def SeparateUrls.find (separate : SeparateUrls) (client : Client) (url : CString) (action : UInt8) :
    Option (CString × Option CString) :=
  if separate.hasSeparateUrl client then
    (client.urlMatchResource url).bind fun (resource, property) =>
      ((separate.mapPropertyUrl client resource).lookup (property.getD .empty)).bind fun urls =>
        (urls.getUrl action).map cutParams
  else none

/-- `check_seperate_url` -/
def checkSeperateUrl (directory : Directory) (separate : SeparateUrls) (deviceId url : CString)
    (action : UInt8) : Option (CString × Option CString) :=
  (directory.findClient deviceId).bind fun client => separate.find client url action

/-! ## Replacing a url -/

/-- `get_alias_url_from_di`, with a buffer of 256 bytes. -/
def getAliasUrlFromDi (directory : Directory) (di : CString) : Option CString :=
  (directory.findClient di).bind fun client =>
    if client.aliasName ≠ .empty then
      some (.snprintf urlSize (client.standard ++ SendRequest.slashString ++ client.aliasName))
    else none

/-- The packet once its url, `text` as it is looked up, was replaced. Nothing is left where `strcat`
writes past the end of `new_url`. -/
def replaceUrl (directory : Directory) (separate : SeparateUrls) (text : CString)
    (message : Packet) : Option Packet :=
  match SendRequest.parseIUrlBody text with
  | none => some message
  | some url =>
    match getAliasUrlFromDi directory url.device with
    | some newUrl =>
      if newUrl.bytes.length + url.resUri.bytes.length < urlSize then
        some (coapSetHeaderUriPath (newUrl ++ url.resUri) message)
      else none
    | none =>
      some (setSeparateUrl (checkSeperateUrl directory separate url.device url.resUri message.code)
        message)

/-- What comes of a request for the bus. -/
inductive BusOutcome where
  /-- Nothing is published. -/
  | dropped
  /-- The status that is returned instead. -/
  | refused (status : UInt8)
  /-- A write past the end of a buffer. -/
  | overflows
  | published (message : BusMessage)

/-- The common end of both functions. -/
def publishOnBus (moduleId : CString) (brokerMsgId : UInt64)
    (replaced : Option Packet) : BusOutcome :=
  match replaced with
  | none => .overflows
  | some message => .published (coapToBusMsg moduleId message brokerMsgId none)

/-- The url of what is published. -/
def BusOutcome.uri : BusOutcome → Option CString
  | .published message => message.properties .uri
  | _ => none

/-- A packet, and the bytes that lie behind its uri path in memory. -/
structure BusRequest where
  message : Packet
  behind : List UInt8

namespace BusRequest

/-- The bytes of the uri path. -/
def path (request : BusRequest) : List UInt8 := coapGetHeaderUriPath request.message

/-- The url as `coap_get_header_uri_path` gives it. -/
def url (request : BusRequest) : UrlView := ⟨request.path ++ request.behind, request.path.length⟩

/-- A NUL lies in the path, or right behind it. -/
def Terminated (request : BusRequest) : Prop :=
  (0 : UInt8) ∈ request.path ∨ request.behind.head? = some 0

end BusRequest

section BusUrls

variable (directory : Directory) (separate : SeparateUrls) (moduleId : CString)

/-- `publish_cloud_request_to_gw_bus` -/
def publishCloudRequestToGwBus (brokerMsgId : UInt64) (request : BusRequest) : BusOutcome :=
  if request.message.isOption .uriPath = false then .dropped
  else publishOnBus moduleId brokerMsgId
    (replaceUrl directory separate (.ofBytes request.url.memory) request.message)

/-- `forward_coap_request_to_bus` up to the lookup of the url: the packet and the string that is
looked up, or the status that it returns. -/
def lookUpUrl (message : Packet) (url : UrlView) : Except Assertion (Packet × CString ⊕ UInt8) :=
  if isRequest message = false then .error .requestCode
  else if message.isOption .uriPath = false ∨ url.len + 1 ≥ urlSize then .ok (.inr badRequest400)
  else
    let url := UrlView.copy url.bytes
    let replaced := if Url.checkUrlStart url.bytes devSlash ≠ 0 then
        (checkUrlGenericDev directory urlSize message (.ofBytes url.memory)).map fun result =>
          (result.message, { url with memory := overwrite result.urlBuffer url.memory })
      else .ok (message, url)
    replaced.map fun (message, url) =>
      if Url.checkUrlStart url.bytes [0x65, 0x70] ≠ 0 then .inr badRequest400
      else .inl (message, .ofBytes url.memory)

/-- `forward_coap_request_to_bus` with the lookup of the url. -/
def forwardRequestToBus (brokerMsgId : UInt64) (request : BusRequest) :
    Except Assertion BusOutcome :=
  (lookUpUrl directory request.message request.url).map fun lookedUp =>
    match lookedUp with
    | .inr status => .refused status
    | .inl (message, text) =>
      publishOnBus moduleId brokerMsgId (replaceUrl directory separate text message)

end BusUrls

/-- Up to the lookup of the url, `forward_coap_request_to_bus` goes by the bytes of the path. -/
theorem forwardCoapRequestToBus_eq (directory : Directory) (request : BusRequest) :
    forwardCoapRequestToBus directory request.message = (lookUpUrl directory request.message
      request.url).map (Sum.elim (fun found => .publish found.1) .refused) := by
  have isPath : request.url.bytes = coapGetHeaderUriPath request.message := take_left ..
  have isLen : request.url.len = (coapGetHeaderUriPath request.message).length := rfl
  unfold forwardCoapRequestToBus lookUpUrl
  rw [isPath, isLen]
  split
  · rfl
  split
  · rfl
  dsimp only
  generalize (if Url.checkUrlStart (UrlView.copy (coapGetHeaderUriPath request.message)).bytes
    devSlash ≠ 0 then _ else _ : Except Assertion (Packet × UrlView)) = replaced
  cases replaced with
  | error assertion => rfl
  | ok found =>
    simp only [Except.bind, Except.map]
    split
    · rfl
    · rfl

/-! ## The same path -/

/-- `check_url_generic_dev` makes a path of the one of a request, in the packet as in the buffer. -/
def DevReplaced (directory : Directory) (request : BusRequest) (path : List UInt8) : Prop :=
  ∃ result, checkUrlGenericDev directory urlSize request.message (.ofBytes request.path) =
    .ok result ∧ coapGetHeaderUriPath result.message = path ∧ result.urlBuffer = .ofBytes path

/-- A request from the cloud has the path of a request on the UDP port. Under `dev` it comes behind
`check_url_generic_dev`. -/
structure SamePath (directory : Directory) (request cloud : BusRequest) : Prop where
  given : cloud.message.isOption .uriPath = true
  code : cloud.message.code = request.message.code
  plain : ¬UnderDev request.path → cloud.path = request.path
  replaced : UnderDev request.path → DevReplaced directory request cloud.path

/-- The `uri` that a path is published as. -/
def busUri (path : List UInt8) : Option CString :=
  if 0 < path.length then some (.ofBytes (Url.slash :: path)) else none

section SamePath

variable {directory : Directory} {separate : SeparateUrls} {message other : Packet} {text : CString}

/-- The `uri` of a message on the bus goes by the path of the packet. -/
theorem coapToBusMsg_uri (moduleId : CString) (brokerMsgId : UInt64) :
    (coapToBusMsg moduleId message brokerMsgId none).properties .uri = busUri
      (coapGetHeaderUriPath message) := by
  by_cases given : brokerMsgId = -1
  · simp [coapToBusMsg, coapToBrokerMsgConfig, busUri, given, Url.slash]
  · simp [coapToBusMsg, coapToBrokerMsgConfig, busUri, given, Url.slash]

/-- What a packet is published with after the lookup depends on its path and its code alone. -/
theorem replaceUrl_path (samePath : coapGetHeaderUriPath message = coapGetHeaderUriPath other)
    (sameCode : message.code = other.code) :
    (replaceUrl directory separate text message).map coapGetHeaderUriPath =
      (replaceUrl directory separate text other).map coapGetHeaderUriPath := by
  unfold replaceUrl
  cases SendRequest.parseIUrlBody text with
  | none => exact congrArg some samePath
  | some url =>
    dsimp only
    cases getAliasUrlFromDi directory url.device with
    | some newUrl =>
      dsimp only
      split
      · simp only [map_some, coapGetHeaderUriPath_setPath]
      · rfl
    | none =>
      simp only [sameCode, map_some, Option.some.injEq]
      cases checkSeperateUrl directory separate url.device url.resUri other.code with
      | none => exact samePath
      | some found =>
        obtain ⟨newUrl, _ | params⟩ := found
        · simp only [setSeparateUrl, coapGetHeaderUriPath_setPath]
        · simp only [setSeparateUrl, coapGetHeaderUriPath_setPath, coapGetHeaderUriPath_setQuery]

/-- A path that ends as a string does is looked up as the copy is. -/
theorem BusRequest.Terminated.memory_eq {request : BusRequest} (terminated : request.Terminated) :
    CString.ofBytes request.url.memory = CString.ofBytes request.path := by
  refine CString.ofBytes_append fun noNul => ?_
  have ends := terminated.resolve_left noNul
  cases behind : request.behind with
  | nil =>
    rw [behind] at ends
    cases ends
  | cons byte rest =>
    rw [behind] at ends
    rw [some.inj ends]
    exact takeWhile_cons_of_neg (by simp)

theorem code_genericDev (directory : Directory)
    (bufferLen : Nat) (message : Packet) (urlBuffer : CString) :
    (genericDev directory bufferLen message urlBuffer).message.code = message.code := by
  unfold genericDev appendRest
  dsimp only
  repeat' split
  all_goals rfl

/-- Behind its tests `forward_coap_request_to_bus` looks up the path that both requests have. -/
theorem SamePath.lookedUp {request cloud : BusRequest} (same : SamePath directory request cloud)
    (lookedUp : lookUpUrl directory request.message request.url = .ok (.inl (message, text))) :
    coapGetHeaderUriPath message = cloud.path ∧ message.code = cloud.message.code ∧
    text = .ofBytes cloud.path := by
  have isPath : request.url.bytes = request.path := take_left ..
  unfold lookUpUrl at lookedUp
  split at lookedUp
  · cases lookedUp
  split at lookedUp
  · cases lookedUp
  rw [isPath] at lookedUp
  dsimp only at lookedUp
  rw [UrlView.copy_bytes] at lookedUp
  by_cases under : UnderDev request.path
  · obtain ⟨result, checked, inPacket, inBuffer⟩ := same.replaced under
    have copied : CString.ofBytes (UrlView.copy request.path).memory = .ofBytes request.path :=
      ofBytes_append_zeros ..
    rw [if_pos (underDev_iff.mpr under), copied, checked] at lookedUp
    simp only [Except.map, Except.ok.injEq] at lookedUp
    split at lookedUp
    · cases lookedUp
    obtain ⟨rfl, rfl⟩ := Prod.mk.inj (Sum.inl.inj lookedUp)
    refine ⟨inPacket, ?_, (CString.ofBytes_terminated _ _).trans inBuffer⟩
    unfold checkUrlGenericDev at checked
    split at checked
    · cases checked
      rw [code_genericDev, same.code]
    · cases checked
  · rw [if_neg (mt underDev_iff.mp under)] at lookedUp
    simp only [Except.map, Except.ok.injEq] at lookedUp
    split at lookedUp
    · cases lookedUp
    obtain ⟨rfl, rfl⟩ := Prod.mk.inj (Sum.inl.inj lookedUp)
    rw [same.plain under]
    exact ⟨rfl, same.code.symm, ofBytes_append_zeros ..⟩

end SamePath

/-- Whatever lies behind the path in memory, a request on the UDP port is published with the same
url; and so is a request from the cloud with the same path, if that ends as a string does. -/
theorem forwardRequestToBus_url (directory : Directory) (separate : SeparateUrls)
    (moduleId : CString) (brokerMsgId : UInt64) {request : BusRequest} {bus : BusMessage}
    (published : forwardRequestToBus directory separate moduleId brokerMsgId request =
      .ok (.published bus)) : (∀ behind, forwardRequestToBus directory separate moduleId brokerMsgId
      { request with behind := behind } = .ok (.published bus)) ∧
    ∀ (cloud : BusRequest) (cloudMsgId : UInt64), SamePath directory request cloud →
    cloud.Terminated → ∃ message,
    publishCloudRequestToGwBus directory separate moduleId cloudMsgId cloud = .published message ∧
    message.properties .uri = bus.properties .uri := by
  constructor
  · intro behind
    have sameBytes :
        ({ request with behind := behind } : BusRequest).url.bytes = request.url.bytes := by
      simp [UrlView.bytes, BusRequest.url, BusRequest.path]
    rw [← published]
    simp only [forwardRequestToBus, lookUpUrl, sameBytes]
    rfl
  · intro cloud cloudMsgId same terminated
    unfold forwardRequestToBus at published
    cases lookedUp : lookUpUrl directory request.message request.url with
    | error assertion =>
      rw [lookedUp] at published
      cases published
    | ok found =>
      rw [lookedUp] at published
      cases found with
      | inr status => cases published
      | inl found =>
        obtain ⟨message, text⟩ := found
        obtain ⟨samePath, sameCode, rfl⟩ := same.lookedUp lookedUp
        have samePaths :
            (replaceUrl directory separate (.ofBytes cloud.path) message).map coapGetHeaderUriPath =
            (replaceUrl directory separate (.ofBytes cloud.path) cloud.message).map
            coapGetHeaderUriPath :=
          replaceUrl_path samePath sameCode
        simp only [Except.map, Except.ok.injEq] at published
        unfold publishCloudRequestToGwBus
        rw [same.given, if_neg (by decide), terminated.memory_eq]
        cases forwarded : replaceUrl directory separate (.ofBytes cloud.path) message with
        | none =>
          rw [forwarded] at published
          cases published
        | some replaced =>
          rw [forwarded] at published samePaths
          obtain ⟨other, isOther, isPath⟩ := map_eq_some_iff.mp samePaths.symm
          refine ⟨_, by rw [isOther]; rfl, ?_⟩
          cases published
          rw [coapToBusMsg_uri, coapToBusMsg_uri, isPath]

/-- A directory with two devices of the standard `"modbus"`: `"d"` with the alias `"a"`, and
`"e"`. -/
def busDirectory : Directory :=
  let standard : CString := .ofBytes [0x6D, 0x6F, 0x64, 0x62, 0x75, 0x73]
  (Directory.start.addClient
    { Client.new 0 (.ofBytes [0x64]) with
      standard := standard
      aliasName := .ofBytes [0x61] }).addClient
    { Client.new 1 (.ofBytes [0x65]) with standard := standard }

/-- No property has a url of its own. -/
def noSeparateUrls : SeparateUrls := ⟨fun _ => false, fun _ _ => []⟩

/-- A request to read a path. -/
def getRequest (path behind : List UInt8) : BusRequest :=
  ⟨coapSetHeaderUriPath (.ofBytes path) (coapInitMessage .con coapGet 1), behind⟩

/-- `"modbus/d/x"` -/
def aliasedPath : List UInt8 := [0x6D, 0x6F, 0x64, 0x62, 0x75, 0x73, 0x2F, 0x64, 0x2F, 0x78]

/-- `"/modbus/a/x"` -/
def aliasUri : CString :=
  .ofBytes [0x2F, 0x6D, 0x6F, 0x64, 0x62, 0x75, 0x73, 0x2F, 0x61, 0x2F, 0x78]

theorem forwardRequestToBus_aliased : ∃ bus, forwardRequestToBus busDirectory noSeparateUrls .empty
      7 (getRequest aliasedPath []) = .ok (.published bus) ∧ bus.properties .uri = some aliasUri :=
  ⟨_, rfl, rfl⟩

/-- Followed by a NUL, `"modbus/d/x"` is published as `"/modbus/a/x"` from both sides. -/
theorem forwardRequestToBus_url_aliased : ∃ message, publishCloudRequestToGwBus
      busDirectory noSeparateUrls .empty 8 (getRequest aliasedPath [0]) = .published message ∧
    message.properties .uri = some aliasUri := by
  obtain ⟨bus, published, isUri⟩ := forwardRequestToBus_aliased
  have same : SamePath busDirectory (getRequest aliasedPath []) (getRequest aliasedPath [0]) :=
    ⟨rfl, rfl, fun _ => rfl, fun under => absurd (underDev_iff.mpr under) (by decide)⟩
  obtain ⟨message, isMessage, sameUri⟩ :=
    (forwardRequestToBus_url busDirectory noSeparateUrls .empty 7 published).2
      (getRequest aliasedPath [0]) 8 same (.inr rfl)
  exact ⟨message, isMessage, sameUri.trans isUri⟩

/-- `"dev/e/x"` comes to the bus as it is from the cloud and as `"modbus/e/x"` from the UDP port;
and `"modbus/d/x"` with `"y"` behind it comes there as `"modbus/a/xy"` from the cloud. -/
theorem publishCloudRequestToGwBus_sameUrl_fails : (publishCloudRequestToGwBus busDirectory
      noSeparateUrls .empty 7 (getRequest [0x64, 0x65, 0x76, 0x2F, 0x65, 0x2F, 0x78] [0])).uri =
      some (.ofBytes [0x2F, 0x64, 0x65, 0x76, 0x2F, 0x65, 0x2F, 0x78]) ∧
    (forwardRequestToBus busDirectory noSeparateUrls .empty 7
      (getRequest [0x64, 0x65, 0x76, 0x2F, 0x65, 0x2F, 0x78] [0])).map BusOutcome.uri =
      .ok (some (.ofBytes [0x2F, 0x6D, 0x6F, 0x64, 0x62, 0x75, 0x73, 0x2F, 0x65, 0x2F, 0x78])) ∧
      (publishCloudRequestToGwBus busDirectory noSeparateUrls .empty 7
        (getRequest aliasedPath [0x79, 0])).uri =
        some (.ofBytes [0x2F, 0x6D, 0x6F, 0x64, 0x62, 0x75, 0x73, 0x2F, 0x61, 0x2F, 0x78, 0x79]) ∧
      (forwardRequestToBus busDirectory noSeparateUrls .empty 7
        (getRequest aliasedPath [0x79, 0])).map BusOutcome.uri = .ok (some aliasUri) :=
  ⟨rfl, rfl, rfl, rfl⟩

/-! ## What lies behind the path -/

/-- No url that goes on from a path is replaced by another one than the path. -/
def Unreplaced (directory : Directory) (separate : SeparateUrls) (code : UInt8)
    (path : List UInt8) : Prop :=
  ∀ text : CString, path <+: text.bytes → ∀ url, SendRequest.parseIUrlBody text = some url →
    ∀ client, directory.findClient url.device = some client →
    client.aliasName = .empty ∧ ∀ found ∈ separate.find client url.resUri code,
    found.1.bytes.dropWhile (· = 0x2F) = path

section Behind

variable {directory : Directory} {separate : SeparateUrls} {text : CString} {url : SendRequest.IUrl}
  {client : Client}

theorem skipSlash_append {front : List UInt8} (more : List UInt8) (filled : front ≠ []) :
    Url.skipSlash (front ++ more) = Url.skipSlash front ++ more := by
  cases front with
  | nil => exact absurd rfl filled
  | cons byte rest =>
    unfold Url.skipSlash
    rw [cons_append, List.head?_cons, List.head?_cons]
    split
    · rfl
    · rfl

theorem takeWhile_slash_append {front behind : List UInt8} {byte : UInt8} (more : List UInt8)
    (stops : front.dropWhile (fun byte => decide (byte ≠ Url.slash)) = byte :: behind) :
    (front ++ more).takeWhile (fun byte => decide (byte ≠ Url.slash)) =
      front.takeWhile (fun byte => decide (byte ≠ Url.slash)) ∧ (front ++ more).dropWhile
      (fun byte => decide (byte ≠ Url.slash)) = byte :: (behind ++ more) := by
  have whole := takeWhile_append_dropWhile (p := fun byte => decide (byte ≠ Url.slash)) (l := front)
  have short : (front.takeWhile fun byte => decide (byte ≠ Url.slash)).length ≠ front.length := by
    intro same
    rw [stops] at whole
    have lengths := congrArg List.length whole
    rw [length_append, length_cons] at lengths
    omega
  rw [takeWhile_append, if_neg short, dropWhile_append, stops]
  exact ⟨rfl, rfl⟩

/-- A url that goes on has the same device, and its resource goes on. -/
theorem parseIUrlBody_append (parsed : SendRequest.parseIUrlBody text = some url) (more : CString) :
    SendRequest.parseIUrlBody (text ++ more) = some { url with resUri := url.resUri ++ more } := by
  unfold SendRequest.parseIUrlBody at parsed
  simp only at parsed
  split at parsed
  · cases parsed
  rename_i rest behindStandard
  split at parsed
  · cases parsed
  rename_i resource behindDevice
  obtain rfl := some.inj parsed
  have filled : text.bytes ≠ [] := by
    intro empty
    rw [empty] at behindStandard
    cases behindStandard
  obtain ⟨sameStandard, standardStops⟩ := takeWhile_slash_append more.bytes behindStandard
  obtain ⟨sameDevice, deviceStops⟩ := takeWhile_slash_append more.bytes behindDevice
  have nulFree : (0 : UInt8) ∉ Url.slash :: resource := by
    refine not_mem_cons_of_ne_of_not_mem (by decide) fun member => text.nulFree ?_
    have inRest : (0 : UInt8) ∈ rest :=
      (dropWhile_suffix _).subset (behindDevice ▸ mem_cons_of_mem _ member)
    have inUrl : (0 : UInt8) ∈ Url.skipSlash text.bytes :=
      (dropWhile_suffix _).subset (behindStandard ▸ mem_cons_of_mem _ inRest)
    rw [← Url.drop_skipSlash] at inUrl
    exact mem_of_mem_drop inUrl
  have goesOnFree : (0 : UInt8) ∉ Url.slash :: (resource ++ more.bytes) := by
    rw [← cons_append, mem_append, not_or]
    exact ⟨nulFree, more.nulFree⟩
  have resUri : CString.ofBytes (Url.slash :: (resource ++ more.bytes)) = CString.ofBytes
      (Url.slash :: resource) ++ more := by
    rw [CString.ofBytes_nulFree goesOnFree, CString.ofBytes_nulFree nulFree]
    rfl
  unfold SendRequest.parseIUrlBody
  simp only [CString.append_bytes, skipSlash_append _ filled, standardStops, deviceStops,
    sameStandard, sameDevice, resUri]

/-- A resource covers only paths that are not much longer than its url and what lies behind it. -/
theorem length_of_goesOn {leading path rest : List UInt8} (goesOn : Url.GoesOn leading path rest) :
    path.length ≤ leading.length + rest.length + 2 := by
  have front := le_length_skipSlash path
  have stem : (Url.stripSlash (Url.skipSlash leading)).length ≤ leading.length := by
    have inside := length_skipSlash_le leading
    unfold Url.stripSlash
    split
    · rw [length_dropLast]
      omega
    · exact inside
  obtain ⟨-, ⟨same, rfl⟩ | more⟩ := goesOn
  · rw [same] at front
    omega
  · rw [more, length_append, length_cons] at front
    omega

/-- The length from which on no url of a resource has a separate url at a device. -/
def SeparateUrls.bound (separate : SeparateUrls) (client : Client) : Nat :=
  (client.resList.map fun resource =>
    resource.url.bytes.length +
      ((separate.mapPropertyUrl client resource).map (·.1.bytes.length)).sum).sum + 2

/-- The properties with a separate url are finitely many, so a url that is long enough has none. -/
theorem SeparateUrls.find_long {action : UInt8} {path : CString}
    (long : separate.bound client < path.bytes.length) :
    separate.find client path action = none := by
  unfold SeparateUrls.find
  split
  · cases selects : client.urlMatchResource path with
    | none => rfl
    | some selected =>
      obtain ⟨resource, property⟩ := selected
      rw [urlMatchResource_eq, List.findSome?_eq_some_iff] at selects
      obtain ⟨front, entry, back, whole, isMatch, -⟩ := selects
      obtain ⟨rfl, rest, goesOn, rfl⟩ := matched_eq_some_iff.mp isMatch
      have isRest : ((named rest).getD .empty).bytes = rest.bytes := by
        unfold named
        split
        · rename_i empty
          exact empty.symm
        · rfl
      have member : resource ∈ client.resList := whole ▸ mem_append_right _ mem_cons_self
      have covers := length_of_goesOn goesOn
      have ofResource := single_le_sum
          (fun _ _ => Nat.zero_le _) _ (List.mem_map_of_mem (f := fun resource : ResObject =>
        resource.url.bytes.length +
          ((separate.mapPropertyUrl client resource).map (·.1.bytes.length)).sum) member)
      have absent :
          (separate.mapPropertyUrl client resource).lookup ((named rest).getD .empty) = none := by
        by_contra present
        obtain ⟨urls, isUrls⟩ := ne_none_iff_exists'.mp present
        obtain ⟨before, after, entries, -⟩ := lookup_eq_some_iff.mp isUrls
        have key := single_le_sum (fun _ _ => Nat.zero_le _) _ (List.mem_map_of_mem
            (f := fun entry : CString × PropertyUrls =>
          entry.1.bytes.length) (entries ▸ mem_append_right before mem_cons_self))
        rw [isRest] at key
        unfold SeparateUrls.bound at long
        omega
      simp only [bind_some, absent, bind_none]
  · rfl

/-- Paths without NUL are published apart. -/
theorem busUri_inj {one other : List UInt8} (oneFree : (0 : UInt8) ∉ one)
    (otherFree : (0 : UInt8) ∉ other) (same : busUri one = busUri other) : one = other := by
  have free : ∀ path : List UInt8, (0 : UInt8) ∉ path → (0 : UInt8) ∉ Url.slash :: path :=
    fun path pathFree =>
    not_mem_cons_of_ne_of_not_mem (by decide) pathFree
  unfold busUri at same
  rw [CString.ofBytes_nulFree (free one oneFree),
    CString.ofBytes_nulFree (free other otherFree)] at same
  split at same
  · split at same
    · exact (List.cons.inj (congrArg CString.bytes (some.inj same))).2
    · cases same
  · split at same
    · cases same
    · rw [eq_nil_of_length_eq_zero (by omega : one.length = 0),
        eq_nil_of_length_eq_zero (by omega : other.length = 0)]

variable {message : Packet}

/-- The lookup at a device without an alias. -/
theorem replaceUrl_plain (parsed : SendRequest.parseIUrlBody text = some url)
    (found : directory.findClient url.device = some client) (plain : client.aliasName = .empty) :
    replaceUrl directory separate text message =
      some (setSeparateUrl (separate.find client url.resUri message.code) message) := by
  simp [replaceUrl, parsed, getAliasUrlFromDi, checkSeperateUrl, found, plain]

/-- The lookup of a url whose device is not known. -/
theorem replaceUrl_unknown (parsed : SendRequest.parseIUrlBody text = some url)
    (missing : directory.findClient url.device = none) :
    replaceUrl directory separate text message = some message := by
  simp [replaceUrl, parsed, getAliasUrlFromDi, checkSeperateUrl, missing, setSeparateUrl]

/-- The lookup at a device with an alias, behind which the rest of the url has no room. -/
theorem replaceUrl_overflows (parsed : SendRequest.parseIUrlBody text = some url)
    (found : directory.findClient url.device = some client) (aliased : client.aliasName ≠ .empty)
    (long : urlSize ≤ url.resUri.bytes.length) :
    replaceUrl directory separate text message = none := by
  have noRoom : ∀ newUrl : CString, ¬newUrl.bytes.length + url.resUri.bytes.length < urlSize := by
    intro newUrl
    omega
  simp only [replaceUrl, parsed, getAliasUrlFromDi, found, bind_some, if_pos aliased,
    if_neg (noRoom _)]

theorem path_setSeparateUrl (found : Option (CString × Option CString)) (message : Packet) :
    coapGetHeaderUriPath (setSeparateUrl found message) = (found.map fun url =>
      url.1.bytes.dropWhile (· = 0x2F)).getD (coapGetHeaderUriPath message) := by
  cases found with
  | none => rfl
  | some url =>
    obtain ⟨path, _ | params⟩ := url
    · simp only [setSeparateUrl, coapGetHeaderUriPath_setPath, map_some, getD_some]
    · simp only [setSeparateUrl, coapGetHeaderUriPath_setPath, coapGetHeaderUriPath_setQuery,
        map_some, getD_some]

/-- A request whose path goes on to nothing that is replaced keeps its path. -/
theorem Unreplaced.keeps {message : Packet}
    (unreplaced : Unreplaced directory separate message.code (coapGetHeaderUriPath message))
    (goesOn : coapGetHeaderUriPath message <+: text.bytes) :
    ∃ replaced, replaceUrl directory separate text message = some replaced ∧
    coapGetHeaderUriPath replaced = coapGetHeaderUriPath message := by
  cases parsed : SendRequest.parseIUrlBody text with
  | none => exact ⟨message, by rw [replaceUrl, parsed], rfl⟩
  | some url =>
    cases found : directory.findClient url.device with
    | none => exact ⟨message, replaceUrl_unknown parsed found, rfl⟩
    | some client =>
      obtain ⟨plain, separates⟩ := unreplaced text goesOn url parsed client found
      refine ⟨_, replaceUrl_plain parsed found plain, ?_⟩
      rw [path_setSeparateUrl]
      cases separately : separate.find client url.resUri message.code with
      | none => rfl
      | some other => exact separates other separately

/-- There is a string of every length. -/
theorem exists_length (count : Nat) : ∃ text : CString, text.bytes.length = count :=
  ⟨⟨List.replicate count 0x61, by simp [mem_replicate]⟩, length_replicate⟩

end Behind

/-- A path without NUL is published with one url whatever lies behind it, exactly if no url that
goes on from it is replaced by another one than the path. -/
theorem publishCloudRequestToGwBus_anyBehind_iff (directory : Directory)
    (separate : SeparateUrls) (moduleId : CString)
    (brokerMsgId : UInt64) {message : Packet} (given : message.isOption .uriPath = true)
    (nulFree : (0 : UInt8) ∉ coapGetHeaderUriPath message) :
    (∃ uri, ∀ behind, ∃ bus, publishCloudRequestToGwBus directory separate moduleId brokerMsgId
      ⟨message, behind⟩ = .published bus ∧ bus.properties .uri = uri) ↔
      Unreplaced directory separate message.code (coapGetHeaderUriPath message) := by
  have looksUp : ∀ behind, publishCloudRequestToGwBus directory separate moduleId brokerMsgId
      ⟨message, behind⟩ = publishOnBus moduleId brokerMsgId (replaceUrl directory separate
      (.ofBytes (coapGetHeaderUriPath message ++ behind)) message) := by
    intro behind
    exact if_neg (by rw [given]; decide)
  constructor
  · rintro ⟨uri, same⟩ text ⟨behind, goesOn⟩ url parsed client found
    have isText : ∀ more : CString, CString.ofBytes
        (coapGetHeaderUriPath message ++ (behind ++ more.bytes)) = text ++ more := by
      intro more
      rw [← append_assoc, goesOn]
      exact CString.ofBytes_nulFree (text ++ more).nulFree
    have plain : client.aliasName = .empty := by
      -- Enough bytes behind the url overflow the buffer for an alias.
      by_contra aliased
      obtain ⟨filler, isLong⟩ := exists_length urlSize
      obtain ⟨bus, isBus, -⟩ := same (behind ++ filler.bytes)
      have long : urlSize ≤ (url.resUri ++ filler).bytes.length := by
        rw [CString.append_bytes, length_append]
        omega
      rw [looksUp, isText,
        replaceUrl_overflows (parseIUrlBody_append parsed filler) found aliased long] at isBus
      cases isBus
    refine ⟨plain, fun other separately => ?_⟩
    -- Enough bytes behind the url end the lookup of a separate url, and the path is left.
    obtain ⟨filler, isLong⟩ := exists_length (separate.bound client + 1)
    have long : separate.bound client < (url.resUri ++ filler).bytes.length := by
      rw [CString.append_bytes, length_append]
      omega
    obtain ⟨bus, isBus, isUri⟩ := same behind
    obtain ⟨longBus, isLongBus, isLongUri⟩ := same (behind ++ filler.bytes)
    have isHere : CString.ofBytes (coapGetHeaderUriPath message ++ behind) = text := by
      rw [goesOn]
      exact CString.ofBytes_nulFree text.nulFree
    rw [looksUp, isHere, replaceUrl_plain parsed found plain, mem_def.mp separately] at isBus
    rw [looksUp, isText, replaceUrl_plain (parseIUrlBody_append parsed filler) found plain,
      SeparateUrls.find_long long] at isLongBus
    cases isBus
    cases isLongBus
    rw [coapToBusMsg_uri, path_setSeparateUrl, ← isLongUri, coapToBusMsg_uri,
      path_setSeparateUrl] at isUri
    exact busUri_inj
      (fun member => other.1.nulFree ((dropWhile_suffix _).subset member)) nulFree isUri
  · intro unreplaced
    refine ⟨busUri (coapGetHeaderUriPath message), fun behind => ?_⟩
    have goesOn : coapGetHeaderUriPath message <+:
        (CString.ofBytes (coapGetHeaderUriPath message ++ behind)).bytes :=
      (prefix_ofBytes_iff nulFree).mpr ⟨behind, rfl⟩
    obtain ⟨replaced, isReplaced, isPath⟩ := unreplaced.keeps goesOn
    refine ⟨_, by rw [looksUp, isReplaced]; rfl, ?_⟩
    rw [coapToBusMsg_uri, isPath]

/-- A device `"d"` that has no alias. -/
def plainDevice : Directory := { Directory.start with list := [.new 0 (.ofBytes [0x64])] }

/-- A `PUT` to `"m/d/a"` is published with one url, the device having neither an alias nor a
separate url. -/
theorem publishCloudRequestToGwBus_anyBehind_plainDevice : ∃ uri,
    ∀ behind, ∃ bus, publishCloudRequestToGwBus plainDevice ⟨fun _ => false, fun _ _ => []⟩ .empty 0
      ⟨{ coapInitMessage .con coapPut 1 with
        uriPath := [0x6D, 0x2F, 0x64, 0x2F, 0x61]
        options := {11} }, behind⟩ =
          .published bus ∧ bus.properties .uri = uri := by
  refine (publishCloudRequestToGwBus_anyBehind_iff _ _ _ _ (by decide) (by decide)).mpr
    fun text _ url _ client found => ?_
  obtain rfl := mem_singleton.mp (mem_of_find?_eq_some found)
  exact ⟨rfl, fun other separately => by cases separately⟩

end Idrm.Agent
