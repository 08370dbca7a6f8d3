import Idrm.Lib.Decimal
import Idrm.Url.Start

/-!
# Devices

A `CClient` is one device of the resource directory: its names, what its registration
said about it, its resources, and the configuration found for it. Separate urls,
connections and configurations of single properties are left out.
-/

namespace Idrm.Devices

open Idrm.Lib

/-- `CResourceObjectConfig`, the part of it that is reported. -/
structure ObjectConfig where
  groups : List CString
  attrs : Option CString
deriving DecidableEq

/-- `CResObject` -/
structure ResObject where
  url : CString
  rt : CString
  config : Option ObjectConfig
deriving DecidableEq

/-- `CClientConfig`, the part of it that is reported. -/
structure ClientConfig where
  groups : List CString
  attrs : Option CString
deriving DecidableEq

/-- `m_user_data`; a JSON value stands as its text. -/
inductive UserData where
  | string (text : CString)
  | json (text : CString)
deriving DecidableEq

/-- `CClient`. `id` tells objects apart, as their addresses do. -/
structure Client where
  id : Nat
  epname : CString
  aliasName : CString
  standard : CString
  deviceType : CString
  settings : CString
  ttl : Int32
  online : Bool
  isQueueMode : Bool
  isPassiveDevice : Bool
  addr : CString
  config : Option ClientConfig
  userData : Option UserData
  resList : List ResObject
deriving DecidableEq

namespace Client

/-- The constructor `CClient`. -/
def new (id : Nat) (epname : CString) : Client where
  id := id
  epname := epname
  aliasName := .empty
  standard := .empty
  deviceType := .empty
  settings := .empty
  ttl := 0
  online := true
  isQueueMode := false
  isPassiveDevice := false
  addr := .empty
  config := none
  userData := none
  resList := []

/-- The test of `FindClient`: the device is known by a name. -/
def knownAs (name : CString) (client : Client) : Bool :=
  (client.epname ≠ .empty ∧ client.epname = name) ∨
    (client.aliasName ≠ .empty ∧ client.aliasName = name)

/-- `HasId` -/
def hasId (name : CString) (client : Client) : Bool :=
  if client.aliasName ≠ .empty ∧ client.aliasName = name then true else client.epname = name

/-- What identifies a device. -/
structure Names where
  id : Nat
  epname : CString
  aliasName : CString
deriving DecidableEq

/-- The names of a device. -/
def names (client : Client) : Names := ⟨client.id, client.epname, client.aliasName⟩

/-! ## Queries -/

/-- The conditions of a query or of a monitor. -/
structure RdQuery where
  dt : Option CString
  di : Option CString
  st : Option CString
  rt : Option CString
  withRts : Option (List CString)
  groups : Option (List CString)

/-- A query for one device. -/
def RdQuery.device (di : CString) : RdQuery := ⟨none, some di, none, none, none, none⟩

/-- A condition that is absent holds. -/
def agrees (condition : Option CString) (value : CString) : Bool := condition.all (· = value)

/-- The test of one resource for its type; `with_rts` shadows `rt`. -/
def hasType (query : RdQuery) (resource : ResObject) : Bool :=
  match query.withRts with
  | some types => resource.rt ∈ types
  | none => query.rt = some resource.rt

/-- The device or one of its resources is in a group. -/
def inGroup (group : CString) (client : Client) : Bool :=
  client.config.any (group ∈ ·.groups) || client.resList.any fun resource => resource.config.any
    (group ∈ ·.groups)

/-- `QueryRD`, for a query that is not `NULL`. -/
def queryRD (query : RdQuery) (client : Client) : Bool :=
  agrees query.dt client.deviceType &&
  query.di.all (fun di => client.epname = di ∨ client.aliasName = di) &&
  agrees query.st client.standard &&
  (if query.rt.isSome ∨ (query.withRts.getD []) ≠ [] then
    client.resList.any (hasType query) else true) &&
  query.groups.all fun groups => groups.any fun group => client.inGroup group

/-- `UrlMatchResource`, with the offset at which a property starts, if the url goes on. -/
def urlMatchResource (url : CString) (client : Client) : Option (ResObject × Option CString) :=
  client.resList.findSome? fun resource =>
    let offset := Url.checkUrlStart url.bytes resource.url.bytes
    if offset = 0 then none
    else some (resource, if offset < url.bytes.length then
      some (.ofBytes (url.bytes.drop offset)) else none)

/-! ## Reports -/

/-- One link of a report. -/
structure ReportLink where
  href : CString
  rt : CString
  groups : Option (List CString)
  attrs : Option CString
deriving DecidableEq

/-- The members of a report; `none` is a member that is not there. -/
structure RdReport where
  di : CString
  aid : Option CString
  aliasName : Option CString
  status : Bool
  st : CString
  addr : Option CString
  groups : Option (List CString)
  attrs : Option CString
  dt : CString
  settings : CString
  userData : Option UserData
  links : List ReportLink
deriving DecidableEq

/-- A string member that is left out when it is empty. -/
def unlessEmpty (value : CString) : Option CString := if value = .empty then none else some value

/-- The link of a resource. Groups are left out when there are none. -/
def reportLink (withCfg : Bool) (resource : ResObject) : ReportLink where
  href := resource.url
  rt := resource.rt
  groups := if withCfg then resource.config.bind fun config => if config.groups = [] then none
    else some config.groups else none
  attrs := if withCfg then resource.config.bind (·.attrs) else none

/-- `GenerateRDReport`; `agentId` is what `get_self_agent_id` returns. -/
def generateRDReport (agentId : Option CString) (withCfg : Bool) (client : Client) :
    Option RdReport :=
  -- A device with its alias for a name was named before the agent had an id.
  if withCfg = false ∧ client.epname = client.aliasName then none
  else some {
    di := client.epname
    aid := if withCfg then none else agentId
    aliasName := if withCfg then unlessEmpty client.aliasName else none
    status := client.online
    st := client.standard
    addr := unlessEmpty client.addr
    groups := if withCfg then client.config.map (·.groups) else none
    attrs := if withCfg then client.config.bind (·.attrs) else none
    dt := client.deviceType
    settings := client.settings
    userData := client.userData
    links := client.resList.map (reportLink withCfg) }

/-! ## Registration -/

/-- The member `rt` of a link. -/
inductive LinkType where
  | missing
  | array (types : List (Option CString))
  | text (type : CString)
  | other
deriving DecidableEq

/-- One link of a registration. -/
structure RdLink where
  href : Option CString
  rt : LinkType
  inst : Option (List Int32)

/-- The registration of one device. -/
structure RdPost where
  di : Option CString
  aliasName : Option CString
  st : Option CString
  addr : Option CString
  dt : Option CString
  ttl : Int32
  settings : Option CString
  links : List RdLink
  userData : Option UserData

/-- The text `"<uri>/<instance>"`. -/
def numberedUri (uri : CString) (index : Int32) : CString :=
  .ofBytes (uri.bytes ++ [0x2F] ++ printInt index.toInt)

/-- What is written to `res_uri`: an instance of `-1` stands for none. The buffer has 100 bytes, and
nothing checks that the url fits (`FitsResUri`). -/
def instanceUri (uri : CString) (index : Int32) : CString :=
  if index = -1 then uri else numberedUri uri index

/-- `CClient::HandleRdPost`: the resource with this url leaves the list, or is made. -/
def takeRes (url rt : CString) (client : Client) : ResObject × Client :=
  match client.resList.find? (·.url = url) with
  | none => (⟨url, rt, none⟩, client)
  | some resource => (resource, { client with resList := client.resList.eraseP (·.url = url) })

/-- The type a link of a device gives, if any. -/
def LinkType.given : LinkType → Option CString
  | .missing | .other => none
  | .array types => types.head?.join
  | .text type => some type

/-- The urls a link stands for: one for each instance. -/
def RdLink.urls (link : RdLink) (href : CString) : List CString :=
  match link.inst with
  | some instances => instances.map (instanceUri href)
  | none => [href]

/-- A resource is added to those collected so far. -/
def collect (rt : CString) (state : List ResObject × Client) (url : CString) :
    List ResObject × Client :=
  let (resource, client) := state.2.takeRes url rt
  (resource :: state.1, client)

/-- One link of a registration. -/
def handleLink (state : List ResObject × Client) (link : RdLink) : List ResObject × Client :=
  match link.href, link.rt.given with
  | some href, some rt => (link.urls href).foldl (collect rt) state
  | _, _ => state

/-- The links of a registration, and `RenewResources`: what they do not name is dropped. -/
def renewResources (links : List RdLink) (client : Client) : Client :=
  let (taken, client) := links.foldl handleLink ([], client)
  { client with resList := taken.reverse }

/-- The configuration file of a device, with the objects in the order of its links. -/
structure DeviceCfg where
  device : ClientConfig
  objects : List (CString × ObjectConfig)

/-- The configuration of an object, unless it has one. -/
def configure (config : ObjectConfig) (resource : ResObject) : ResObject :=
  if resource.config.isNone then { resource with config := some config } else resource

/-- The configuration of one link goes to the first resource with its url. -/
def applyObjectConfig (client : Client) (entry : CString × ObjectConfig) : Client :=
  match client.resList.findIdx? (·.url = entry.1) with
  | none => client
  | some index => { client with resList := client.resList.modify index (configure entry.2) }

/-- `Initialize`, with the file that is found. -/
def applyConfig (file : Option DeviceCfg) (client : Client) : Client :=
  match file with
  | none => client
  | some cfg =>
    let config := if client.config.isNone then some cfg.device else client.config
    cfg.objects.foldl applyObjectConfig { client with config := config }

/-! ## Names

Registration and configuration work on the resources and leave the names alone. -/

section Names

variable {client : Client}

theorem takeRes_names (url rt : CString) : (client.takeRes url rt).2.names = client.names := by
  unfold takeRes
  split
  · rfl
  · rfl

theorem foldl_collect_names (rt : CString) (urls : List CString) (state : List ResObject × Client) :
    (urls.foldl (collect rt) state).2.names = state.2.names := by
  induction urls generalizing state with
  | nil => rfl
  | cons url rest ih =>
    rw [List.foldl_cons, ih]
    exact takeRes_names url rt

theorem handleLink_names (link : RdLink) (state : List ResObject × Client) :
    (handleLink state link).2.names = state.2.names := by
  unfold handleLink
  split
  · exact foldl_collect_names _ _ state
  · rfl

theorem foldl_handleLink_names (links : List RdLink) (state : List ResObject × Client) :
    (links.foldl handleLink state).2.names = state.2.names := by
  induction links generalizing state with
  | nil => rfl
  | cons link rest ih =>
    rw [List.foldl_cons, ih, handleLink_names]

theorem renewResources_names (links : List RdLink) :
    (client.renewResources links).names = client.names :=
  foldl_handleLink_names links ([], client)

theorem foldl_applyObjectConfig_names (objects : List (CString × ObjectConfig)) :
    (objects.foldl applyObjectConfig client).names = client.names := by
  induction objects generalizing client with
  | nil => rfl
  | cons entry rest ih =>
    rw [List.foldl_cons, ih]
    unfold applyObjectConfig
    split
    · rfl
    · rfl

theorem applyConfig_names (file : Option DeviceCfg) :
    (client.applyConfig file).names = client.names := by
  unfold applyConfig
  split
  · rfl
  · exact foldl_applyObjectConfig_names _

end Names

end Client

end Idrm.Devices
