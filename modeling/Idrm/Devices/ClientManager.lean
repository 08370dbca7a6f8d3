import Idrm.Devices.Client
import Idrm.Lib.Run
import Mathlib.Data.List.DropRight

/-!
# The resource directory

`CClientManager` holds the devices in a list, the newest first, and beside it a map from
alias names to devices. Devices come by registration and by `init_resource_directory`,
which makes one for the agent itself, and go when they are deleted.

A pointer to a device is the `id` of its object; the map may hold one whose object is gone.
-/

namespace Idrm.Devices

open Idrm.Lib List

/-- `CClientManager` with `CClient::new_id` and the global `g_iagent_client`. -/
structure Directory where
  list : List Client
  mapAlias : CString → Option Nat
  newId : Nat
  iagentClient : Option Nat

namespace Directory

/-- The directory of an agent that has just started. -/
def start : Directory := ⟨[], fun _ => none, 0, none⟩

/-- `FindClient` by name. -/
def findClient (name : CString) (directory : Directory) : Option Client :=
  directory.list.find? (·.knownAs name)

/-- A change of one object. -/
def update (id : Nat) (change : Client → Client) (directory : Directory) : Directory :=
  { directory with
    list := directory.list.map fun client => if client.id = id then change client else client }

/-- `AddClient`, of a device that was just made. -/
def addClient (client : Client) (directory : Directory) : Directory :=
  { directory with list := client :: directory.list, newId := directory.newId + 1 }

/-- `SetDeviceAlias` -/
def setDeviceAlias (aliasName : CString) (id : Nat) (directory : Directory) : Directory :=
  update id (fun client => { client with aliasName := aliasName })
    { directory with mapAlias := Function.update directory.mapAlias aliasName (some id) }

/-- `UnsetDeviceAlias` -/
def unsetDeviceAlias (aliasName : CString) (directory : Directory) : Directory :=
  { directory with mapAlias := Function.update directory.mapAlias aliasName none }

/-- `FindAliasDevice` -/
def findAliasDevice (aliasName : CString) (directory : Directory) : Option Nat :=
  directory.mapAlias aliasName

/-- `FreeClient`, of a device without user data: the destructor of one that has some copies the
string `NULL` in `SetUserData`. -/
def freeClient (client : Client) (directory : Directory) : Directory :=
  let directory := if client.aliasName ≠ .empty then
    unsetDeviceAlias client.aliasName directory else directory
  { directory with list := directory.list.filter (·.id ≠ client.id) }

/-- What a registration sets of a device. -/
def register (st dt : Option CString) (ttl : Int32) (settings : Option CString)
    (client : Client) : Client :=
  { client with
    standard := st.getD .empty
    deviceType := dt.getD .empty
    settings := settings.getD .empty
    ttl := if 0 < ttl then ttl else 0
    isQueueMode := 0x75 ∈ (settings.getD .empty).bytes
    isPassiveDevice := 0x70 ∈ (settings.getD .empty).bytes }

/-- `HandleRdPost`, with the object it returns. -/
def handleRdPost (di : CString) (st dt : Option CString) (ttl : Int32) (settings : Option CString)
    (directory : Directory) : Nat × Directory :=
  match directory.findClient di with
  | some client => (client.id, update client.id (register st dt ttl settings) directory)
  | none =>
    (directory.newId, addClient (register st dt ttl settings (.new directory.newId di)) directory)

/-- `init_resource_directory`, with what `load_iagent_id` finds. The global stays `NULL`:
the body declares a local of its name. -/
def initResourceDirectory (agentId : Option CString) (file : Option Client.DeviceCfg)
    (directory : Directory) : Directory :=
  if directory.iagentClient.isSome then directory
  else
    match agentId with
    | none => directory
    | some agent =>
      let client := { Client.new directory.newId agent with
        standard := ⟨[0x69, 0x61, 0x67, 0x65, 0x6E, 0x74], by decide⟩
        deviceType :=
          ⟨[0x69, 0x6E, 0x74, 0x65, 0x6C, 0x2E, 0x69, 0x61, 0x67, 0x65, 0x6E, 0x74], by decide⟩ }
      update client.id (·.applyConfig file) (addClient client directory)

/-- `load_local_device_id`, into a buffer of 100 bytes. -/
def loadLocalDeviceId (agentId : Option CString) (aliasName : CString) : CString :=
  match agentId with
  | some agent => .ofBytes ((agent.bytes ++ [0x5F] ++ aliasName.bytes).take 99)
  | none => .ofBytes (aliasName.bytes.take 99)

/-- `check_local_device_id`: the part behind the last underscore, where the part before it
begins the agent id. -/
def checkLocalDeviceId (agentId : Option CString) (deviceId : CString) : Option CString :=
  match agentId with
  | none => some deviceId
  | some agent =>
    let back := deviceId.bytes.rtakeWhile (· ≠ 0x5F)
    let front := deviceId.bytes.take (deviceId.bytes.length - back.length - 1)
    if 0x5F ∈ deviceId.bytes ∧ front ≠ [] ∧ front <+: agent.bytes then
      some (.ofBytes back) else none

/-- `try_use_local_id` -/
def tryUseLocalId (agentId : Option CString) (deviceId : CString) : CString :=
  (checkLocalDeviceId agentId deviceId).getD deviceId

/-- `"gwbus://"` -/
def busPrefix : List UInt8 := [0x67, 0x77, 0x62, 0x75, 0x73, 0x3A, 0x2F, 0x2F]
/-- `"connection"` -/
def connectionSource : CString :=
  ⟨[0x63, 0x6F, 0x6E, 0x6E, 0x65, 0x63, 0x74, 0x69, 0x6F, 0x6E], by decide⟩
/-- `"ep"` -/
def standardEp : CString := ⟨[0x65, 0x70], by decide⟩

/-- The type of a plugin's resource. An array without a first string gives `HandleRdPost` a `NULL`,
which it reads only for a new resource; nothing is said of those here. -/
def pluginType (type : Client.LinkType) : CString := type.given.getD .empty

/-- `handle_plugin_resource_post` on the agent's own device. -/
def addPluginResources (links : List Client.RdLink) (client : Client) : Client :=
  links.foldl (fun client link =>
    match link.href with
    | none => client
    | some href =>
      let (resource, client) := client.takeRes href (pluginType link.rt)
      { client with resList := resource :: client.resList }) client

/-- `handle_plugin_resource_post` -/
def handlePluginResourcePost (agentId : Option CString) (links : List Client.RdLink)
    (directory : Directory) : Option Nat × Directory :=
  match agentId.bind (fun agent => directory.findClient agent) with
  | none => (none, directory)
  | some client => (some client.id, update client.id (addPluginResources links) directory)

/-- What a registration says about an object beyond its names. -/
def describe (source : Option CString) (post : Client.RdPost) (file : Option Client.DeviceCfg)
    (client : Client) : Client :=
  let addr := match source with
    | some source => if source = connectionSource then client.addr else source
    | none => client.addr
  let userData := match post.userData with
    | some data => some data
    | none => client.userData
  ({ client with addr := addr, userData := userData }.renewResources post.links).applyConfig file

/-- The device id of a registration: its own, or one made of its alias. -/
def postDevice (agentId : Option CString) (post : Client.RdPost) : Option CString :=
  match post.di with
  | some di => some di
  | none => post.aliasName.map (loadLocalDeviceId agentId)

/-- `handle_rd_from_one_device` -/
def handleRdFromOneDevice (agentId : Option CString)
    (file : Option Client.DeviceCfg) (post : Client.RdPost)
    (source : Option CString) (directory : Directory) : Option Nat × Directory :=
  match postDevice agentId post with
  | none =>
    if source.any (busPrefix <+: ·.bytes) then handlePluginResourcePost agentId post.links directory
    else (none, directory)
  | some di =>
    if post.st = some standardEp ∧ source = none ∧ post.addr = none then (none, directory)
    else
      let source := if post.st = some standardEp ∧ source = none then post.addr else source
      let (id, directory) := handleRdPost di post.st post.dt post.ttl post.settings directory
      let directory := match post.aliasName with
        | some aliasName => setDeviceAlias aliasName id directory
        | none => directory
      (some id, update id (describe source post file) directory)

/-- `one_device_delete`; reports and refresher points are handled elsewhere. -/
def oneDeviceDelete (di : Option CString) (directory : Directory) : Directory :=
  match di.bind (fun di => directory.findClient di) with
  | none => directory
  | some client => freeClient client directory

/-- `handle_rd_get` -/
def handleRdGet (agentId : Option CString) (query : Option Client.RdQuery) (withCfg : Bool)
    (directory : Directory) : List Client.RdReport :=
  (directory.list.filter fun client => query.all (client.queryRD ·)).filterMap
    (Client.generateRDReport agentId withCfg)

/-! ## Runs -/

/-- What can happen to the directory. The agent id and the configuration file are those
of the moment. -/
inductive RdEvent where
  | post (agentId : Option CString) (file : Option Client.DeviceCfg) (post : Client.RdPost)
      (source : Option CString)
  | delete (di : Option CString)
  | init (agentId : Option CString) (file : Option Client.DeviceCfg)

/-- One event, as a call that always has a result. -/
def perform : RdEvent → Directory → Option Directory
  | .post agentId file post source, directory =>
    some (directory.handleRdFromOneDevice agentId file post source).2
  | .delete di, directory => some (directory.oneDeviceDelete di)
  | .init agentId file, directory => some (directory.initResourceDirectory agentId file)

/-! ## What an event does to the names -/

/-- The names in the list. -/
def names (directory : Directory) : List Client.Names := directory.list.map Client.names

/-- One device gets another alias. -/
def retag (id : Nat) (aliasName : CString) (names : List Client.Names) : List Client.Names :=
  names.map fun entry => if entry.id = id then { entry with aliasName := aliasName } else entry

/-- Objects are told apart by their ids. -/
structure Numbered (directory : Directory) : Prop where
  apart : directory.names.Pairwise fun one other => one.id ≠ other.id
  below : ∀ entry ∈ directory.names, entry.id < directory.newId

/-- The effects of an event. -/
inductive DirStep (directory : Directory) : RdEvent → Directory → Prop
  | same {event : RdEvent} {next : Directory} :
      next.names = directory.names → next.mapAlias = directory.mapAlias →
      next.newId = directory.newId → DirStep directory event next
  | renames {agentId : Option CString} {file : Option Client.DeviceCfg} {post : Client.RdPost}
      {source : Option CString} {next : Directory} (di aliasName : CString) (client : Client) :
      postDevice agentId post = some di → post.aliasName = some aliasName →
      directory.findClient di = some client →
      next.names = retag client.id aliasName directory.names →
      next.mapAlias = Function.update directory.mapAlias aliasName (some client.id) →
      next.newId = directory.newId → DirStep directory (.post agentId file post source) next
  | joins {agentId : Option CString} {file : Option Client.DeviceCfg} {post : Client.RdPost}
      {source : Option CString} {next : Directory} (di : CString) :
      postDevice agentId post = some di → directory.findClient di = none →
      next.names = ⟨directory.newId, di, post.aliasName.getD .empty⟩ :: directory.names →
      next.mapAlias = post.aliasName.elim directory.mapAlias
        (fun aliasName => Function.update directory.mapAlias aliasName (some directory.newId)) →
      next.newId = directory.newId + 1 → DirStep directory (.post agentId file post source) next
  | inits {file : Option Client.DeviceCfg} {next : Directory} (agent : CString) :
      next.names = ⟨directory.newId, agent, .empty⟩ :: directory.names →
      next.mapAlias = directory.mapAlias →
      next.newId = directory.newId + 1 → DirStep directory (.init (some agent) file) next
  | leaves {next : Directory} (di : CString) (client : Client) :
      directory.findClient di = some client →
      next.names = directory.names.filter (·.id ≠ client.id) →
      next.mapAlias = (if client.aliasName ≠ .empty then
      Function.update directory.mapAlias client.aliasName none else directory.mapAlias) →
      next.newId = directory.newId → DirStep directory (.delete (some di)) next

section Steps

variable {directory : Directory}

theorem names_update {change : Client → Client}
    (keeps : ∀ client, (change client).names = client.names) (id : Nat) :
    (update id change directory).names = directory.names := by
  unfold names update
  rw [map_map]
  refine map_congr_left fun client _ => ?_
  simp only [Function.comp_apply]
  split
  · exact keeps client
  · rfl

theorem names_setDeviceAlias (aliasName : CString) (id : Nat) :
    (setDeviceAlias aliasName id directory).names = retag id aliasName directory.names := by
  unfold names setDeviceAlias update retag
  rw [map_map, map_map]
  refine map_congr_left fun client _ => ?_
  have sameId : client.names.id = client.id := rfl
  simp only [Function.comp_apply, sameId]
  split
  · rfl
  · rfl

theorem list_freeClient (client : Client) :
    (freeClient client directory).list = directory.list.filter (·.id ≠ client.id) := by
  unfold freeClient unsetDeviceAlias
  split
  · rfl
  · rfl

theorem names_freeClient (client : Client) :
    (freeClient client directory).names = directory.names.filter (·.id ≠ client.id) := by
  unfold names
  rw [list_freeClient, filter_map]
  rfl

/-- Nobody in the list has a number that is not yet given. -/
theorem retag_fresh {id : Nat} (aliasName : CString) {names : List Client.Names}
    (below : ∀ entry ∈ names, entry.id < id) : retag id aliasName names = names := by
  refine (map_congr_left fun entry member => ?_).trans (map_id names)
  rw [if_neg (below entry member).ne]
  rfl

theorem register_names (st dt : Option CString) (ttl : Int32) (settings : Option CString)
    (client : Client) : (register st dt ttl settings client).names = client.names := rfl

theorem describe_names (source : Option CString)
    (post : Client.RdPost) (file : Option Client.DeviceCfg)
    (client : Client) : (describe source post file client).names = client.names := by
  unfold describe
  rw [Client.applyConfig_names, Client.renewResources_names]
  rfl

theorem addPluginResources_names (links : List Client.RdLink) (client : Client) :
    (addPluginResources links client).names = client.names := by
  unfold addPluginResources
  induction links generalizing client with
  | nil => rfl
  | cons link rest ih =>
    rw [foldl_cons, ih]
    split
    · rfl
    · exact Client.takeRes_names _ _

/-- A registration, up to the names of the device it goes to. -/
theorem handleRdPost_names (directory : Directory) (di : CString) (st dt settings : Option CString)
    (ttl : Int32) : (∃ client, directory.findClient di = some client ∧
      (handleRdPost di st dt ttl settings directory).1 = client.id ∧
      (handleRdPost di st dt ttl settings directory).2.names = directory.names ∧
      (handleRdPost di st dt ttl settings directory).2.newId = directory.newId) ∨
    (directory.findClient di = none ∧
      (handleRdPost di st dt ttl settings directory).1 = directory.newId ∧ (handleRdPost di st dt
      ttl settings directory).2.names = ⟨directory.newId, di, .empty⟩ :: directory.names ∧
      (handleRdPost di st dt ttl settings directory).2.newId = directory.newId + 1) := by
  unfold handleRdPost
  split
  · rename_i client found
    exact .inl ⟨client, found, rfl,
      names_update (register_names st dt ttl settings) client.id, rfl⟩
  · rename_i missing
    exact .inr ⟨missing, rfl, rfl, rfl⟩

theorem handleRdPost_mapAlias (directory : Directory)
    (di : CString) (st dt settings : Option CString) (ttl : Int32) :
    (handleRdPost di st dt ttl settings directory).2.mapAlias = directory.mapAlias := by
  unfold handleRdPost
  split
  · rfl
  · rfl

theorem handleRdFromOneDevice_step (numbered : Numbered directory) (agentId : Option CString)
    (file : Option Client.DeviceCfg) (post : Client.RdPost) (source : Option CString) :
    DirStep directory (.post agentId file post source)
      (handleRdFromOneDevice agentId file post source directory).2 := by
  unfold handleRdFromOneDevice
  split
  · split
    · unfold handlePluginResourcePost
      split
      · exact .same rfl rfl rfl
      · exact .same (names_update (addPluginResources_names post.links) _) rfl rfl
    · exact .same rfl rfl rfl
  rename_i di device
  split
  · exact .same rfl rfl rfl
  have described := describe_names
    (if post.st = some standardEp ∧ source = none then post.addr else source) post file
  have mapAlias := handleRdPost_mapAlias directory di post.st post.dt post.settings post.ttl
  rcases handleRdPost_names directory di post.st post.dt post.settings post.ttl with
    ⟨client, found, id, names, newId⟩ | ⟨missing, id, names, newId⟩
  · cases named : post.aliasName with
    | none => exact .same ((names_update described _).trans names) mapAlias newId
    | some aliasName =>
      refine .renames di aliasName client device named found ?_ ?_ newId
      · rw [names_update described, names_setDeviceAlias, names, id]
      · exact congrArg₂ (fun map id => Function.update map aliasName (some id)) mapAlias id
  · cases named : post.aliasName with
    | none =>
      exact .joins di device missing (by rw [names_update described, names, named]; rfl)
        (by rw [named]; exact mapAlias) newId
    | some aliasName =>
      refine .joins di device missing ?_ ?_ newId
      · rw [names_update described, names_setDeviceAlias, names, id, named]
        unfold retag
        rw [map_cons, if_pos rfl]
        exact congrArg _ (retag_fresh aliasName numbered.below)
      · rw [named]
        exact congrArg₂ (fun map id => Function.update map aliasName (some id)) mapAlias id

/-- An event has one of these effects. -/
theorem perform_dirStep {event : RdEvent} {next : Directory} (numbered : Numbered directory)
    (performed : perform event directory = some next) : DirStep directory event next := by
  cases event with
  | post agentId file post source =>
    obtain rfl := Option.some.inj performed
    exact handleRdFromOneDevice_step numbered agentId file post source
  | delete di =>
    obtain rfl := Option.some.inj performed
    unfold oneDeviceDelete
    split
    · exact .same rfl rfl rfl
    rename_i client found
    cases di with
    | none => cases found
    | some di =>
      refine .leaves di client found (names_freeClient client) ?_ ?_
      · unfold freeClient
        split
        · rfl
        · rfl
      · unfold freeClient
        split
        · rfl
        · rfl
  | init agentId file =>
    obtain rfl := Option.some.inj performed
    unfold initResourceDirectory
    split
    · exact .same rfl rfl rfl
    split
    · exact .same rfl rfl rfl
    · exact .inits _ (names_update (fun client => client.applyConfig_names file) _) rfl rfl

end Steps

section Numbered

variable {directory next : Directory} {event : RdEvent}

theorem Numbered.start : Numbered start := ⟨List.Pairwise.nil, nofun⟩

theorem Numbered.same (numbered : Numbered directory) (names : next.names = directory.names)
    (newId : next.newId = directory.newId) : Numbered next := by
  obtain ⟨apart, below⟩ := numbered
  rw [← names] at apart below
  rw [← newId] at below
  exact ⟨apart, below⟩

/-- A new device takes the next number. -/
theorem Numbered.cons {epname aliasName : CString} (numbered : Numbered directory)
    (names : next.names = ⟨directory.newId, epname, aliasName⟩ :: directory.names)
    (newId : next.newId = directory.newId + 1) : Numbered next := by
  refine ⟨?_, ?_⟩
  · rw [names]
    exact .cons (fun entry member => (numbered.below entry member).ne') numbered.apart
  · rw [names, newId]
    intro entry member
    rcases mem_cons.mp member with rfl | member
    · exact Nat.lt_succ_self _
    · exact Nat.lt_succ_of_lt (numbered.below entry member)

/-- An entry after a change of alias, and the entry it was. -/
theorem mem_retag {id : Nat} {aliasName : CString} {names : List Client.Names}
    {entry : Client.Names} (member : entry ∈ retag id aliasName names) : (entry.id = id ∧
      entry.aliasName = aliasName ∧ ∃ old ∈ names, old.id = id ∧ old.epname = entry.epname) ∨
    (entry.id ≠ id ∧ entry ∈ names) := by
  obtain ⟨old, oldMember, rfl⟩ := mem_map.mp member
  split
  · rename_i same
    exact .inl ⟨same, rfl, old, oldMember, same, rfl⟩
  · rename_i other
    exact .inr ⟨other, oldMember⟩

theorem Numbered.step (numbered : Numbered directory) (step : DirStep directory event next) :
    Numbered next := by
  cases step with
  | same names _ newId => exact numbered.same names newId
  | renames di aliasName client device named found names mapAlias newId =>
    refine ⟨?_, ?_⟩
    · rw [names, retag, pairwise_map]
      refine numbered.apart.imp fun apart => ?_
      split <;> split <;> exact apart
    · rw [names, newId]
      intro entry member
      rcases mem_retag member with ⟨same, _, old, oldMember, oldSame, _⟩ | ⟨_, member⟩
      · rw [same, ← oldSame]
        exact numbered.below old oldMember
      · exact numbered.below entry member
  | joins di device missing names mapAlias newId => exact numbered.cons names newId
  | inits agent names mapAlias newId => exact numbered.cons names newId
  | leaves di client found names mapAlias newId =>
    refine ⟨?_, ?_⟩
    · rw [names]
      exact numbered.apart.filter _
    · rw [names, newId]
      exact fun entry member => numbered.below entry (mem_filter.mp member).1

/-- Two entries with one number are one entry. -/
theorem Numbered.unique (numbered : Numbered directory)
    {one other : Client.Names} (oneMember : one ∈ directory.names)
    (otherMember : other ∈ directory.names) (same : one.id = other.id) : one = other :=
  inj_on_of_nodup_map (pairwise_map.mpr numbered.apart) oneMember otherMember same

/-- Two listed objects with one number are one object. -/
theorem Numbered.sameClient (numbered : Numbered directory) {one other : Client}
    (oneMember : one ∈ directory.list)
    (otherMember : other ∈ directory.list) (same : one.id = other.id) : one = other := by
  have apart := numbered.apart
  rw [names, pairwise_map] at apart
  exact inj_on_of_nodup_map (pairwise_map.mpr apart) oneMember otherMember same

/-- A client that is found is in the list and known by the name. -/
theorem findClient_some {name : CString}
    {client : Client} (found : directory.findClient name = some client) :
    client ∈ directory.list ∧ client.knownAs name = true :=
  ⟨mem_of_find?_eq_some found, List.find?_some found⟩

theorem mem_names {client : Client} (member : client ∈ directory.list) :
    client.names ∈ directory.names :=
  mem_map_of_mem member

end Numbered

end Directory

end Idrm.Devices
