import Mathlib.Algebra.Order.BigOperators.Group.List
import Idrm.Devices.ClientManager
import Idrm.Lib.Renewal

/-!
# What a registration leaves of the resources

`handle_rd_from_one_device` pulls the resources its links name out of the device's list, makes
those that are missing, and renews the list from them. Each item of the links is one pull, so a
resource that was there stays as it was, its type included, and a url named twice is there twice.
-/

namespace Idrm.Devices

open Idrm.Lib List

namespace Client

/-! ## The items of the links -/

/-- One resource a link names: its href, the instance, and the type. -/
structure PostedItem where
  href : CString
  inst : Option Int32
  rt : CString
deriving DecidableEq

/-- The resources of a link; a link without an href or a type names none. -/
def RdLink.items (link : RdLink) : List PostedItem :=
  match link.href, link.rt.given with
  | some href, some rt =>
    match link.inst with
    | some instances => instances.map fun index => ⟨href, some index, rt⟩
    | none => [⟨href, none, rt⟩]
  | _, _ => []

/-- The resources of a registration. -/
def postedItems (links : List RdLink) : List PostedItem := links.flatMap RdLink.items

/-- The url of an item: its href, with the instance if there is one. -/
def PostedItem.url (item : PostedItem) : CString :=
  match item.inst with
  | some index => numberedUri item.href index
  | none => item.href

/-- The url `HandleRdPost` writes for it. -/
def PostedItem.written (item : PostedItem) : CString :=
  match item.inst with
  | some index => instanceUri item.href index
  | none => item.href

/-- `sizeof (res_uri)` -/
def resUriSize : Nat := 100

/-- Every url is written inside `res_uri`. -/
def FitsResUri (links : List RdLink) : Prop :=
  ∀ item ∈ postedItems links, item.written.bytes.length < resUriSize

/-- The resources are those of the links: one for each url, with a type given for it. -/
structure Replaced (links : List RdLink) (resources : List ResObject) : Prop where
  distinct : (resources.map (·.url)).Nodup
  urls : ∀ url, url ∈ resources.map (·.url) ↔ url ∈ (postedItems links).map (·.url)
  types : ∀ resource ∈ resources, ∃ item ∈ postedItems links, item.url = resource.url ∧
    item.rt = resource.rt

/-- The links name no url twice and no instance `-1`, and give each resource that is there the type
it has. -/
structure Reusable (links : List RdLink) (resources : List ResObject) : Prop where
  numbered : ∀ item ∈ postedItems links, item.inst ≠ some (-1)
  distinct : ((postedItems links).map (·.url)).Nodup
  typed : ∀ item ∈ postedItems links, ∀ resource,
    resources.find? (·.url = item.url) = some resource → resource.rt = item.rt

/-! ## The renewal -/

/-- A new resource. -/
def made (url rt : CString) : ResObject := ⟨url, rt, none⟩

/-- What an item asks for. -/
def PostedItem.wanted (item : PostedItem) : CString × CString := (item.written, item.rt)

section Renewal

variable {client : Client}

theorem takeRes_pull (url rt : CString) :
    client.takeRes url rt = ((pull ResObject.url made (url, rt) client.resList).1,
      { client with resList := (pull ResObject.url made (url, rt) client.resList).2 }) := by
  unfold takeRes pull
  cases client.resList.find? (·.url = url) with
  | none => rfl
  | some resource => rfl

/-- A link is one pull for each of its items. -/
theorem handleLink_items (state : List ResObject × Client) (link : RdLink) : handleLink state link =
      link.items.foldl (fun state item => collect item.rt state item.written) state := by
  unfold handleLink RdLink.items
  cases link.href with
  | none => rfl
  | some href =>
    cases link.rt.given with
    | none => rfl
    | some rt =>
      unfold RdLink.urls
      cases link.inst with
      | none => rfl
      | some instances =>
        simp only [foldl_map]
        rfl

theorem foldl_handleLink_items (links : List RdLink) (state : List ResObject × Client) :
    links.foldl handleLink state = (postedItems links).foldl
      (fun state item => collect item.rt state item.written) state := by
  induction links generalizing state with
  | nil => rfl
  | cons link rest ih =>
    rw [foldl_cons, ih, handleLink_items, postedItems, postedItems, flatMap_cons, foldl_append]

theorem foldl_collect_pulls (items : List PostedItem) (taken : List ResObject) :
    (items.foldl (fun state item => collect item.rt state item.written) (taken, client)).1 = (pulls
      ResObject.url made (items.map PostedItem.wanted) client.resList).1.reverse ++ taken := by
  induction items generalizing taken client with
  | nil => rfl
  | cons item rest ih =>
    rw [foldl_cons, collect, takeRes_pull, ih, map_cons, pulls, reverse_cons, append_assoc]
    rfl

/-- The resources after a registration are what its items pull. -/
theorem renewResources_pulls (links : List RdLink) :
    (client.renewResources links).resList =
      (pulls ResObject.url made ((postedItems links).map PostedItem.wanted) client.resList).1 := by
  change (links.foldl handleLink ([], client)).1.reverse = _
  rw [foldl_handleLink_items, foldl_collect_pulls, append_nil, reverse_reverse]

/-- Their urls are the written ones. -/
theorem renewResources_urls (links : List RdLink) :
    (client.renewResources links).resList.map (·.url) = (postedItems links).map (·.written) := by
  rw [renewResources_pulls, pulls_keys fun _ _ => rfl, map_map]
  rfl

end Renewal

/-! ## Urls that are written as they are meant -/

theorem numberedUri_bytes (uri : CString) (index : Int32) :
    (numberedUri uri index).bytes = uri.bytes ++ [0x2F] ++ printInt index.toInt := by
  refine congrArg CString.bytes (CString.ofBytes_nulFree ?_)
  have numeral := zero_not_mem_printInt index.toInt
  simp [uri.nulFree, numeral]

namespace PostedItem

variable {item : PostedItem}

theorem written_of_numbered (numbered : item.inst ≠ some (-1)) : item.written = item.url := by
  obtain ⟨href, inst, rt⟩ := item
  cases inst with
  | none => rfl
  | some index => exact if_neg fun same => numbered (congrArg some same)

/-- For the instance `-1` nothing is written behind the href. -/
theorem written_length_lt (sentinel : item.inst = some (-1)) :
    item.written.bytes.length < item.url.bytes.length := by
  obtain ⟨href, inst, rt⟩ := item
  obtain rfl : inst = some (-1) := sentinel
  change href.bytes.length < (numberedUri href (-1)).bytes.length
  rw [numberedUri_bytes, length_append, length_append, length_singleton]
  omega

theorem written_length_le (item : PostedItem) :
    item.written.bytes.length ≤ item.url.bytes.length := by
  by_cases sentinel : item.inst = some (-1)
  · exact (written_length_lt sentinel).le
  · rw [written_of_numbered sentinel]

end PostedItem

/-- Where the same urls are written as are meant, each once, no instance is `-1`: the url meant is
longer by a number there, and never shorter. -/
theorem numbered_of_sameUrls {items : List PostedItem} (distinct : (items.map (·.written)).Nodup)
    (covered : ∀ url, url ∈ items.map (·.written) → url ∈ items.map (·.url)) :
    ∀ item ∈ items, item.inst ≠ some (-1) := by
  have sameUrls : (items.map (·.written)).Perm (items.map (·.url)) :=
    (distinct.subperm fun url member => covered url member).perm_of_length_le
      (by rw [length_map, length_map])
  have sameLength := (sameUrls.map fun url => url.bytes.length).sum_eq
  rw [map_map, map_map] at sameLength
  intro item member sentinel
  have shorter := sum_lt_sum
    (fun item : PostedItem => item.written.bytes.length) (fun item => item.url.bytes.length)
    (fun item _ => item.written_length_le) ⟨item, member, PostedItem.written_length_lt sentinel⟩
  exact absurd sameLength shorter.ne

section Replaced

variable {client : Client} {links : List RdLink}

/-- Where the links can be taken as they are, the resources are the items. -/
theorem Reusable.renewed (reusable : Reusable links client.resList) :
    (client.renewResources links).resList.map (fun resource => (resource.url, resource.rt)) =
      (postedItems links).map fun item => (item.url, item.rt) := by
  obtain ⟨numbered, distinct, typed⟩ := reusable
  have written : (postedItems links).map PostedItem.wanted = (postedItems links).map fun item =>
    (item.url, item.rt) :=
    map_congr_left fun item member => by
      rw [PostedItem.wanted, PostedItem.written_of_numbered (numbered item member)]
  rw [renewResources_pulls, written, pulls_of_nodup (by rw [map_map]; exact distinct),
    map_map, map_map]
  refine map_congr_left fun item member => ?_
  simp only [Function.comp_apply]
  cases found : client.resList.find? (·.url = item.url) with
  | none => rfl
  | some resource =>
    have url : resource.url = item.url := by simpa using List.find?_some found
    rw [Option.getD_some, url, typed item member resource found]

/-- The resources are replaced exactly where the links can be taken as they are. -/
theorem replaced_renewResources_iff :
    Replaced links (client.renewResources links).resList ↔ Reusable links client.resList := by
  constructor
  · rintro ⟨distinct, urls, types⟩
    rw [renewResources_urls] at distinct urls
    have numbered := numbered_of_sameUrls distinct fun url member => (urls url).mp member
    have written : (postedItems links).map (·.written) = (postedItems links).map (·.url) :=
      map_congr_left fun item member => PostedItem.written_of_numbered (numbered item member)
    rw [written] at distinct
    refine ⟨numbered, distinct, fun item member resource found => ?_⟩
    -- The resource that is there is pulled, so its type is one given for this url, and only the
    -- item gives one.
    have wanted : item.wanted = (item.url, item.rt) := by
      rw [PostedItem.wanted, PostedItem.written_of_numbered (numbered item member)]
    have url : resource.url = item.url := by simpa using List.find?_some found
    have pulled : resource ∈ (client.renewResources links).resList := by
      rw [renewResources_pulls, pulls_of_nodup (by rw [map_map]; exact written ▸ distinct)]
      refine mem_map.mpr ⟨item.wanted, mem_map_of_mem member, ?_⟩
      rw [wanted, found]
      rfl
    obtain ⟨other, otherMember, otherUrl, otherRt⟩ := types resource pulled
    obtain rfl : other = item :=
      inj_on_of_nodup_map distinct otherMember member (otherUrl.trans url)
    exact otherRt.symm
  · intro reusable
    have renewed := reusable.renewed
    have urls :
        (client.renewResources links).resList.map (·.url) = (postedItems links).map (·.url) := by
      have firsts := congrArg (List.map Prod.fst) renewed
      rwa [map_map, map_map] at firsts
    refine ⟨?_, ?_, fun resource member => ?_⟩
    · rw [urls]
      exact reusable.distinct
    · rw [urls]
      exact fun _ => Iff.rfl
    · have pair := mem_map_of_mem (f := fun resource => (resource.url, resource.rt)) member
      rw [renewed] at pair
      obtain ⟨item, itemMember, same⟩ := mem_map.mp pair
      exact ⟨item, itemMember, congrArg Prod.fst same, congrArg Prod.snd same⟩

end Replaced

/-! ## What is not touched -/

/-- A resource as it is named in the directory. -/
def ResObject.entry (resource : ResObject) : CString × CString := (resource.url, resource.rt)

/-- Whether the resources are replaced shows in their urls and types. -/
theorem replaced_congr {links : List RdLink} {resources others : List ResObject}
    (same : resources.map ResObject.entry = others.map ResObject.entry) : Replaced links resources ↔
    Replaced links others := by
  have transfer :
      ∀ {one other : List ResObject}, one.map ResObject.entry = other.map ResObject.entry →
      Replaced links one → Replaced links other := by
    intro one other same replaced
    have urls : one.map (·.url) = other.map (·.url) := by
      have firsts := congrArg (List.map Prod.fst) same
      rwa [map_map, map_map] at firsts
    refine ⟨urls ▸ replaced.distinct, fun url => urls ▸ replaced.urls url,
      fun resource member => ?_⟩
    have pair := mem_map_of_mem (f := ResObject.entry) member
    rw [← same] at pair
    obtain ⟨old, oldMember, oldEntry⟩ := mem_map.mp pair
    obtain ⟨item, itemMember, url, rt⟩ := replaced.types old oldMember
    exact ⟨item, itemMember, url.trans (congrArg Prod.fst oldEntry),
      rt.trans (congrArg Prod.snd oldEntry)⟩
  exact ⟨transfer same, transfer same.symm⟩

theorem map_entry_modify (config : ObjectConfig) (index : Nat) (resources : List ResObject) :
    (resources.modify index (configure config)).map ResObject.entry =
      resources.map ResObject.entry := by
  induction resources generalizing index with
  | nil => cases index <;> rfl
  | cons resource rest ih =>
    cases index with
    | zero =>
      rw [modify_zero_cons, map_cons, map_cons]
      refine congrArg (· :: rest.map ResObject.entry) ?_
      unfold configure
      split
      · rfl
      · rfl
    | succ index => rw [modify_succ_cons, map_cons, map_cons, ih]

/-- Configuration changes neither urls nor types. -/
theorem applyConfig_entries (file : Option DeviceCfg) (client : Client) :
    (client.applyConfig file).resList.map ResObject.entry = client.resList.map ResObject.entry := by
  have objects : ∀ (entries : List (CString × ObjectConfig)) (client : Client),
      (entries.foldl applyObjectConfig client).resList.map ResObject.entry =
      client.resList.map ResObject.entry := by
    intro entries
    induction entries with
    | nil => exact fun _ => rfl
    | cons entry rest ih =>
      intro client
      rw [foldl_cons, ih]
      unfold applyObjectConfig
      split
      · rfl
      · exact map_entry_modify _ _ _
  unfold applyConfig
  split
  · rfl
  · exact objects _ _

end Client

/-! ## Registrations -/

namespace Directory

open Client

section Registration

variable {directory next : Directory} {agentId : Option CString}
  {file : Option DeviceCfg} {post : RdPost}
  {source : Option CString} {di : CString} {id : Nat}

/-- The resources a device has, none when it is not known. -/
def resourcesOf (di : CString) (directory : Directory) : List ResObject :=
  ((directory.findClient di).map (·.resList)).getD []

theorem mem_update {change : Client → Client} {client : Client} (member : client ∈ directory.list)
    (same : client.id = id) : change client ∈ (update id change directory).list :=
  mem_map.mpr ⟨client, member, if_pos same⟩

/-- The device is in the directory after `HandleRdPost`, with the resources it had. -/
theorem handleRdPost_mem (directory : Directory) (di : CString) (st dt settings : Option CString)
    (ttl : Int32) : ∃ client ∈ (handleRdPost di st dt ttl settings directory).2.list,
    client.id = (handleRdPost di st dt ttl settings directory).1 ∧
    client.resList = directory.resourcesOf di := by
  unfold handleRdPost resourcesOf
  cases found : directory.findClient di with
  | some client =>
    exact ⟨register st dt ttl settings client, mem_update (findClient_some found).1 rfl, rfl, rfl⟩
  | none => exact ⟨register st dt ttl settings (.new directory.newId di), mem_cons_self, rfl, rfl⟩

/-- What a registration says of an object leaves the resources of its links. -/
theorem describe_entries (source : Option CString) (post : RdPost) (file : Option DeviceCfg)
    (client : Client) : (describe source post file client).resList.map ResObject.entry =
      (client.renewResources post.links).resList.map ResObject.entry := by
  unfold describe
  rw [applyConfig_entries, renewResources_pulls, renewResources_pulls]

/-- A registration that is taken renews the resources of its device. -/
theorem handleRdFromOneDevice_renews (device : postDevice agentId post = some di)
    (taken : handleRdFromOneDevice agentId file post source directory = (some id, next)) :
    ∃ before : Client, before.resList = directory.resourcesOf di ∧
    ∃ client ∈ next.list, client.id = id ∧ client.resList.map ResObject.entry =
      (before.renewResources post.links).resList.map ResObject.entry := by
  unfold handleRdFromOneDevice at taken
  rw [device] at taken
  simp only at taken
  split at taken
  · cases taken
  obtain ⟨client, member, sameId, resources⟩ :=
    handleRdPost_mem directory di post.st post.dt post.settings post.ttl
  simp only [Prod.mk.injEq, Option.some.injEq] at taken
  obtain ⟨rfl, rfl⟩ := taken
  cases post.aliasName with
  | none =>
    refine ⟨client, resources, _, mem_update member sameId, ?_, describe_entries _ post file client⟩
    exact (congrArg Names.id (describe_names _ post file client)).trans sameId
  | some aliasName =>
    refine ⟨{ client with aliasName := aliasName }, resources, _,
      mem_update (mem_update member sameId) sameId, ?_, describe_entries _ post file _⟩
    exact (congrArg Names.id (describe_names _ post file _)).trans sameId

/-- However the directory came to be as it is: after a registration of a device, its urls were
written inside their buffer and its resources are those of the links, exactly where the urls fit,
each is named once and none by an instance `-1`, and what is there has the type now given. The
resources then are what the links say, whatever they were before. -/
theorem handleRdFromOneDevice_replaces_iff (device : postDevice agentId post = some di)
    (taken : handleRdFromOneDevice agentId file post source directory = (some id, next)) :
    ∃ client ∈ next.list, client.id = id ∧
    (FitsResUri post.links ∧ Replaced post.links client.resList ↔
      FitsResUri post.links ∧ Reusable post.links (directory.resourcesOf di)) ∧
    (Reusable post.links (directory.resourcesOf di) →
      client.resList.map (fun resource => (resource.url, resource.rt)) =
      (postedItems post.links).map fun item => (item.url, item.rt)) := by
  obtain ⟨before, resources, client, member, sameId, entries⟩ :=
    handleRdFromOneDevice_renews device taken
  refine ⟨client, member, sameId, and_congr_right fun _ => ?_, fun reusable => ?_⟩
  · rw [replaced_congr entries, replaced_renewResources_iff, resources]
  · exact entries.trans (Reusable.renewed (resources ▸ reusable))

/-- The device `"d"` registers with these links. -/
def postD (links : List RdLink) : RdPost :=
  ⟨some (.ofBytes [0x64]), none, none, none, none, -1, none, links, none⟩

/-- The link `"/a"` with a type of one letter. -/
def linkA (type : UInt8) : RdLink := ⟨some (.ofBytes [0x2F, 0x61]), .text (.ofBytes [type]), none⟩

/-- The link `"/b"` with the instances 0 and 3. -/
def linkB : RdLink := ⟨some (.ofBytes [0x2F, 0x62]), .text (.ofBytes [0x79]), some [0, 3]⟩

/-- The device has registered with `"/a"` and `"/c"`. -/
def registeredD : Directory :=
  (handleRdFromOneDevice none none (postD [linkA 0x78, ⟨some (.ofBytes [0x2F, 0x63]),
    .text (.ofBytes [0x7A]), none⟩]) none start).2

/-- It registers again with `"/a"`, and with the instances of `"/b"` in the place of `"/c"`. -/
theorem handleRdFromOneDevice_replaces_iff_again :
    ∃ client ∈
      (handleRdFromOneDevice none none (postD [linkA 0x78, linkB]) none registeredD).2.list,
    (FitsResUri [linkA 0x78, linkB] ∧ Replaced [linkA 0x78, linkB] client.resList) ∧
    client.resList.length = 3 := by
  have taken : handleRdFromOneDevice none none (postD [linkA 0x78, linkB]) none registeredD =
    (some 0, (handleRdFromOneDevice none none (postD [linkA 0x78, linkB]) none registeredD).2) :=
    rfl
  have typed : ∀ item ∈ postedItems [linkA 0x78, linkB],
    ∀ resource ∈ (registeredD.resourcesOf (.ofBytes [0x64])).find? (·.url = item.url),
    resource.rt = item.rt := by decide
  have reusable : Reusable [linkA 0x78, linkB] (registeredD.resourcesOf (.ofBytes [0x64])) :=
    ⟨by decide, by decide, typed⟩
  have fits : FitsResUri [linkA 0x78, linkB] := by
    unfold FitsResUri
    decide
  obtain ⟨client, member, -, replaces, same⟩ := handleRdFromOneDevice_replaces_iff rfl taken
  refine ⟨client, member, replaces.mpr ⟨fits, reusable⟩, ?_⟩
  have length := congrArg List.length (same reusable)
  rwa [length_map, length_map] at length

/-- The link comes again with another type. -/
theorem handleRdFromOneDevice_changedType_fails :
    ∃ client, (runAll perform [.post none none (postD [linkA 0x78]) none,
      .post none none (postD [linkA 0x79]) none] start).map (·.list) = some [client] ∧
    ¬Replaced [linkA 0x79] client.resList := by
  refine ⟨_, rfl, fun replaced => ?_⟩
  obtain ⟨item, member, -, rt⟩ := replaced.types _ mem_cons_self
  obtain rfl := mem_singleton.mp member
  exact absurd rt (by decide)

end Registration

end Directory

end Idrm.Devices
