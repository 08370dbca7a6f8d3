import Idrm.Devices.PostedResources

/-!
# When a registration is reported

`handle_rd_from_one_device` scans the monitors where its flag is raised: for a device that was
there before, for a link that leaves the number of resources as it was, and for resources that are
left. A device that was there is thus reported whatever it says, and a new one for any link;
`handle_plugin_resource_post` raises its flag for the resources that were there.
-/

namespace Idrm.Devices

open Idrm.Lib List

namespace Client

/-- One link of a registration, with the flag `resource_change`. -/
def flagLink (state : Bool × (List ResObject × Client)) (link : RdLink) :
    Bool × (List ResObject × Client) :=
  match link.href, link.rt.given with
  | some _, some _ =>
    let handled := handleLink state.2 link
    (state.1 || decide (state.2.2.resList.length = handled.2.resList.length), handled)
  | _, _ => state

/-- `resource_change` after all links, `known` being whether the device was there. -/
def resourceChange (known : Bool) (links : List RdLink) (client : Client) : Bool :=
  let (flag, _, left) := links.foldl flagLink (known, [], client)
  flag || decide (left.resList.length ≠ 0)

/-- One link of `handle_plugin_resource_post`, with its flag. -/
def flagPluginLink (state : Bool × Client) (link : RdLink) : Bool × Client :=
  match link.href with
  | none => state
  | some href =>
    let (resource, client) := state.2.takeRes href (Directory.pluginType link.rt)
    let added := { client with resList := resource :: client.resList }
    (state.1 || decide (state.2.resList.length = added.resList.length), added)

/-- `resource_change` of `handle_plugin_resource_post` -/
def pluginChange (links : List RdLink) (client : Client) : Bool :=
  (links.foldl flagPluginLink (false, client)).1

/-- A link that names an href and a type. -/
def RdLink.counts (link : RdLink) : Bool := link.href.isSome && link.rt.given.isSome

/-- A url of one list of resources is not in the other. -/
def UrlsDiffer (before after : List ResObject) : Prop :=
  ∃ url, ¬(url ∈ before.map (·.url) ↔ url ∈ after.map (·.url))

end Client

namespace Directory

open Client

/-- Whether `handle_rd_from_one_device` calls `device_rd_monitor_scan`. -/
def scansMonitors (agentId : Option CString) (post : RdPost) (source : Option CString)
    (directory : Directory) : Bool :=
  match postDevice agentId post with
  | none =>
    if source.any (busPrefix <+: ·.bytes) then
      match agentId.bind (fun agent => directory.findClient agent) with
      | none => false
      | some client => pluginChange post.links client
    else false
  | some di =>
    if post.st = some standardEp ∧ source = none ∧ post.addr = none then false
    else
      resourceChange (directory.findClient di).isSome post.links
        ((directory.findClient di).getD (.new directory.newId di))

/-- A device is there that was not, or one has another set of urls than before. -/
def Changes (before after : Directory) : Prop :=
  ∃ client ∈ after.list, ∀ old ∈ before.list, old.id = client.id →
    UrlsDiffer old.resList client.resList

/-- A link names an href that is there already, or that a link before it named. -/
def NamesAgain (links : List RdLink) (resources : List ResObject) : Prop :=
  ∃ front link back href, links = front ++ link :: back ∧ link.href = some href ∧
    (href ∈ resources.map (·.url) ∨ ∃ earlier ∈ front, earlier.href = some href)

/-- A link names an href that is not there. -/
def NamesNew (links : List RdLink) (resources : List ResObject) : Prop :=
  ∃ link ∈ links, ∃ href, link.href = some href ∧ href ∉ resources.map (·.url)

/-- A new resource of a plugin has a type: an array has a first string, or the url is there already,
or a link before it named it. -/
def TypesNew (links : List RdLink) (resources : List ResObject) : Prop :=
  ∀ front link back href types, links = front ++ link :: back → link.href = some href →
    link.rt = .array types → link.rt.given = none → href ∈ resources.map (·.url) ∨
    ∃ earlier ∈ front, earlier.href = some href

/-- `HandleRdPost` writes every url inside `res_uri`, and makes no resource from a type that is
`NULL`. -/
def GetsThrough (agentId : Option CString) (post : RdPost) (source : Option CString)
    (directory : Directory) : Prop :=
  match postDevice agentId post with
  | some _ => ¬(post.st = some standardEp ∧ source = none ∧ post.addr = none) →
      FitsResUri post.links
  | none =>
    source.any (busPrefix <+: ·.bytes) = true →
      ∀ client ∈ agentId.bind (fun agent => directory.findClient agent),
      (∀ link ∈ post.links, ∀ href ∈ link.href, href.bytes.length < resUriSize) ∧
      TypesNew post.links client.resList

/-- The registrations that are reported exactly where they change something: a device that was
there gains or loses a url, a new one has a link that counts, and a plugin names something again
where it names something new. -/
def ReportedRightly (agentId : Option CString) (post : RdPost) (source : Option CString)
    (directory : Directory) : Prop :=
  match postDevice agentId post with
  | some di =>
    post.st = some standardEp ∧ source = none ∧ post.addr = none ∨
    match directory.findClient di with
    | some client => ∃ url,
        ¬(url ∈ client.resList.map (·.url) ↔ url ∈ (postedItems post.links).map (·.written))
    | none => ∃ link ∈ post.links, link.counts = true
  | none =>
    source.any (busPrefix <+: ·.bytes) = true →
      ∀ client ∈ agentId.bind (fun agent => directory.findClient agent),
        NamesAgain post.links client.resList ↔ NamesNew post.links client.resList

end Directory

namespace Client

section Flags

variable {client : Client}

/-- The flag stays raised. -/
theorem foldl_flagLink_raised (links : List RdLink) (state : List ResObject × Client) :
    (links.foldl flagLink (true, state)).1 = true := by
  induction links generalizing state with
  | nil => rfl
  | cons link rest ih =>
    rw [foldl_cons, flagLink]
    split
    · exact ih _
    · exact ih _

/-- A device that was there is always reported. -/
theorem resourceChange_known (links : List RdLink) : resourceChange true links client = true := by
  have raised := foldl_flagLink_raised links ([], client)
  unfold resourceChange
  simp only [raised, Bool.true_or]

theorem foldl_collect_none (items : List PostedItem)
    (state : List ResObject × Client) (empty : state.2.resList = []) :
    (items.foldl (fun state item => collect item.rt state item.written) state).2.resList = [] := by
  induction items generalizing state with
  | nil => exact empty
  | cons item rest ih =>
    refine ih _ ?_
    simp only [collect, takeRes_pull, empty]
    rfl

/-- A new device is reported for any link that counts. -/
theorem foldl_flagLink_none (links : List RdLink) (flag : Bool)
    (state : List ResObject × Client) (empty : state.2.resList = []) :
    (links.foldl flagLink (flag, state)).1 = (flag || links.any RdLink.counts) ∧
    (links.foldl flagLink (flag, state)).2.2.resList = [] := by
  induction links generalizing flag state with
  | nil => exact ⟨(Bool.or_false flag).symm, empty⟩
  | cons link rest ih =>
    rw [foldl_cons, any_cons]
    by_cases counts : link.counts = true
    · have handled : (handleLink state link).2.resList = [] := by
        rw [handleLink_items]
        exact foldl_collect_none _ state empty
      have flagged : flagLink (flag, state) link = (true, handleLink state link) := by
        rw [RdLink.counts, Bool.and_eq_true, Option.isSome_iff_exists,
          Option.isSome_iff_exists] at counts
        obtain ⟨⟨href, named⟩, rt, typed⟩ := counts
        rw [flagLink, named, typed]
        simp only [handled, empty, decide_true, Bool.or_true]
      rw [flagged, counts]
      simpa using ih true (handleLink state link) handled
    · have skipped : flagLink (flag, state) link = (flag, state) := by
        cases named : link.href with
        | none => rw [flagLink, named]
        | some href =>
          cases typed : link.rt.given with
          | none => rw [flagLink, named, typed]
          | some rt => exact absurd (by rw [RdLink.counts, named, typed]; rfl) counts
      rw [skipped, Bool.eq_false_of_not_eq_true counts, Bool.false_or]
      exact ih flag state empty

theorem resourceChange_new (links : List RdLink) (empty : client.resList = []) :
    resourceChange false links client = links.any RdLink.counts := by
  obtain ⟨flag, left⟩ := foldl_flagLink_none links false ([], client) empty
  unfold resourceChange
  simp only [flag, left, Bool.false_or, length_nil, ne_eq, not_true_eq_false,
    decide_false, Bool.or_false]

end Flags

/-! ## Plugins -/

section Plugin

open Directory

variable {client : Client} {links rest : List RdLink} {link : RdLink}

/-- A plugin's link leaves its url among those of the device. -/
theorem mem_flagPluginLink (flag : Bool) (link : RdLink) (url : CString) :
    url ∈ (flagPluginLink (flag, client) link).2.resList.map (·.url) ↔
      link.href = some url ∨ url ∈ client.resList.map (·.url) := by
  cases named : link.href with
  | none => simp [flagPluginLink, named]
  | some href =>
    rw [flagPluginLink, named]
    simp only [takeRes_pull]
    rw [Option.some_inj, eq_comm]
    exact mem_pull_keys fun _ _ => rfl

/-- It raises the flag where the url was there. -/
theorem flagPluginLink_flag (flag : Bool) (link : RdLink) :
    (flagPluginLink (flag, client) link).1 = true ↔
      flag = true ∨ ∃ href, link.href = some href ∧ href ∈ client.resList.map (·.url) := by
  cases named : link.href with
  | none => simp [flagPluginLink, named]
  | some href =>
    rw [flagPluginLink, named]
    simp only [takeRes_pull, length_cons, pull_length, Bool.or_eq_true, decide_eq_true_eq,
      Option.some_inj, exists_eq_left']
    refine or_congr_right ?_
    split
    · rename_i there
      have some : 0 < client.resList.length := by
        obtain ⟨resource, member, -⟩ := mem_map.mp there
        exact length_pos_of_mem member
      exact iff_of_true (by omega) there
    · rename_i missing
      exact iff_of_false (by omega) missing

/-- The first link names something again, or a later one does once the first is there. -/
theorem namesAgain_cons {resources after : List ResObject}
    (urls : ∀ url, url ∈ after.map (·.url) ↔ link.href = some url ∨ url ∈ resources.map (·.url)) :
    NamesAgain (link :: rest) resources ↔
      (∃ href, link.href = some href ∧ href ∈ resources.map (·.url)) ∨ NamesAgain rest after := by
  constructor
  · rintro ⟨front, again, back, url, split, found, known⟩
    cases front with
    | nil =>
      obtain ⟨rfl, rfl⟩ := List.cons.inj split
      rcases known with there | ⟨earlier, member, -⟩
      · exact .inl ⟨url, found, there⟩
      · cases member
    | cons first front =>
      obtain ⟨rfl, rfl⟩ := List.cons.inj split
      refine .inr ⟨front, again, back, url, rfl, found, ?_⟩
      rcases known with there | ⟨earlier, member, same⟩
      · exact .inl ((urls url).mpr (.inr there))
      · rcases mem_cons.mp member with rfl | member
        · exact .inl ((urls url).mpr (.inl same))
        · exact .inr ⟨earlier, member, same⟩
  · rintro (⟨href, named, there⟩ | ⟨front, again, back, url, rfl, found, known⟩)
    · exact ⟨[], link, rest, href, rfl, named, .inl there⟩
    · refine ⟨link :: front, again, back, url, rfl, found, ?_⟩
      rcases known with there | ⟨earlier, member, same⟩
      · rcases (urls url).mp there with first | there
        · exact .inr ⟨link, mem_cons_self, first⟩
        · exact .inl there
      · exact .inr ⟨earlier, mem_cons_of_mem _ member, same⟩

/-- The flag of a plugin's registration is raised where it names something again. -/
theorem foldl_flagPluginLink (links : List RdLink) (flag : Bool) (client : Client) :
    (links.foldl flagPluginLink (flag, client)).1 = true ↔ flag = true ∨
    NamesAgain links client.resList := by
  induction links generalizing flag client with
  | nil =>
    refine (or_iff_left ?_).symm
    rintro ⟨front, link, back, href, split, -⟩
    cases front <;> cases split
  | cons link rest ih =>
    have step := ih (flagPluginLink (flag, client) link).1 (flagPluginLink (flag, client) link).2
    rw [foldl_cons, step, flagPluginLink_flag flag link,
      namesAgain_cons (mem_flagPluginLink flag link), or_assoc]

/-- The model of the registration and that of its flag handle the same links. -/
theorem foldl_flagPluginLink_client (links : List RdLink) (state : Bool × Client) :
    (links.foldl flagPluginLink state).2 = addPluginResources links state.2 := by
  unfold addPluginResources
  induction links generalizing state with
  | nil => rfl
  | cons link rest ih =>
    rw [foldl_cons, foldl_cons, ih]
    congr 1
    unfold flagPluginLink
    cases link.href with
    | none => rfl
    | some href => rfl

/-- The urls after a plugin's registration. -/
theorem mem_addPluginResources (links : List RdLink) (client : Client) (url : CString) :
    url ∈ (addPluginResources links client).resList.map (·.url) ↔
      url ∈ client.resList.map (·.url) ∨ ∃ link ∈ links, link.href = some url := by
  rw [← foldl_flagPluginLink_client links (false, client)]
  generalize false = flag
  induction links generalizing flag client with
  | nil => simp
  | cons link rest ih =>
    have step := ih (flagPluginLink (flag, client) link).2 (flagPluginLink (flag, client) link).1
    rw [foldl_cons, exists_mem_cons_iff, step, mem_flagPluginLink flag link,
      or_comm (a := link.href = some url), or_assoc]

/-- A plugin's registration only adds urls. -/
theorem urlsDiffer_addPluginResources :
    UrlsDiffer client.resList (addPluginResources links client).resList ↔
    NamesNew links client.resList := by
  unfold UrlsDiffer NamesNew
  simp only [mem_addPluginResources]
  constructor
  · rintro ⟨url, differ⟩
    by_cases there : url ∈ client.resList.map (·.url)
    · exact absurd (iff_of_true there (.inl there)) differ
    · by_cases named : ∃ link ∈ links, link.href = some url
      · obtain ⟨link, member, href⟩ := named
        exact ⟨link, member, url, href, there⟩
      · exact absurd (iff_of_false there (not_or.mpr ⟨there, named⟩)) differ
  · rintro ⟨link, member, href, named, missing⟩
    exact ⟨href, fun same => missing (same.mpr (.inr ⟨link, member, named⟩))⟩

end Plugin

end Client

/-! ## What a registration changes -/

namespace Directory

open Client

section Registration

variable {directory next : Directory} {agentId : Option CString}
  {file : Option DeviceCfg} {post : RdPost}
  {source : Option CString} {di : CString} {id : Nat}

/-- Two changes of one object are one. -/
theorem update_update {middle : Directory}
    {one other : Client → Client} (keeps : ∀ client, (one client).id = client.id)
    (list : middle.list = (update id one directory).list) :
    (update id other middle).list = (update id (other ∘ one) directory).list := by
  unfold update at list ⊢
  rw [list, map_map]
  refine map_congr_left fun client _ => ?_
  simp only [Function.comp_apply]
  by_cases same : client.id = id
  · rw [if_pos same, if_pos ((keeps client).trans same), if_pos same]
  · rw [if_neg same, if_neg same, if_neg same]

/-- Where one object changes, the directory changes as that object's urls do. -/
theorem changes_update (numbered : Numbered directory)
    {client : Client} (member : client ∈ directory.list)
    {change : Client → Client} (keeps : ∀ client, (change client).id = client.id)
    (list : next.list = (update client.id change directory).list) :
    Changes directory next ↔ UrlsDiffer client.resList (change client).resList := by
  constructor
  · rintro ⟨after, afterMember, differs⟩
    rw [list] at afterMember
    obtain ⟨old, oldMember, rfl⟩ := mem_map.mp afterMember
    by_cases same : old.id = client.id
    · obtain rfl := numbered.sameClient oldMember member same
      rw [if_pos rfl] at differs
      exact differs old member (keeps old).symm
    · rw [if_neg same] at differs
      obtain ⟨url, differ⟩ := differs old oldMember rfl
      exact absurd Iff.rfl differ
  · intro differ
    refine ⟨change client, ?_, fun old oldMember same => ?_⟩
    · rw [list]
      exact mem_update member rfl
    · obtain rfl := numbered.sameClient oldMember member (same.trans (keeps client))
      exact differ

/-- A device with a number that was not given is a change. -/
theorem changes_new (numbered : Numbered directory) {client : Client} (member : client ∈ next.list)
    (fresh : client.id = directory.newId) : Changes directory next := by
  refine ⟨client, member, fun old oldMember same => ?_⟩
  exact absurd (same.trans fresh) (numbered.below old.names (mem_names oldMember)).ne

theorem not_changes_self : ¬Changes directory directory := by
  rintro ⟨client, member, differs⟩
  obtain ⟨url, differ⟩ := differs client member rfl
  exact differ Iff.rfl

/-- What a registration does with a device that is there is one change of it, whose resources are
renewed. -/
theorem handleRdFromOneDevice_known (file : Option DeviceCfg)
    {client : Client} (device : postDevice agentId post = some di)
    (accepted : ¬(post.st = some standardEp ∧ source = none ∧ post.addr = none))
    (found : directory.findClient di = some client) :
    ∃ change : Client → Client, (∀ client, (change client).id = client.id) ∧ (handleRdFromOneDevice
      agentId file post source directory).2.list = (update client.id change directory).list ∧
    (change client).resList.map (·.url) = (postedItems post.links).map (·.written) := by
  have ids : ∀ (source : Option CString) (client : Client),
      (describe source post file client).id = client.id :=
    fun source client => congrArg Names.id (describe_names source post file client)
  have urls : ∀ (source : Option CString) (client : Client),
      (describe source post file client).resList.map (·.url) = (postedItems post.links).map
      (·.written) := by
    intro source client
    have entries := congrArg (List.map Prod.fst) (describe_entries source post file client)
    rw [map_map, map_map] at entries
    exact entries.trans (renewResources_urls post.links)
  unfold handleRdFromOneDevice handleRdPost
  simp only [device, found, if_neg accepted]
  -- The object is registered, perhaps given its alias, and described: one change after the other.
  have registers : ∀ client,
    (register post.st post.dt post.ttl post.settings client).id = client.id := fun _ => rfl
  cases post.aliasName with
  | none =>
    exact ⟨_, fun client => (ids _ _).trans (registers client),
      update_update registers rfl, urls _ _⟩
  | some aliasName =>
    have renames : ∀ client : Client,
        ({ register post.st post.dt post.ttl post.settings client with aliasName := aliasName } :
        Client).id = client.id :=
      fun _ => rfl
    exact ⟨_, fun client => (ids _ _).trans (renames client),
      update_update renames (update_update registers rfl), urls _ _⟩

/-- A registration of a device that is not there adds one with a new number. -/
theorem handleRdFromOneDevice_new (file : Option DeviceCfg)
    (device : postDevice agentId post = some di)
    (accepted : ¬(post.st = some standardEp ∧ source = none ∧ post.addr = none))
    (missing : directory.findClient di = none) :
    ∃ client ∈ (handleRdFromOneDevice agentId file post source directory).2.list,
    client.id = directory.newId := by
  have taken : ∃ next,
      handleRdFromOneDevice agentId file post source directory = (some directory.newId, next) := by
    unfold handleRdFromOneDevice handleRdPost
    simp only [device, missing, if_neg accepted]
    exact ⟨_, rfl⟩
  obtain ⟨next, taken⟩ := taken
  obtain ⟨_, _, client, member, sameId, -⟩ := handleRdFromOneDevice_renews device taken
  rw [taken]
  exact ⟨client, member, sameId⟩

/-- After any events, and whatever registration comes then: it gets through, and the monitors are
scanned exactly if it changes the directory, on these registrations and on no others. -/
theorem scansMonitors_iff_changes_iff {events : List RdEvent}
    (ran : runAll perform events start = some directory)
    (agentId : Option CString) (file : Option DeviceCfg) (post : RdPost) (source : Option CString) :
    (GetsThrough agentId post source directory ∧
      (scansMonitors agentId post source directory = true ↔
      Changes directory (handleRdFromOneDevice agentId file post source directory).2)) ↔
    GetsThrough agentId post source directory ∧ ReportedRightly agentId post source directory := by
  refine and_congr_right fun _ => ?_
  have numbered : Numbered directory :=
    runAll_keeps (fun numbered performed => Numbered.step numbered
      (perform_dirStep numbered performed)) ran .start
  unfold scansMonitors ReportedRightly
  cases device : postDevice agentId post with
  | none =>
    unfold handleRdFromOneDevice handlePluginResourcePost
    simp only [device]
    by_cases bus : source.any (busPrefix <+: ·.bytes) = true
    · simp only [bus, if_true, true_implies]
      cases agent : agentId.bind (fun agent => directory.findClient agent) with
      | none =>
        exact iff_of_true (iff_of_false Bool.false_ne_true not_changes_self)
          (fun client member => by cases member)
      | some client =>
        obtain ⟨name, -, found⟩ := Option.bind_eq_some_iff.mp agent
        have changes :
            Changes directory (update client.id (addPluginResources post.links) directory) ↔ _ :=
          changes_update numbered (findClient_some found).1
            (fun other => congrArg Names.id (addPluginResources_names post.links other)) rfl
        simp only [changes, urlsDiffer_addPluginResources]
        have flag := foldl_flagPluginLink post.links false client
        rw [or_iff_right Bool.false_ne_true] at flag
        unfold pluginChange
        rw [flag]
        constructor
        · rintro same other ⟨⟩
          exact same
        · intro all
          exact all client rfl
    · simp only [if_neg bus]
      exact iff_of_true (iff_of_false Bool.false_ne_true not_changes_self)
        (fun named => absurd named bus)
  | some di =>
    by_cases refused : post.st = some standardEp ∧ source = none ∧ post.addr = none
    · have same : (handleRdFromOneDevice agentId file post source directory).2 = directory := by
        unfold handleRdFromOneDevice
        simp only [device, if_pos refused]
      rw [same]
      simp only [if_pos refused]
      exact iff_of_true (iff_of_false Bool.false_ne_true not_changes_self) (.inl refused)
    · simp only [if_neg refused]
      rw [or_iff_right refused]
      cases found : directory.findClient di with
      | some client =>
        obtain ⟨change, keeps, list, urls⟩ := handleRdFromOneDevice_known file device refused found
        rw [changes_update numbered (findClient_some found).1 keeps list]
        simp only [Option.isSome_some, resourceChange_known, true_iff]
        unfold UrlsDiffer
        rw [urls]
      | none =>
        obtain ⟨client, member, fresh⟩ := handleRdFromOneDevice_new file device refused found
        have changes := changes_new numbered member fresh
        simp only [changes, iff_true, Option.isSome_none, Option.getD_none]
        rw [resourceChange_new post.links rfl, any_eq_true]

/-- The device `"d"`, which is there with `/a`, registers without links: that is reported, and a
change. -/
theorem scansMonitors_iff_changes_iff_linkA : ∃ directory : Directory,
    runAll perform [.post none none (postD [linkA 0x78]) none] start = some directory ∧ GetsThrough
      none (postD []) none directory ∧ (scansMonitors none (postD []) none directory = true ↔
      Changes directory (handleRdFromOneDevice none none (postD []) none directory).2) := by
  have ran : runAll perform [.post none none (postD [linkA 0x78]) none] start = some _ := rfl
  refine ⟨_, ran, (scansMonitors_iff_changes_iff ran none none (postD []) none).mpr
    ⟨fun _ item member => ?_, .inr ?_⟩⟩
  · cases member
  · refine ⟨.ofBytes [0x2F, 0x61], fun same => ?_⟩
    cases same.mp mem_cons_self

/-- A new device without a link is there afterwards, and no monitor is scanned. -/
theorem scansMonitors_noLinks_fails : ¬(scansMonitors none (postD []) none start = true ↔
      Changes start (handleRdFromOneDevice none none (postD []) none start).2) := by
  intro same
  refine absurd (same.mpr ?_) (by decide)
  exact ⟨_, mem_cons_self, fun old member => by cases member⟩

end Registration

end Directory

end Idrm.Devices
