import Idrm.Devices.Partition
import Idrm.Devices.PostReports

/-!
# The resources of refresher points

A refresher point holds a pointer to the resource object it reads. The objects belong to the
devices: a registration takes over the objects whose urls it names, makes what is new, and
frees the rest, and a removal frees all of a device. The pointer is set when a point is made
for a known device and when its device goes online. An object that is freed takes the monitor
for `/ibroker/dp` from the point for its url, and the point goes with its last monitor, also
where it waits and stays in the waiting list.

Here the objects have addresses, beside the directory and the refresher, which know them by
their contents.
-/

namespace Idrm.Devices

open Idrm.Lib Function Option List

/-- A resource object: its address and its url. -/
structure ResourceRef where
  address : Nat
  url : CString
deriving DecidableEq

/-- The object has this url. -/
def ResourceRef.hasUrl (url : CString) (object : ResourceRef) : Bool := object.url = url

/-- The directory with the resource objects of its devices, and the refresher with the
`m_assocated_resource` of its points. -/
structure Bindings where
  directory : Directory
  objects : Nat → List ResourceRef
  nextAddress : Nat
  refresher : Refresher
  associated : Nat → Option Nat

namespace Bindings

/-- An agent that has just started. -/
def start : Bindings := ⟨.start, fun _ => [], 0, .start, fun _ => none⟩

/-! ## The resource objects of a device -/

/-- `CClient::HandleRdPost`: the object with this url leaves the list, or is made. -/
def takeObject (url : CString) (state : List ResourceRef × Nat) :
    ResourceRef × (List ResourceRef × Nat) :=
  match state.1.find? (·.hasUrl url) with
  | none => (⟨state.2, url⟩, state.1, state.2 + 1)
  | some object => (object, state.1.eraseP (·.hasUrl url), state.2)

/-- An object is added to those collected so far. -/
def collectObject (state : List ResourceRef × (List ResourceRef × Nat)) (url : CString) :
    List ResourceRef × (List ResourceRef × Nat) :=
  ((takeObject url state.2).1 :: state.1, (takeObject url state.2).2)

/-- The urls a link names. -/
def linkUrls (link : Client.RdLink) : List CString :=
  match link.href, link.rt.given with
  | some href, some _ => link.urls href
  | _, _ => []

/-- The links of a registration: the objects that they take, the last one first, and what they
leave in the list. -/
def collectObjects (links : List Client.RdLink) (objects : List ResourceRef) (nextAddress : Nat) :
    List ResourceRef × (List ResourceRef × Nat) :=
  (links.flatMap linkUrls).foldl collectObject ([], objects, nextAddress)

/-- `URI_IBROKER_DP`, which is `"/ibroker/dp"` -/
def uriIbrokerDp : CString :=
  .ofBytes [0x2F, 0x69, 0x62, 0x72, 0x6F, 0x6B, 0x65, 0x72, 0x2F, 0x64, 0x70]

/-- `FreeAllRes`: each object is deleted, and its destructor `~CResource` calls
`DelRefresherPoint`. -/
def freeAllRes (client : Client) (objects : List ResourceRef) (refresher : Refresher) :
    Option Refresher :=
  objects.foldlM (fun refresher object => refresher.delRefresherPoint client.epname object.url
    uriIbrokerDp) refresher

/-- `handle_plugin_resource_post` frees nothing. -/
def addPluginObjects (links : List Client.RdLink) (objects : List ResourceRef) (nextAddress : Nat) :
    List ResourceRef × Nat :=
  links.foldl (fun state link =>
    match link.href with
    | none => state
    | some href =>
      ((takeObject href state).1 :: (takeObject href state).2.1, (takeObject href state).2.2))
    (objects, nextAddress)

/-- `UrlMatchResource` -/
def urlMatchObject (url : CString) (objects : List ResourceRef) : Option Nat :=
  (objects.find? fun object => Url.checkUrlStart url.bytes object.url.bytes ≠ 0).map (·.address)

/-! ## The events -/

/-- The point waits for the device, and is bound to it when the device goes online. -/
def bindsTo (client : Client) (refresher : Refresher) (id : Nat) : Bool :=
  id ∈ refresher.waitingList ∧ (refresher.points id).any (client.hasId ·.clientId)

/-- The objects of one device are replaced. -/
def setObjects (client : Nat) (renewed : List ResourceRef × Nat) (bindings : Bindings) : Bindings :=
  { bindings with
    objects := update bindings.objects client renewed.1
    nextAddress := renewed.2 }

/-- `HandleClientStatus` of a device that is online. -/
def goOnline (client : Client) (bindings : Bindings) : Option Bindings := do
  let refresher ← bindings.refresher.handleClientStatus client true
  some
    { bindings with
      refresher := refresher
      associated := fun id =>
        if bindsTo client bindings.refresher id then
          (bindings.refresher.points id).bind fun point => urlMatchObject point.resourceUrl
            (bindings.objects client.id)
        else bindings.associated id }

/-- `handle_rd_from_one_device`; `RenewResources` frees the objects that are left before it takes
the others over. -/
def handleRdFromOneDevice (agentId : Option CString) (file : Option Client.DeviceCfg)
    (post : Client.RdPost) (source : Option CString) (bindings : Bindings) : Option Bindings :=
  let (id, directory) := bindings.directory.handleRdFromOneDevice agentId file post source
  let bindings := { bindings with directory := directory }
  match id.bind fun id => directory.list.find? (·.id = id) with
  | none => some bindings
  | some client =>
    if (Directory.postDevice agentId post).isSome then do
      let collected := collectObjects post.links (bindings.objects client.id) bindings.nextAddress
      let refresher ← freeAllRes client collected.2.1 bindings.refresher
      goOnline client (setObjects client.id (collected.1.reverse, collected.2.2)
        { bindings with refresher := refresher })
    else
      some (setObjects client.id
        (addPluginObjects post.links (bindings.objects client.id) bindings.nextAddress) bindings)

/-- `one_device_delete`; `~CClient` frees the objects, and then the user data by a call of
`SetUserData` that copies the string `NULL`. -/
def oneDeviceDelete (di : Option CString) (bindings : Bindings) : Option Bindings :=
  match di.bind (fun di => bindings.directory.findClient di) with
  | none => some bindings
  | some client => do
      let refresher ← bindings.refresher.handleClientStatus client false
      let refresher ← freeAllRes client (bindings.objects client.id) refresher
      if client.userData.isSome then none
      else
        some
          { bindings with
            directory := bindings.directory.freeClient client
            objects := update bindings.objects client.id []
            refresher := refresher }

/-- `NewRefresherPoint` -/
def newRefresherPoint (agentId : Option CString) (device resource : CString)
    (para : RefresherPoint.FresherPara) (bindings : Bindings) : Option Bindings := do
  let refresher ← bindings.refresher.newRefresherPoint agentId bindings.directory
    device resource para
  -- A point that was there already keeps its pointer.
  let associated :=
    if refresher.newPoint = bindings.refresher.newPoint then bindings.associated
    else
      update bindings.associated bindings.refresher.newPoint
        ((bindings.directory.findClient (Directory.tryUseLocalId agentId device)).bind fun client =>
          urlMatchObject resource (bindings.objects client.id))
  some { bindings with refresher := refresher, associated := associated }

/-- What happens to devices and points. -/
inductive Event where
  | post (agentId : Option CString) (file : Option Client.DeviceCfg) (post : Client.RdPost)
      (source : Option CString)
  | delete (di : Option CString)
  | init (agentId : Option CString) (file : Option Client.DeviceCfg)
  | newRefresherPoint (agentId : Option CString) (device resource : CString)
      (para : RefresherPoint.FresherPara)
  | delRefresherPoint (device resource purl : CString)
  | markAllFlagged (device : Option CString)
  | removeAllFlagged (purl : CString)
  | onDataPoint (now : UInt64) (notified : UInt32) (device uri : CString) (payloadLen : Nat)
  | runRefresh (now : UInt64) (silent : Nat → Bool) (read : Nat → Int32)

/-- One event. -/
def perform : Event → Bindings → Option Bindings
  | .post agentId file post source, bindings =>
    bindings.handleRdFromOneDevice agentId file post source
  | .delete di, bindings => bindings.oneDeviceDelete di
  | .init agentId file, bindings =>
    some { bindings with directory := bindings.directory.initResourceDirectory agentId file }
  | .newRefresherPoint agentId device resource para, bindings =>
    bindings.newRefresherPoint agentId device resource para
  | .delRefresherPoint device resource purl, bindings =>
    (bindings.refresher.delRefresherPoint device resource purl).map fun refresher =>
      { bindings with refresher := refresher }
  | .markAllFlagged device, bindings =>
    (bindings.refresher.markAllFlagged device).map fun refresher =>
      { bindings with refresher := refresher }
  | .removeAllFlagged purl, bindings =>
    (bindings.refresher.removeAllFlagged purl).map fun refresher =>
      { bindings with refresher := refresher }
  | .onDataPoint now notified device uri payloadLen, bindings =>
    (bindings.refresher.onDataPoint now notified device uri payloadLen).map fun refresher =>
      { bindings with refresher := refresher }
  | .runRefresh now silent read, bindings =>
    (bindings.refresher.runRefresh now silent read).map fun refresher =>
      { bindings with refresher := refresher }

/-! ## What a registration takes over -/

/-- What is taken out is the first object with the url, if there is one. -/
theorem takeObject_rest (url : CString) (objects : List ResourceRef) (nextAddress : Nat) :
    (takeObject url (objects, nextAddress)).2.1 = objects.eraseP (·.hasUrl url) := by
  rw [takeObject]
  split
  · rename_i missing
    refine (eraseP_of_forall_not fun object member => ?_).symm
    exact List.find?_eq_none.mp missing object member
  · rfl

/-- The object with the url is taken. -/
theorem takeObject_found {url : CString} {objects : List ResourceRef} {object : ResourceRef}
    (found : objects.find? (·.hasUrl url) = some object) (nextAddress : Nat) :
    (takeObject url (objects, nextAddress)).1 = object := by
  rw [takeObject]
  simp only [found]

variable {objects : List ResourceRef} {object : ResourceRef}

/-- An object is taken out, or stays. -/
theorem takeObject_keeps (url : CString) (member : object ∈ objects)
    (nextAddress : Nat) : object = (takeObject url (objects, nextAddress)).1 ∨
      object ∈ (takeObject url (objects, nextAddress)).2.1 := by
  cases found : objects.find? (·.hasUrl url) with
  | none =>
    right
    rw [takeObject_rest, eraseP_of_forall_not (List.find?_eq_none.mp found)]
    exact member
  | some first =>
    rw [takeObject_found found, takeObject_rest]
    obtain ⟨here, front, back, rfl, before⟩ := List.find?_eq_some_iff_append.mp found
    have none : ∀ other ∈ front, ¬other.hasUrl url = true := by
      intro other inFront
      rw [Bool.not_eq_true, ← Bool.not_eq_true']
      exact before other inFront
    rw [eraseP_append_right _ none, eraseP_cons_of_pos here]
    rcases mem_append.mp member with inFront | behind
    · exact .inr (mem_append_left _ inFront)
    · rcases mem_cons.mp behind with same | inBack
      · exact .inl same
      · exact .inr (mem_append_right _ inBack)

/-- What was taken stays taken. -/
theorem foldl_collectObject_taken (urls : List CString)
    {state : List ResourceRef × (List ResourceRef × Nat)} (taken : object ∈ state.1) :
    object ∈ (urls.foldl collectObject state).1 := by
  induction urls generalizing state with
  | nil => exact taken
  | cons url rest ih =>
    rw [foldl_cons]
    exact ih (mem_cons_of_mem _ taken)

/-- One object with the url is fewer. -/
theorem countP_eraseP_self {url : CString} (some_one : objects.any (·.hasUrl url) = true) :
    (objects.eraseP (·.hasUrl url)).countP (·.hasUrl url) + 1 = objects.countP (·.hasUrl url) := by
  obtain ⟨object, member, here⟩ := List.any_eq_true.mp some_one
  obtain ⟨first, front, back, -, holds, whole, rest⟩ :=
    @exists_of_eraseP _ (fun object : ResourceRef => object.hasUrl url) objects object member here
  rw [rest, whole, countP_append, countP_append, countP_cons_of_pos holds, Nat.add_assoc]

/-- The objects with other urls are as many as before. -/
theorem countP_eraseP_other {url other : CString}
    (different : other ≠ url) (objects : List ResourceRef) :
    (objects.eraseP (·.hasUrl url)).countP (·.hasUrl other) = objects.countP (·.hasUrl other) := by
  induction objects with
  | nil => rfl
  | cons object rest ih =>
    rw [eraseP_cons, countP_cons]
    cases here : object.hasUrl url with
    | false => rw [cond_false, countP_cons, ih]
    | true =>
      have unlike : object.hasUrl other = false :=
        decide_eq_false fun same => different (same.symm.trans (of_decide_eq_true here))
      rw [cond_true, unlike, if_neg Bool.false_ne_true, Nat.add_zero]

/-- An object is taken over when its url is named more often than objects with that url stand
before it. -/
theorem named_taken {object : ResourceRef}
    {urls : List CString} {front back taken : List ResourceRef} {nextAddress : Nat}
    (named : front.countP (·.hasUrl object.url) < urls.count object.url) :
    object ∈ (urls.foldl collectObject (taken, front ++ object :: back, nextAddress)).1 := by
  induction urls generalizing front back taken nextAddress with
  | nil => exact absurd named (Nat.not_lt_zero _)
  | cons url rest ih =>
    rw [foldl_cons, collectObject]
    have left := takeObject_rest url (front ++ object :: back) nextAddress
    have found := @takeObject_found url (front ++ object :: back) object
    rw [eraseP_append] at left
    by_cases same : object.url = url
    · subst same
      rw [count_cons_self] at named
      cases earlier : front.any (·.hasUrl object.url) with
      | true =>
        rw [if_pos earlier] at left
        have fewer := countP_eraseP_self earlier
        generalize takeObject object.url (front ++ object :: back, nextAddress) = result at left
        obtain ⟨first, objects, next⟩ := result
        obtain rfl : objects = _ := left
        exact ih (by omega)
      | false =>
        have itself : object.hasUrl object.url = true := decide_eq_true rfl
        have first : (front ++ object :: back).find? (·.hasUrl object.url) = some object := by
          rw [List.find?_append, List.find?_eq_none.mpr fun other member here => ?_, none_or,
            List.find?_cons, itself]
          exact Bool.false_ne_true (earlier.symm.trans (List.any_eq_true.mpr ⟨other, member, here⟩))
        refine foldl_collectObject_taken rest ?_
        rw [found first]
        exact mem_cons_self
    · rw [count_cons_of_ne fun isUrl => same isUrl.symm] at named
      have stays : object.hasUrl url = false := decide_eq_false same
      have count := countP_eraseP_other same front
      generalize takeObject url (front ++ object :: back, nextAddress) = result at left
      obtain ⟨first, objects, next⟩ := result
      simp only at left ⊢
      split at left
      · rw [left]
        exact ih (by omega)
      · rw [left, eraseP_cons, stays, cond_false]
        exact ih named

/-- A registration keeps the objects that it names. -/
def Named (links : List Client.RdLink) (objects : List ResourceRef) (address : Nat) : Prop :=
  ∃ front object back, objects = front ++ object :: back ∧ object.address = address ∧
    front.countP (·.hasUrl object.url) < (links.flatMap linkUrls).count object.url

/-- An object that is named is kept. -/
theorem Named.renewed {links : List Client.RdLink} {address : Nat}
    (named : Named links objects address) (nextAddress : Nat) :
    address ∈ (collectObjects links objects nextAddress).1.reverse.map (·.address) := by
  obtain ⟨front, object, back, rfl, rfl, often⟩ := named
  have taken := @named_taken object (links.flatMap linkUrls) front back [] nextAddress often
  exact List.mem_map_of_mem (mem_reverse.mpr taken)

/-- The objects of a device that a registration does not name. -/
def unnamed (links : List Client.RdLink) (objects : List ResourceRef) : List ResourceRef :=
  (links.flatMap linkUrls).foldl (fun objects url => objects.eraseP (·.hasUrl url)) objects

/-- They are what its links leave. -/
theorem collectObjects_left (links : List Client.RdLink)
    (objects : List ResourceRef) (nextAddress : Nat) :
    (collectObjects links objects nextAddress).2.1 = unnamed links objects := by
  unfold collectObjects unnamed
  generalize ([] : List ResourceRef) = taken
  induction links.flatMap linkUrls generalizing taken objects nextAddress with
  | nil => rfl
  | cons url rest ih =>
    rw [foldl_cons, foldl_cons, ← takeObject_rest url objects nextAddress]
    exact ih _ _ _

/-- A plugin's registration keeps every object. -/
theorem addPluginObjects_keeps (links : List Client.RdLink) (member : object ∈ objects)
    (nextAddress : Nat) : object ∈ (addPluginObjects links objects nextAddress).1 := by
  rw [addPluginObjects]
  induction links generalizing objects nextAddress with
  | nil => exact member
  | cons link rest ih =>
    rw [foldl_cons]
    cases link.href with
    | none => exact ih member nextAddress
    | some href =>
      refine ih ?_ _
      rcases takeObject_keeps href member nextAddress with taken | left
      · rw [taken]
        exact mem_cons_self
      · exact mem_cons_of_mem _ left

/-! ## No operation brings a point back -/

/-- The points behind an operation were there before it. -/
def Fewer (before after : Refresher) : Prop :=
  ∀ id, (after.points id).isSome → (before.points id).isSome

theorem Fewer.refl (refresher : Refresher) : Fewer refresher refresher := fun _ live => live

theorem Fewer.trans {first second third : Refresher} (one : Fewer first second)
    (two : Fewer second third) : Fewer first third :=
  fun id live => one id (two id live)

open Refresher

variable {refresher next : Refresher} {id : Nat} {point : RefresherPoint}

/-- A point that lives may change. -/
theorem Fewer.setPoint (live : refresher.points id = some point) (content : RefresherPoint) :
    Fewer refresher (setPoint id content refresher) := by
  intro other alive
  by_cases same : other = id
  · rw [same, live]
    rfl
  · change (update refresher.points id (some content) other).isSome at alive
    rwa [update_of_ne same] at alive

theorem Fewer.addResOrder (added : refresher.addResOrder id = some next) :
    Fewer refresher next := by
  obtain ⟨point, live, added⟩ := bind_eq_some_iff.mp added
  split at added
  · cases added
  · obtain ⟨list, -, added⟩ := bind_eq_some_iff.mp added
    cases added
    exact Fewer.setPoint live _

theorem Fewer.removeRes (removed : refresher.removeRes id = some next) : Fewer refresher next := by
  obtain ⟨point, live, removed⟩ := bind_eq_some_iff.mp removed
  cases removed
  exact Fewer.setPoint live _

theorem Fewer.destroy (destroyed : refresher.destroy id = some next) : Fewer refresher next := by
  obtain ⟨point, live, destroyed⟩ := bind_eq_some_iff.mp destroyed
  cases destroyed
  intro other alive
  by_cases same : other = id
  · rw [same, live]
    rfl
  · change (update refresher.points id none other).isSome at alive
    rwa [update_of_ne same] at alive

theorem Fewer.setExpiry {now : UInt64} (set : refresher.setExpiry now id = some next) :
    Fewer refresher next := by
  obtain ⟨point, live, set⟩ := bind_eq_some_iff.mp set
  have written := Fewer.setPoint live { point with valExpiry := point.nextExpiry now }
  dsimp only at set
  split at set
  · cases set
  split at set
  · obtain ⟨removed, removes, adds⟩ := bind_eq_some_iff.mp set
    exact written.trans ((Fewer.removeRes removes).trans (Fewer.addResOrder adds))
  · cases set
    exact written

theorem Fewer.foldlM {step : Refresher → Nat → Option Refresher}
    (keeps : ∀ {refresher next : Refresher} {id : Nat}, step refresher id = some next →
      Fewer refresher next)
    {ids : List Nat} (walked : ids.foldlM step refresher = some next) : Fewer refresher next :=
  foldlM_walk (fun _ state => Fewer refresher state)
    (fun before stepped => before.trans (keeps stepped)) walked (Fewer.refl refresher)

theorem Fewer.runRefresh {now : UInt64} {silent : Nat → Bool} {read : Nat → Int32}
    (ran : refresher.runRefresh now silent read = some next) : Fewer refresher next := by
  obtain ⟨⟨due, refreshed⟩, walked, dated⟩ := bind_eq_some_iff.mp ran
  have read : Fewer refresher refreshed := by
    refine foldlM_walk (fun _ (state : List Nat × Refresher) => Fewer refresher state.2) ?_ walked
      (Fewer.refl refresher)
    intro id rest state after before stepped
    obtain ⟨point, live, stepped⟩ := bind_eq_some_iff.mp stepped
    split at stepped
    · split at stepped
      · cases stepped
      · cases stepped
        exact before.trans (Fewer.setPoint live _)
    · cases stepped
      exact before
  exact read.trans (Fewer.foldlM (fun set => Fewer.setExpiry set) dated)

variable {client : Client}

theorem Fewer.handleClientStatus {online : Bool}
    (handled : refresher.handleClientStatus client online = some next) : Fewer refresher next := by
  unfold Refresher.handleClientStatus at handled
  split at handled
  · refine Fewer.foldlM (fun {refresher next id} stepped => ?_) handled
    obtain ⟨point, live, stepped⟩ := bind_eq_some_iff.mp stepped
    split at stepped
    · have added := Fewer.addResOrder stepped
      exact fun other alive => Fewer.setPoint live _ other (added other alive)
    · cases stepped
      exact Fewer.refl _
  · refine Fewer.foldlM (fun {refresher next id} stepped => ?_) handled
    obtain ⟨point, live, stepped⟩ := bind_eq_some_iff.mp stepped
    split at stepped
    · cases stepped
      exact Fewer.setPoint live _
    · cases stepped
      exact Fewer.refl _

theorem Fewer.markAllFlagged {device : Option CString}
    (marked : refresher.markAllFlagged device = some next) : Fewer refresher next := by
  have flags {refresher next : Refresher} {id : Nat}
      (flagged : flagPoint device refresher id = some next) : Fewer refresher next := by
    obtain ⟨point, live, flagged⟩ := bind_eq_some_iff.mp flagged
    cases flagged
    split
    · exact Fewer.setPoint live _
    · exact Fewer.refl _
  obtain ⟨active, walked, waiting⟩ := bind_eq_some_iff.mp marked
  exact (Fewer.foldlM flags walked).trans (Fewer.foldlM flags waiting)

theorem Fewer.removeFlagged {purl : CString}
    (removed : removeFlagged purl refresher id = some next) : Fewer refresher next := by
  obtain ⟨point, live, removed⟩ := bind_eq_some_iff.mp removed
  split at removed
  · dsimp only at removed
    split at removed
    · have destroyed := Fewer.destroy removed
      exact fun other alive => Fewer.setPoint live _ other (destroyed other alive)
    · cases removed
      exact Fewer.setPoint live _
  · cases removed
    exact Fewer.refl _

theorem Fewer.removeFlaggedWaiting {purl : CString} : ∀ {list : List Nat} {refresher : Refresher},
    removeFlaggedWaiting purl list refresher = some next → Fewer refresher next
  | [], refresher, removed => some.inj removed ▸ Fewer.refl refresher
  | [_], _, removed => by cases removed
  | id :: _ :: rest, refresher, removed => by
      obtain ⟨point, live, removed⟩ := bind_eq_some_iff.mp removed
      split at removed
      · dsimp only at removed
        split at removed
        · cases removed
        · exact (Fewer.setPoint live _).trans (Fewer.removeFlaggedWaiting removed)
      · exact Fewer.removeFlaggedWaiting removed

theorem Fewer.removeAllFlagged {purl : CString}
    (removed : refresher.removeAllFlagged purl = some next) : Fewer refresher next := by
  obtain ⟨midway, active, waiting⟩ := bind_eq_some_iff.mp removed
  exact (Fewer.foldlM (fun stepped => Fewer.removeFlagged stepped) active).trans
    (Fewer.removeFlaggedWaiting waiting)

theorem Fewer.delRefresherPoint {device resource purl : CString}
    (removed : refresher.delRefresherPoint device resource purl = some next) :
    Fewer refresher next := by
  obtain ⟨found, -, removed⟩ := bind_eq_some_iff.mp removed
  cases found with
  | none => exact some.inj removed ▸ Fewer.refl refresher
  | some id =>
    obtain ⟨point, live, removed⟩ := bind_eq_some_iff.mp removed
    dsimp only at removed
    split at removed
    · obtain ⟨unlisted, removes, destroys⟩ := bind_eq_some_iff.mp removed
      exact (Fewer.setPoint live _).trans ((Fewer.removeRes removes).trans (Fewer.destroy destroys))
    · cases removed
      exact Fewer.setPoint live _

theorem Fewer.onDataPoint {now : UInt64}
    {notified : UInt32} {device uri : CString} {payloadLen : Nat}
    (handled : refresher.onDataPoint now notified device uri payloadLen = some next) :
    Fewer refresher next := by
  obtain ⟨found, -, handled⟩ := bind_eq_some_iff.mp handled
  cases found with
  | none => exact some.inj handled ▸ Fewer.refl refresher
  | some id =>
    obtain ⟨point, live, handled⟩ := bind_eq_some_iff.mp handled
    exact (Fewer.setPoint live _).trans (Fewer.setExpiry handled)

variable {para : RefresherPoint.FresherPara}

theorem Fewer.addMonitor (added : refresher.addMonitor para id = some next) :
    Fewer refresher next ∧ next.newPoint = refresher.newPoint := by
  obtain ⟨point, live, added⟩ := bind_eq_some_iff.mp added
  cases added
  exact ⟨Fewer.setPoint live _, rfl⟩

variable {directory : Directory} {device resource : CString}

/-- A point that is new has the next number. -/
theorem createPoint_live
      (created : refresher.createPoint directory device resource = some (id, next)) :
    next.newPoint = refresher.newPoint + 1 ∧
    ∀ other ≠ refresher.newPoint, (next.points other).isSome → (refresher.points other).isSome := by
  unfold Refresher.createPoint at created
  dsimp only at created
  split at created
  · obtain ⟨placed, added, same⟩ := map_eq_some_iff.mp created
    obtain ⟨rfl, rfl⟩ := Prod.mk.inj same
    obtain ⟨point, list, -, -, -, rfl⟩ := addResOrder_some added
    refine ⟨rfl, fun other different live => ?_⟩
    change (update (update refresher.points refresher.newPoint _) refresher.newPoint _ other).isSome
      at live
    rwa [update_of_ne different, update_of_ne different] at live
  · obtain ⟨rfl, rfl⟩ := Prod.mk.inj (some.inj created)
    refine ⟨rfl, fun other different live => ?_⟩
    change (update refresher.points refresher.newPoint _ other).isSome at live
    rwa [update_of_ne different] at live

variable {agentId : Option CString}

/-- At most the new point is new. -/
theorem newRefresherPoint_live
      (made : refresher.newRefresherPoint agentId directory device resource para = some next) :
    (next.newPoint = refresher.newPoint ∧ Fewer refresher next) ∨
    (next.newPoint = refresher.newPoint + 1 ∧ ∀ other ≠ refresher.newPoint,
      (next.points other).isSome → (refresher.points other).isSome) := by
  obtain ⟨found, -, made⟩ := bind_eq_some_iff.mp made
  cases found with
  | some id => exact .inl (Fewer.addMonitor made).symm
  | none =>
    obtain ⟨⟨id, created⟩, creates, adds⟩ := bind_eq_some_iff.mp made
    obtain ⟨fewer, newPoint⟩ := Fewer.addMonitor adds
    obtain ⟨next, live⟩ := createPoint_live creates
    exact .inr ⟨newPoint.trans next, fun other different alive => live other different
      (fewer other alive)⟩

/-! ## What the objects that are freed do -/

/-- A point that loses a monitor is written, or destroyed where it was the last one. -/
theorem delRefresherPoint_cases {device resource purl : CString}
    (deleted : refresher.delRefresherPoint device resource purl = some next) :
    (refresher.findPoint resource device = some none ∧ next = refresher) ∨
    ∃ id point, refresher.findPoint resource device = some (some id) ∧
    refresher.points id = some point ∧ next.waitingList = refresher.waitingList ∧
    next.points = update refresher.points id (if (point.removeMonitor purl).monitors = [] then none
      else some (point.removeMonitor purl)) := by
  obtain ⟨found, searched, deleted⟩ := bind_eq_some_iff.mp deleted
  cases found with
  | none => exact .inl ⟨searched, (some.inj deleted).symm⟩
  | some id =>
    obtain ⟨point, live, deleted⟩ := bind_eq_some_iff.mp deleted
    refine .inr ⟨id, point, searched, live, ?_⟩
    simp only at deleted
    split at deleted
    · rename_i last
      obtain ⟨unlisted, removed, destroyed⟩ := bind_eq_some_iff.mp deleted
      obtain ⟨left, -, removed⟩ := bind_eq_some_iff.mp removed
      cases removed
      obtain ⟨orphan, -, destroyed⟩ := bind_eq_some_iff.mp destroyed
      cases destroyed
      refine ⟨rfl, ?_⟩
      rw [if_pos last]
      simp only [Refresher.setPoint, update_idem]
    · rename_i others
      cases deleted
      exact ⟨rfl, by rw [if_neg others]; rfl⟩

/-- Points only lose monitors for `/ibroker/dp`, or go. -/
structure Trims (before after : Refresher) : Prop where
  waitingList : after.waitingList = before.waitingList
  points : ∀ id point, after.points id = some point → ∃ old, before.points id = some old ∧ Alike old
    point ∧ ∀ monitor ∈ old.monitors, monitor.publishPoint ≠ uriIbrokerDp → monitor ∈ point.monitors

theorem Trims.refl (refresher : Refresher) : Trims refresher refresher :=
  ⟨rfl, fun _ point live => ⟨point, live, .refl point, fun _ member _ => member⟩⟩

theorem Trims.trans {first second third : Refresher} (one : Trims first second)
    (two : Trims second third) : Trims first third := by
  refine ⟨two.waitingList.trans one.waitingList, fun id point live => ?_⟩
  obtain ⟨middle, middleLive, alike, keeps⟩ := two.points id point live
  obtain ⟨old, oldLive, oldAlike, oldKeeps⟩ := one.points id middle middleLive
  refine ⟨old, oldLive,
    ⟨⟨?_, ?_⟩, alike.waiting.trans oldAlike.waiting, alike.parent.trans oldAlike.parent⟩,
    fun monitor member other => keeps monitor (oldKeeps monitor member other) other⟩
  · exact alike.key.clientId.trans oldAlike.key.clientId
  · exact alike.key.resourceUrl.trans oldAlike.key.resourceUrl

theorem Trims.fewer {before after : Refresher} (trims : Trims before after) :
    Fewer before after := by
  intro id live
  obtain ⟨point, live⟩ := isSome_iff_exists.mp live
  obtain ⟨old, oldLive, -⟩ := trims.points id point live
  exact isSome_iff_exists.mpr ⟨old, oldLive⟩

/-- A point that waits for the device still does, unless it is gone. -/
theorem Trims.bindsTo {before after : Refresher} (trims : Trims before after)
    (live : (after.points id).isSome) (waits : Bindings.bindsTo client before id = true) :
    Bindings.bindsTo client after id = true := by
  obtain ⟨point, live⟩ := isSome_iff_exists.mp live
  obtain ⟨old, oldLive, alike, -⟩ := trims.points id point live
  unfold Bindings.bindsTo at waits ⊢
  rw [trims.waitingList, live, any_some, alike.key.clientId]
  rwa [oldLive, any_some] at waits

/-- Other monitors stay. -/
theorem removeMonitor_keeps (purl : CString)
    {monitor : RefresherPara} (member : monitor ∈ point.monitors)
    (other : monitor.publishPoint ≠ purl) : monitor ∈ (point.removeMonitor purl).monitors := by
  unfold RefresherPoint.removeMonitor
  split
  · exact (mem_eraseP_of_neg (p := fun monitor => decide (monitor.publishPoint = purl)) (by
      rwa [decide_eq_true_eq])).mpr member
  · exact member

/-- A freed object only trims points. -/
theorem delRefresherPoint_trims
      (deleted : refresher.delRefresherPoint device resource uriIbrokerDp = some next) :
    Trims refresher next := by
  rcases delRefresherPoint_cases deleted with ⟨-, rfl⟩ | ⟨id, old, -, oldLive, waitingList, points⟩
  · exact .refl next
  refine ⟨waitingList, fun other point live => ?_⟩
  rw [points] at live
  by_cases here : other = id
  · subst here
    rw [update_self] at live
    split at live
    · cases live
    · cases live
      exact ⟨old, oldLive, removeMonitor_alike _ old,
        fun monitor member other => removeMonitor_keeps _ member other⟩
  · rw [update_of_ne here] at live
    exact ⟨point, live, .refl point, fun _ member _ => member⟩

/-- The point is for one of these objects of a device. -/
structure ReadsOf (epname : CString) (objects : List ResourceRef)
    (point : RefresherPoint) : Prop where
  clientId : point.clientId = epname
  listed : point.resourceUrl ∈ objects.map (·.url)

/-- The point has a monitor that stays. -/
def KeepsMonitor (point : RefresherPoint) : Prop :=
  ∃ monitor ∈ point.monitors, monitor.publishPoint ≠ uriIbrokerDp

/-- No waiting point is destroyed with the objects. -/
def SparesFreed (epname : CString) (objects : List ResourceRef) (refresher : Refresher) : Prop :=
  ∀ id point, refresher.points id = some point → point.waiting = true →
    ReadsOf epname objects point → KeepsMonitor point

/-- A point with another monitor has one left. -/
theorem KeepsMonitor.left (keeps : KeepsMonitor point) :
    (point.removeMonitor uriIbrokerDp).monitors ≠ [] := by
  obtain ⟨monitor, member, other⟩ := keeps
  exact ne_nil_of_mem (removeMonitor_keeps _ member other)

section Freed

variable {client : Client} {object : ResourceRef} {objects rest : List ResourceRef}

/-- One object is freed, and the others can be. -/
theorem delRefresherPoint_spares (partition : Partition refresher)
    (spares : SparesFreed client.epname (object :: rest) refresher)
    (deleted : refresher.delRefresherPoint client.epname object.url uriIbrokerDp = some next) :
    Partition next ∧ SparesFreed client.epname rest next := by
  have trims := delRefresherPoint_trims deleted
  refine ⟨partition.delRefresherPoint
    (fun id point live waits clientId resourceUrl => ?_) deleted, ?_⟩
  · exact (spares id point live waits ⟨clientId, resourceUrl ▸ mem_cons_self⟩).left
  · intro id point live waits reads
    obtain ⟨old, oldLive, alike, keeps⟩ := trims.points id point live
    have oldReads : ReadsOf client.epname (object :: rest) old :=
      ⟨alike.key.clientId.symm.trans reads.clientId,
        mem_cons_of_mem _ (alike.key.resourceUrl ▸ reads.listed)⟩
    obtain ⟨monitor, member, other⟩ :=
      spares id old oldLive (alike.waiting.symm.trans waits) oldReads
    exact ⟨monitor, keeps monitor member other, other⟩

/-- The lists stay in order while objects are freed. -/
theorem freeAllRes_partition (partition : Partition refresher)
    (spares : SparesFreed client.epname objects refresher)
    (freed : freeAllRes client objects refresher = some next) :
    Partition next ∧ Trims refresher next := by
  induction objects generalizing refresher with
  | nil =>
    obtain rfl := some.inj freed
    exact ⟨partition, .refl _⟩
  | cons object rest ih =>
    rw [freeAllRes, foldlM_cons] at freed
    obtain ⟨middle, deleted, freed⟩ := bind_eq_some_iff.mp freed
    obtain ⟨kept, sparesRest⟩ := delRefresherPoint_spares partition spares deleted
    obtain ⟨final, trims⟩ := ih kept sparesRest freed
    exact ⟨final, (delRefresherPoint_trims deleted).trans trims⟩

/-- The point for an object goes with it if it has no other monitor. -/
theorem delRefresherPoint_destroys (partition : Partition refresher)
    (live : refresher.points id = some point)
    (last : (point.removeMonitor uriIbrokerDp).monitors = []) (deleted :
      refresher.delRefresherPoint point.clientId point.resourceUrl uriIbrokerDp = some next) :
    next.points id = none := by
  rcases delRefresherPoint_cases deleted with ⟨missed, -⟩ |
    ⟨other, found, isFound, foundLive, -, points⟩
  · exact absurd ⟨rfl, rfl⟩ (findPoint_none partition missed id point live)
  · obtain ⟨known, knownLive, clientId, resourceUrl⟩ := findPoint_some isFound
    obtain rfl := partition.distinct other id known point knownLive live clientId resourceUrl
    obtain rfl := some.inj (live.symm.trans foundLive)
    rw [points, update_self, if_pos last]

/-- A point for something else is left as it is. -/
theorem delRefresherPoint_other {device resource purl : CString}
    (live : refresher.points id = some point) (different : resource ≠ point.resourceUrl)
    (deleted : refresher.delRefresherPoint device resource purl = some next) :
    next.points id = some point := by
  rcases delRefresherPoint_cases deleted with ⟨-, rfl⟩ |
    ⟨other, found, isFound, foundLive, -, points⟩
  · exact live
  · obtain ⟨known, knownLive, -, resourceUrl⟩ := findPoint_some isFound
    have apart : id ≠ other := by
      rintro rfl
      obtain rfl := some.inj (live.symm.trans knownLive)
      exact different resourceUrl.symm
    rw [points, update_of_ne apart, live]

/-- The points for objects go with them where they have no other monitors. -/
theorem freeAllRes_destroys (partition : Partition refresher)
    (spares : SparesFreed client.epname objects refresher)
    (live : refresher.points id = some point) (reads : ReadsOf client.epname objects point)
    (last : (point.removeMonitor uriIbrokerDp).monitors = [])
    (freed : freeAllRes client objects refresher = some next) : next.points id = none := by
  induction objects generalizing refresher with
  | nil => exact absurd reads.listed not_mem_nil
  | cons object rest ih =>
    rw [freeAllRes, foldlM_cons] at freed
    obtain ⟨middle, deleted, freed⟩ := bind_eq_some_iff.mp freed
    obtain ⟨kept, sparesRest⟩ := delRefresherPoint_spares partition spares deleted
    by_cases here : object.url = point.resourceUrl
    · rw [here, ← reads.clientId] at deleted
      have gone := delRefresherPoint_destroys partition live last deleted
      have fewer := (freeAllRes_partition kept sparesRest freed).2.fewer id
      rw [gone] at fewer
      exact not_isSome_iff_eq_none.mp fun alive => Bool.false_ne_true (fewer alive)
    · have listed := (mem_cons.mp reads.listed).resolve_left fun same => here same.symm
      exact ih kept sparesRest (delRefresherPoint_other live here deleted)
        ⟨reads.clientId, listed⟩ freed

end Freed

/-- A device that goes offline leaves the monitors of the points alone. -/
theorem goesOffline_points (handled : refresher.handleClientStatus client false = some next)
    (live : next.points id = some point) :
    ∃ old, refresher.points id = some old ∧ SameKey old point ∧ point.monitors = old.monitors := by
  have walked : refresher.expiredResList.foldlM (goOffline client) refresher = some next := handled
  refine foldlM_walk (fun _ (state : Refresher) => ∀ id point, state.points id = some point →
    ∃ old, refresher.points id = some old ∧ SameKey old point ∧ point.monitors = old.monitors)
    (fun {item rest state after} before stepped => ?_) walked
    (fun id point live => ⟨point, live, ⟨rfl, rfl⟩, rfl⟩) id point live
  obtain ⟨old, oldLive, stepped⟩ := bind_eq_some_iff.mp stepped
  split at stepped
  · cases stepped
    intro id point live
    change update state.points item _ id = some point at live
    by_cases here : id = item
    · subst here
      rw [update_self] at live
      cases live
      obtain ⟨first, firstLive, ⟨clientId, resourceUrl⟩, monitors⟩ := before id old oldLive
      exact ⟨first, firstLive, ⟨clientId, resourceUrl⟩, monitors⟩
    · rw [update_of_ne here] at live
      exact before id point live
  · cases stepped
    exact before

/-! ## Devices keep their numbers -/

/-- A registration goes to the device it finds, under the alias it brings, or to a new one. -/
theorem handleRdFromOneDevice_target (file : Option Client.DeviceCfg) {post : Client.RdPost}
    {source : Option CString} {di : CString} (device : Directory.postDevice agentId post = some di)
    (valid : ¬(post.st = some Directory.standardEp ∧ source = none ∧ post.addr = none)) :
    (∃ client, directory.findClient di = some client ∧
      (directory.handleRdFromOneDevice agentId file post source).1 = some client.id ∧
      (directory.handleRdFromOneDevice agentId file post source).2.names =
      post.aliasName.elim directory.names (Directory.retag client.id · directory.names)) ∨
    (directory.findClient di = none ∧
      (directory.handleRdFromOneDevice agentId file post source).1 = some directory.newId) := by
  unfold Directory.handleRdFromOneDevice
  simp only [device, if_neg valid]
  have described := Directory.describe_names
    (if post.st = some Directory.standardEp ∧ source = none then post.addr else source) post file
  rcases Directory.handleRdPost_names directory di post.st post.dt post.settings post.ttl with
    ⟨client, found, id, names, -⟩ | ⟨missing, id, -, -⟩
  · refine .inl ⟨client, found, congrArg some id, ?_⟩
    rw [Directory.names_update described]
    cases post.aliasName with
    | none => exact names
    | some aliasName =>
      exact (Directory.names_setDeviceAlias aliasName _).trans (by rw [names, id]; rfl)
  · exact .inr ⟨missing, congrArg some id⟩

/-- Only a delete takes a device out. -/
theorem dirStep_keeps {directory next : Directory}
    {event : Directory.RdEvent} (step : Directory.DirStep directory event next)
    (stays : ∀ di, event ≠ .delete di) (member : client ∈ directory.list) :
    ∃ same ∈ next.list, same.id = client.id := by
  have entry : ∃ entry ∈ next.names, entry.id = client.id := by
    have old := Directory.mem_names member
    cases step with
    | same names => exact ⟨client.names, names ▸ old, rfl⟩
    | renames di aliasName target _ _ _ names =>
      rw [names]
      refine ⟨_, List.mem_map_of_mem old, ?_⟩
      split
      · rfl
      · rfl
    | joins di _ _ names => exact ⟨client.names, names ▸ mem_cons_of_mem _ old, rfl⟩
    | inits agent names => exact ⟨client.names, names ▸ mem_cons_of_mem _ old, rfl⟩
    | leaves di => exact absurd rfl (stays (some di))
  obtain ⟨entry, listed, sameId⟩ := entry
  obtain ⟨same, inList, rfl⟩ := List.mem_map.mp listed
  exact ⟨same, inList, sameId⟩

/-- Numbers of devices are not given out again. -/
theorem dirStep_newId {directory next : Directory} {event : Directory.RdEvent}
    (step : Directory.DirStep directory event next) : directory.newId ≤ next.newId := by
  cases step with
  | same _ _ newId => exact newId.ge
  | renames _ _ _ _ _ _ _ _ newId => exact newId.ge
  | joins _ _ _ _ _ newId => exact newId ▸ Nat.le_succ _
  | inits _ _ _ newId => exact newId ▸ Nat.le_succ _
  | leaves _ _ _ _ _ newId => exact newId.ge

theorem newId_freeClient (client : Client) :
    (directory.freeClient client).newId = directory.newId := by
  unfold Directory.freeClient
  split
  · rfl
  · rfl

/-- A device is found by its names. -/
theorem hasId_of_names {one other : Client} (names : one.names = other.names) (name : CString) :
    one.hasId name = other.hasId name := by
  have epname : one.epname = other.epname := congrArg Client.Names.epname names
  have aliasName : one.aliasName = other.aliasName := congrArg Client.Names.aliasName names
  rw [Client.hasId, Client.hasId, epname, aliasName]

/-! ## Every pointer is to an object of a device -/

/-- The object belongs to a device of the directory. -/
def Belongs (bindings : Bindings) (address : Nat) : Prop :=
  ∃ client ∈ bindings.directory.list, address ∈ (bindings.objects client.id).map (·.address)

/-- What the live points read belongs to devices. -/
def NoneDangles (bindings : Bindings) : Prop :=
  ∀ id, (bindings.refresher.points id).isSome → ∀ address, bindings.associated id = some address →
    bindings.Belongs address

/-- The point is for an object that is freed, has no other monitor, and does not wait. -/
def GoesWith (epname : CString) (objects : List ResourceRef) (point : RefresherPoint) : Prop :=
  ReadsOf epname objects point ∧ (point.removeMonitor uriIbrokerDp).monitors = []

/-- What a registration of a known device must spare: it names again what live points read of the
device, unless they wait for it or go with what they read, and no waiting point goes. -/
structure SparesRenewed (client : Client) (aliasName : CString) (links : List Client.RdLink)
    (bindings : Bindings) : Prop where
  read : ∀ id point, bindings.refresher.points id = some point → ∀ address,
    bindings.associated id = some address → address ∈ (bindings.objects client.id).map (·.address) →
    bindsTo { client with aliasName := aliasName } bindings.refresher id ∨
    Named links (bindings.objects client.id) address ∨
    GoesWith client.epname (unnamed links (bindings.objects client.id)) point
  waiting : SparesFreed client.epname (unnamed links (bindings.objects client.id))
    bindings.refresher

/-- A registration gets through and spares the points of its device. A device that is deleted has
no user data and is not read, and the points for its resources have other monitors. The operations
on the refresher destroy no waiting point. -/
def Spares (bindings : Bindings) : Event → Prop
  | .post agentId _ post source => Directory.GetsThrough agentId post source bindings.directory ∧
      ∀ di client, Directory.postDevice agentId post = some di →
        ¬(post.st = some Directory.standardEp ∧ source = none ∧ post.addr = none) →
        bindings.directory.findClient di = some client →
        bindings.SparesRenewed client (post.aliasName.getD client.aliasName) post.links
  | .delete di =>
    ∀ client, di.bind (fun di => bindings.directory.findClient di) = some client →
      client.userData = none ∧ ∀ id point, bindings.refresher.points id = some point →
      (∀ address, bindings.associated id = some address →
      address ∉ (bindings.objects client.id).map (·.address)) ∧
      (ReadsOf client.epname (bindings.objects client.id) point → KeepsMonitor point)
  | .delRefresherPoint device resource purl =>
    SparesWaiting bindings.refresher (.delRefresherPoint device resource purl)
  | .removeAllFlagged purl => SparesWaiting bindings.refresher (.removeAllFlagged purl)
  | _ => True

/-- Devices are told apart, those to come have no objects, the lists of the refresher hold its live
points, and no pointer dangles. -/
structure Owned (bindings : Bindings) : Prop where
  numbered : bindings.directory.Numbered
  unmade : ∀ id, bindings.directory.newId ≤ id → bindings.objects id = []
  partition : Partition bindings.refresher
  noneDangles : bindings.NoneDangles

/-- A fresh agent owns everything. -/
theorem Owned.start : Owned start :=
  ⟨Directory.Numbered.start, fun _ _ => rfl, Partition.start, fun _ live => by cases live⟩

variable {bindings after : Bindings}

/-- What an event on the directory alone keeps. -/
theorem Owned.ofDirectory (owned : Owned bindings) (event : Directory.RdEvent)
    (performed : Directory.perform event bindings.directory = some directory)
    (stays : ∀ di, event ≠ .delete di) : Owned { bindings with directory := directory } := by
  have step := Directory.perform_dirStep owned.numbered performed
  refine ⟨owned.numbered.step step, fun id unmade => owned.unmade id
    ((dirStep_newId step).trans unmade), owned.partition, fun id live address associated => ?_⟩
  obtain ⟨client, member, has⟩ := owned.noneDangles id live address associated
  obtain ⟨same, listed, sameId⟩ := dirStep_keeps step stays member
  exact ⟨same, listed, by rwa [sameId]⟩

/-- What an event on the refresher alone keeps. -/
theorem Owned.ofRefresher {refresher : Refresher}
    (owned : Owned bindings) (fewer : Fewer bindings.refresher refresher)
    (partition : Partition refresher) : Owned { bindings with refresher := refresher } :=
  ⟨owned.numbered, owned.unmade, partition, fun id live => owned.noneDangles id (fewer id live)⟩

/-- A device gets its new objects. -/
theorem setObjects_here (client : Nat) (renewed : List ResourceRef × Nat) :
    (setObjects client renewed bindings).objects client = renewed.1 := update_self ..

/-- The others keep theirs. -/
theorem setObjects_other {client other : Nat}
    (different : other ≠ client) (renewed : List ResourceRef × Nat) :
    (setObjects client renewed bindings).objects other = bindings.objects other :=
  update_of_ne different ..

/-- A device in the directory may get other objects. -/
theorem Owned.unmade_setObjects (owned : Owned bindings) (listed : client ∈ bindings.directory.list)
    (renewed : List ResourceRef × Nat) (id : Nat) (unmade : bindings.directory.newId ≤ id) :
    (setObjects client.id renewed bindings).objects id = [] := by
  have below : client.id < bindings.directory.newId :=
    owned.numbered.below _ (Directory.mem_names listed)
  rw [setObjects_other (below.trans_le unmade).ne']
  exact owned.unmade id unmade

/-- Objects may be added to a device. -/
theorem Owned.addObjects {renewed : List ResourceRef × Nat} (owned : Owned bindings)
    (listed : client ∈ bindings.directory.list)
    (keeps : ∀ object ∈ bindings.objects client.id, object ∈ renewed.1) :
    Owned (setObjects client.id renewed bindings) := by
  refine ⟨owned.numbered, owned.unmade_setObjects listed renewed, owned.partition,
    fun id live address associated => ?_⟩
  obtain ⟨owner, member, has⟩ := owned.noneDangles id live address associated
  refine ⟨owner, member, ?_⟩
  by_cases same : owner.id = client.id
  · rw [same] at has ⊢
    obtain ⟨object, held, rfl⟩ := List.mem_map.mp has
    rw [setObjects_here]
    exact List.mem_map_of_mem (keeps object held)
  · rwa [setObjects_other same]

/-- An object that is found belongs to the device. -/
theorem urlMatchObject_mem {url : CString} {address : Nat}
    (found : urlMatchObject url objects = some address) : address ∈ objects.map (·.address) := by
  obtain ⟨object, first, rfl⟩ := map_eq_some_iff.mp found
  exact List.mem_map_of_mem (mem_of_find?_eq_some first)

/-- A device that registers again renews its objects and then wakes the points that wait for it. -/
theorem Owned.renew {renewed : List ResourceRef × Nat} (owned : Owned bindings)
    (listed : client ∈ bindings.directory.list)
    (spares : ∀ id, (bindings.refresher.points id).isSome → ∀ address, bindings.associated id =
      some address → address ∈ (bindings.objects client.id).map (·.address) →
      bindsTo client bindings.refresher id ∨ address ∈ renewed.1.map (·.address))
    (woken : goOnline client (setObjects client.id renewed bindings) = some after) :
    Owned after := by
  obtain ⟨refresher, handled, woken⟩ := bind_eq_some_iff.mp woken
  cases woken
  refine ⟨owned.numbered, owned.unmade_setObjects listed renewed,
    owned.partition.handleClientStatus handled, fun id live address associated => ?_⟩
  have before := Fewer.handleClientStatus handled id live
  simp only at associated
  split at associated
  · -- The point waited, and is bound to an object that is there now.
    obtain ⟨point, -, found⟩ := bind_eq_some_iff.mp associated
    exact ⟨client, listed, urlMatchObject_mem found⟩
  · rename_i awake
    obtain ⟨owner, member, has⟩ := owned.noneDangles id before address associated
    refine ⟨owner, member, ?_⟩
    by_cases same : owner.id = client.id
    · rw [same] at has ⊢
      rw [setObjects_here]
      exact (spares id before address associated has).resolve_left awake
    · rwa [setObjects_other same]

/-- A registration that spares the points keeps it so. -/
theorem Owned.handleRdFromOneDevice {file : Option Client.DeviceCfg} {post : Client.RdPost}
    {source : Option CString}
    (owned : Owned bindings) (spares : bindings.Spares (.post agentId file post source))
    (handled : bindings.handleRdFromOneDevice agentId file post source = some after) :
    Owned after := by
  have posted := owned.ofDirectory (.post agentId file post source) rfl fun _ same => by cases same
  unfold Bindings.handleRdFromOneDevice at handled
  dsimp only at handled
  split at handled
  · cases handled
    exact posted
  rename_i client found
  obtain ⟨id, target, found⟩ := bind_eq_some_iff.mp found
  have listed := mem_of_find?_eq_some found
  have sameId := List.find?_some found
  obtain rfl : client.id = id := of_decide_eq_true sameId
  split at handled
  · rename_i isDevice
    obtain ⟨di, device⟩ := isSome_iff_exists.mp isDevice
    obtain ⟨refresher, frees, handled⟩ := bind_eq_some_iff.mp handled
    rw [collectObjects_left] at frees
    have valid : ¬(post.st = some Directory.standardEp ∧ source = none ∧ post.addr = none) := by
      intro invalid
      unfold Directory.handleRdFromOneDevice at target
      simp only [device, if_pos invalid] at target
      cases target
    rcases handleRdFromOneDevice_target file device valid with ⟨old, known, isOld, names⟩ |
      ⟨missing, isNew⟩
    · obtain same : client.id = old.id := some.inj (target.symm.trans isOld)
      obtain ⟨read, waiting⟩ := spares.2 di old device valid known
      have renamed : { old with aliasName := post.aliasName.getD old.aliasName }.names ∈
          (bindings.directory.handleRdFromOneDevice agentId file post source).2.names := by
        have before := Directory.mem_names (Directory.findClient_some known).1
        rw [names]
        cases post.aliasName with
        | none => exact before
        | some aliasName => exact List.mem_map.mpr ⟨old.names, before, if_pos rfl⟩
      have sameNames := posted.numbered.unique (Directory.mem_names listed) renamed same
      have epname : client.epname = old.epname := congrArg Client.Names.epname sameNames
      rw [← same, ← epname] at waiting
      obtain ⟨partition, trims⟩ := freeAllRes_partition owned.partition waiting frees
      refine (posted.ofRefresher trims.fewer partition).renew listed
        (fun id live address associated has => ?_) handled
      obtain ⟨point, before⟩ := isSome_iff_exists.mp (trims.fewer id live)
      rcases read id point before address associated (same ▸ has) with waits | named | ⟨reads, last⟩
      · refine .inl (trims.bindsTo live ?_)
        simp only [bindsTo, hasId_of_names sameNames]
        exact waits
      · rw [same]
        exact .inr (named.renewed bindings.nextAddress)
      · rw [← same, ← epname] at reads
        rw [freeAllRes_destroys owned.partition waiting before reads last frees] at live
        cases live
    · -- A new device has no objects yet.
      have none := owned.unmade client.id (some.inj (target.symm.trans isNew)).ge
      have unread : unnamed post.links [] = [] := by
        unfold unnamed
        induction post.links.flatMap linkUrls with
        | nil => rfl
        | cons url rest ih => exact ih
      rw [none, unread] at frees
      obtain rfl := some.inj frees
      refine posted.renew listed (fun id live address associated has => ?_) handled
      rw [none] at has
      cases has
  · cases handled
    exact posted.addObjects listed fun object member =>
      addPluginObjects_keeps post.links member bindings.nextAddress

/-- So does a delete that does. -/
theorem Owned.oneDeviceDelete {di : Option CString}
    (owned : Owned bindings) (spares : bindings.Spares (.delete di))
    (deleted : bindings.oneDeviceDelete di = some after) : Owned after := by
  unfold Bindings.oneDeviceDelete at deleted
  split at deleted
  · cases deleted
    exact owned
  rename_i client found
  obtain ⟨offline, handled, deleted⟩ := bind_eq_some_iff.mp deleted
  obtain ⟨refresher, frees, deleted⟩ := bind_eq_some_iff.mp deleted
  obtain ⟨noData, spares⟩ := spares client found
  rw [noData, isSome_none, if_neg Bool.false_ne_true] at deleted
  cases deleted
  have waiting : SparesFreed client.epname (bindings.objects client.id) offline := by
    intro id point live _ reads
    obtain ⟨old, oldLive, key, monitors⟩ := goesOffline_points handled live
    obtain ⟨monitor, member, other⟩ := (spares id old oldLive).2
      ⟨key.clientId.symm.trans reads.clientId, key.resourceUrl ▸ reads.listed⟩
    exact ⟨monitor, monitors ▸ member, other⟩
  obtain ⟨partition, trims⟩ :=
    freeAllRes_partition (owned.partition.handleClientStatus handled) waiting frees
  have deletes : Directory.perform (.delete di) bindings.directory =
    some (bindings.directory.oneDeviceDelete di) := rfl
  have gone := owned.numbered.step (Directory.perform_dirStep owned.numbered deletes)
  have freed : bindings.directory.oneDeviceDelete di = bindings.directory.freeClient client := by
    rw [Directory.oneDeviceDelete, found]
  rw [freed] at gone
  refine ⟨gone, fun id unmade => ?_, partition, fun id live address associated => ?_⟩
  · rw [newId_freeClient] at unmade
    by_cases same : id = client.id
    · exact same ▸ update_self ..
    · exact (update_of_ne same ..).trans (owned.unmade id unmade)
  have before := Fewer.handleClientStatus handled id (trims.fewer id live)
  obtain ⟨point, isPoint⟩ := isSome_iff_exists.mp before
  obtain ⟨owner, member, has⟩ := owned.noneDangles id before address associated
  have other : owner.id ≠ client.id := fun same =>
    (spares id point isPoint).1 address associated (same ▸ has)
  refine ⟨owner, ?_, ?_⟩
  · rw [Directory.list_freeClient]
    exact mem_filter.mpr ⟨member, decide_eq_true other⟩
  · have untouched : update bindings.objects client.id [] owner.id = bindings.objects owner.id :=
      update_of_ne other ..
    rwa [← untouched] at has

/-- A new point is bound to an object of a device. -/
theorem Owned.newRefresherPoint (owned : Owned bindings)
    (made : bindings.newRefresherPoint agentId device resource para = some after) :
    Owned after := by
  obtain ⟨refresher, called, made⟩ := bind_eq_some_iff.mp made
  cases made
  refine ⟨owned.numbered, owned.unmade, owned.partition.newRefresherPoint called,
    fun id live address associated => ?_⟩
  dsimp only at associated
  rcases newRefresherPoint_live called with ⟨same, fewer⟩ | ⟨next, others⟩
  · rw [if_pos same] at associated
    exact owned.noneDangles id (fewer id live) address associated
  · rw [if_neg (by rw [next]; exact Nat.succ_ne_self _)] at associated
    by_cases new : id = bindings.refresher.newPoint
    · rw [new, update_self] at associated
      obtain ⟨client, found, matched⟩ := bind_eq_some_iff.mp associated
      exact ⟨client, (Directory.findClient_some found).1, urlMatchObject_mem matched⟩
    · rw [update_of_ne new] at associated
      exact owned.noneDangles id (others id new live) address associated

/-- Every event that spares the points keeps it so. -/
theorem Owned.step {event : Event} (owned : Owned bindings) (spares : bindings.Spares event)
    (performed : perform event bindings = some after) : Owned after := by
  cases event with
  | post agentId file post source => exact owned.handleRdFromOneDevice spares performed
  | delete di => exact owned.oneDeviceDelete spares performed
  | init agentId file =>
    cases performed
    exact owned.ofDirectory (.init agentId file) rfl fun _ same => by cases same
  | newRefresherPoint => exact owned.newRefresherPoint performed
  | delRefresherPoint =>
    obtain ⟨refresher, called, rfl⟩ := map_eq_some_iff.mp performed
    exact owned.ofRefresher (Fewer.delRefresherPoint called)
      (owned.partition.delRefresherPoint spares called)
  | markAllFlagged =>
    obtain ⟨refresher, called, rfl⟩ := map_eq_some_iff.mp performed
    exact owned.ofRefresher (Fewer.markAllFlagged called) (owned.partition.markAllFlagged called)
  | removeAllFlagged =>
    obtain ⟨refresher, called, rfl⟩ := map_eq_some_iff.mp performed
    exact owned.ofRefresher (Fewer.removeAllFlagged called)
      (owned.partition.removeAllFlagged called)
  | onDataPoint =>
    obtain ⟨refresher, called, rfl⟩ := map_eq_some_iff.mp performed
    exact owned.ofRefresher (Fewer.onDataPoint called) (owned.partition.onDataPoint called)
  | runRefresh =>
    obtain ⟨refresher, called, rfl⟩ := map_eq_some_iff.mp performed
    exact owned.ofRefresher (Fewer.runRefresh called) (owned.partition.runRefresh called)

/-- In every run whose registrations and deletes spare what is read, and which destroys no waiting
point, every live point reads nothing or an object of a device in the directory, and what the
lists of the refresher hold is alive. -/
theorem noneDangles_of_spares {events : List Event} {final : Bindings}
    (runs : RunsUnder perform Spares start events final) : final.NoneDangles ∧
    ∀ id ∈ final.refresher.expiredResList ++ final.refresher.waitingList,
    (final.refresher.points id).isSome := by
  have owned : Owned final := by
    refine runs.keeps (fun owned spares performed => ?_) Owned.start
    exact owned.step spares performed
  exact ⟨owned.noneDangles, owned.partition.divided.live⟩

/-- The device `"d"` registers with these links. -/
def registered (links : List Client.RdLink) : Event :=
  .post none none ⟨some deviceD, none, none, none, none, 0, none, links, none⟩ none

/-- A link to `"/r"`. -/
def linkR : Client.RdLink := ⟨some resourceR, .text purlP, none⟩

/-- A point reads `"/r"` for this publish point. -/
def reads (purl : CString) : Event := .newRefresherPoint none deviceD resourceR ⟨purl, 30, false, 0⟩

/-- The agent after an event that has a result. -/
def outcome (event : Event) (bindings : Bindings) : Bindings :=
  (perform event bindings).getD bindings

/-- The device is there, and its resource is read for the cloud. -/
def watched : Bindings := outcome (reads uriIbrokerDp) (outcome (registered [linkR]) start)

/-- It registers again with the resource. -/
def renewed : Bindings := outcome (registered [linkR]) watched

/-- And then without it. -/
def unwatched : Bindings := outcome (registered []) renewed

def readAgain : List Event :=
  [registered [linkR], reads uriIbrokerDp, registered [linkR], registered []]

theorem getsThrough_registered {links : List Client.RdLink} (fits : Client.FitsResUri links)
    (directory : Directory) : Directory.GetsThrough none ⟨some deviceD, none, none, none, none, 0,
      none, links, none⟩ none directory := fun _ => fits

theorem noneDangles_readAgain :
    RunsUnder perform Spares start readAgain unwatched ∧ unwatched.NoneDangles ∧
    ∀ id ∈ unwatched.refresher.expiredResList ++ unwatched.refresher.waitingList,
    (unwatched.refresher.points id).isSome := by
  have fits : Client.FitsResUri [linkR] := by
    unfold Client.FitsResUri
    decide
  have known : start.Spares (registered [linkR]) := by
    refine ⟨getsThrough_registered fits _, fun di client device valid found => ?_⟩
    cases device
    cases found
  have again : watched.Spares (registered [linkR]) := by
    refine ⟨getsThrough_registered fits _, fun di client device valid found => ?_⟩
    cases device
    cases found
    refine ⟨fun id point live address associated has => ?_, fun id point live waits => ?_⟩
    · cases id with
      | zero =>
        cases associated
        exact .inr (.inl ⟨[], ⟨0, resourceR⟩, [], rfl, rfl, by decide⟩)
      | succ other => cases live
    · cases id with
      | zero =>
        cases live
        cases waits
      | succ other => cases live
  have without : renewed.Spares (registered []) := by
    refine ⟨getsThrough_registered (fun _ member => absurd member not_mem_nil) _,
      fun di client device valid found => ?_⟩
    cases device
    cases found
    refine ⟨fun id point live address associated has => ?_, fun id point live waits => ?_⟩
    · cases id with
      | zero =>
        cases live
        exact .inr (.inr ⟨⟨rfl, mem_singleton_self _⟩, rfl⟩)
      | succ other => cases live
    · cases id with
      | zero =>
        cases live
        cases waits
      | succ other => cases live
  have runs : RunsUnder perform Spares start readAgain unwatched :=
    .call known rfl (.call trivial rfl (.call again rfl (.call without rfl (.done _))))
  exact ⟨runs, noneDangles_of_spares runs⟩

/-- The device registers again without its resource. -/
def readNoMore : List Event := [registered [linkR], reads purlP, registered []]

/-- The point keeps the address of the object that is freed. -/
theorem noneDangles_readNoMore_fails : ∃ final, runAll perform readNoMore start = some final ∧
    ¬final.NoneDangles := by
  refine ⟨_, rfl, fun noneDangles => ?_⟩
  obtain ⟨client, listed, has⟩ := noneDangles 0 rfl 0 rfl
  obtain rfl := mem_singleton.mp listed
  cases has

end Bindings

end Idrm.Devices
