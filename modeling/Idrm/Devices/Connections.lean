import Idrm.Devices.ClientManager
import Idrm.Lib.Chain

/-!
# The connections of passive endpoints

A registration over CoAP makes a connection for the address it came from, unless the list
`g_passive_endpoint_conn` has one, gives it to the device, and puts it at the front of the
list. A device frees its old connection when it gets another one, and when it is deleted.

A connection is an object on a heap. A walk over a list that runs in a circle, and an access
to a connection that was freed, have no result. `connection_find` and
`connection_new_incoming` are as their callers assume: a linear search, and a fresh object.
-/

namespace Idrm.Devices

open Idrm.Lib Chained Function Option List

/-- `connection_t`, with an address of type `A`. -/
structure Connection (A : Type) where
  next : Option Nat
  addr : A

instance {A : Type} : Chained (Connection A) where
  next := Connection.next
  setNext pointer connection := { connection with next := pointer }
  next_setNext _ _ := rfl
  setNext_setNext _ _ _ := rfl

/-- The directory, the connections, `g_passive_endpoint_conn`, and the `m_connection` of each
device. -/
structure Endpoints (A : Type) where
  directory : Directory
  heap : Heap (Connection A)
  passiveEndpointConn : Option Nat
  connection : Nat → Option Nat
  nextAddress : Nat

namespace Endpoints

variable {A : Type}

/-- The walk of `remove_connection_from_list`, behind the first connection. -/
def removeBehind (conn : Nat) (heap : Heap (Connection A)) : Nat → Nat → Option Nat →
    Option (Heap (Connection A))
  | _, _, none => some heap
  | 0, _, some _ => none
  | steps + 1, prev, some current => do
      let connection ← heap current
      if conn = current then some (heap.relink prev connection.next)
      else removeBehind conn heap steps current connection.next

/-- `remove_connection_from_list` -/
def removeConnectionFromList (conn : Nat) (endpoints : Endpoints A) : Option (Endpoints A) :=
  match endpoints.passiveEndpointConn with
  | none => some endpoints
  | some first => do
      let connection ← endpoints.heap first
      if conn = first then some { endpoints with passiveEndpointConn := connection.next }
      else
        let heap ← removeBehind conn endpoints.heap endpoints.nextAddress first connection.next
        some { endpoints with heap := heap }

/-- `free` -/
def free (conn : Nat) (endpoints : Endpoints A) : Option (Endpoints A) :=
  (endpoints.heap conn).map fun _ => { endpoints with heap := update endpoints.heap conn none }

/-- `malloc` of a connection. -/
def allocate (connection : Connection A) (endpoints : Endpoints A) : Endpoints A :=
  { endpoints with
    heap := update endpoints.heap endpoints.nextAddress (some connection)
    nextAddress := endpoints.nextAddress + 1 }

/-- `connection_find` -/
def connectionFind [DecidableEq A] (addr : A) (endpoints : Endpoints A) : Option (Option Nat) :=
  listFind (fun connection => decide (connection.addr = addr)) endpoints.heap endpoints.nextAddress
    endpoints.passiveEndpointConn

/-- `SetConnection` -/
def setConnection (client : Nat) (connection : Option Nat) (endpoints : Endpoints A) :
    Option (Endpoints A) := do
  let endpoints ←
    match endpoints.connection client with
    | none => some endpoints
    | some old =>
      if connection ≠ some old then (removeConnectionFromList old endpoints).bind (free old)
        else some endpoints
  some { endpoints with connection := update endpoints.connection client connection }

/-- `handle_rd_on_connection`, of what the payload parses to, if it is an object. -/
def handleRdOnConnection (agentId : Option CString)
    (file : Option Client.DeviceCfg) (payload : Option Client.RdPost)
    (connection : Nat) (endpoints : Endpoints A) : Option (Bool × Endpoints A) :=
  match payload with
  | none => some (false, endpoints)
  | some post =>
    let (client, directory) :=
      endpoints.directory.handleRdFromOneDevice agentId file post (some Directory.connectionSource)
    let endpoints := { endpoints with directory := directory }
    match client with
    | none => some (false, endpoints)
    | some client => (setConnection client (some connection) endpoints).map (true, ·)

/-- `handler_rd_put`, of a request from an address. -/
def handlerRdPut [DecidableEq A] (addr : A)
    (agentId : Option CString) (file : Option Client.DeviceCfg)
    (payload : Option Client.RdPost) (endpoints : Endpoints A) : Option (Endpoints A) := do
  let found ← connectionFind addr endpoints
  let (connection, endpoints) :=
    match found with
    | some connection => (connection, endpoints)
    | none => (endpoints.nextAddress, allocate ⟨endpoints.passiveEndpointConn, addr⟩ endpoints)
  let (handled, endpoints) ← handleRdOnConnection agentId file payload connection endpoints
  if handled then
    let _ ← endpoints.heap connection
    some
      { endpoints with
        heap := endpoints.heap.relink connection endpoints.passiveEndpointConn
        passiveEndpointConn := some connection }
  else free connection endpoints

/-- The address a device is registered with by `handle_rd_post`. -/
def postSource (post : Client.RdPost) (source : Option CString) : Option CString :=
  if post.st = some Directory.standardEp ∧ source = none then post.addr else source

/-- One device of `handle_rd_post`. `created` is what `SetAddress` makes of the address: nothing
when it does not parse, and otherwise what `connection_create` returns. -/
def handleRdPost (agentId : Option CString) (file : Option Client.DeviceCfg) (post : Client.RdPost)
    (source : Option CString) (created : Option (Option A)) (endpoints : Endpoints A) :
    Option (Endpoints A) :=
  let (client, directory) := endpoints.directory.handleRdFromOneDevice agentId file post source
  let endpoints := { endpoints with directory := directory }
  match client, created with
  | some client, some created =>
    if (Directory.postDevice agentId post).isSome ∧
      (postSource post source).any (· ≠ Directory.connectionSource) then
      match created with
      | none => setConnection client none endpoints
      | some addr =>
        setConnection client (some endpoints.nextAddress) (allocate ⟨none, addr⟩ endpoints)
    else some endpoints
  | _, _ => some endpoints

/-- `handle_rd_delete`; the destructor of a device frees its connection. -/
def handleRdDelete (di : Option CString) (endpoints : Endpoints A) : Option (Endpoints A) :=
  match di.bind (fun di => endpoints.directory.findClient di) with
  | none => some endpoints
  | some client => setConnection client.id none
      { endpoints with directory := endpoints.directory.freeClient client }

/-- What reaches the endpoints: a registration over CoAP, one from elsewhere, a removal, and a
data point whose connection is looked up. -/
inductive Request (A : Type) where
  | rdPut (addr : A) (agentId : Option CString) (file : Option Client.DeviceCfg)
      (payload : Option Client.RdPost)
  | rdPost (agentId : Option CString) (file : Option Client.DeviceCfg) (post : Client.RdPost)
      (source : Option CString) (created : Option (Option A))
  | rdDelete (di : Option CString)
  | lookup (addr : A)

/-- One request. -/
def perform [DecidableEq A] : Request A → Endpoints A → Option (Endpoints A)
  | .rdPut addr agentId file payload, endpoints => handlerRdPut addr agentId file payload endpoints
  | .rdPost agentId file post source created, endpoints =>
    handleRdPost agentId file post source created endpoints
  | .rdDelete di, endpoints => handleRdDelete di endpoints
  | .lookup addr, endpoints => (connectionFind addr endpoints).map fun _ => endpoints

/-! ## What every request keeps -/

/-- A connection behind the first one is bypassed. -/
theorem removeBehind_spec {heap : Heap (Connection A)} {prev conn steps : Nat} {rest : List Nat}
    {node : Connection A} (here : heap prev = some node) (linked : Linked heap node.next rest)
    (distinct : (prev :: rest).Nodup) (enough : rest.length ≤ steps) :
    ∃ after, removeBehind conn heap steps prev node.next = some after ∧
    Linked after (some prev) (prev :: rest.erase conn) ∧ Relinked heap after ∧
    ∀ address, address ∉ prev :: rest → after address = heap address := by
  induction rest generalizing prev node steps with
  | nil =>
    have last : node.next = none := linked
    rw [last]
    refine ⟨heap, by cases steps <;> rfl, ⟨rfl, node, here, ?_⟩, .refl heap, fun _ _ => rfl⟩
    exact last
  | cons current rest ih =>
    obtain ⟨pointer, other, there, later⟩ := linked
    obtain ⟨notAgain, distinct⟩ := nodup_cons.mp distinct
    cases steps with
    | zero => exact absurd enough (Nat.not_succ_le_zero _)
    | succ steps =>
      rw [pointer]
      simp only [removeBehind, there, bind_eq_bind, bind_some]
      by_cases same : conn = current
      · subst same
        have notLater : prev ∉ rest := fun member => notAgain (mem_cons_of_mem _ member)
        rw [if_pos rfl, erase_cons_head]
        refine ⟨_, rfl, ⟨rfl, setNext other.next node, ?_, ?_⟩, relinked_relink _ _ _,
          fun address outside => ?_⟩
        · rw [Heap.relink_self, here, map_some]
        · rw [next_setNext]
          exact later.relink notLater _
        · refine Heap.relink_other _ (fun isPrev => outside ?_) heap
          rw [isPrev]
          exact mem_cons_self
      · obtain ⟨after, removes, linked, relinked, elsewhere⟩ :=
          ih there later distinct (Nat.le_of_succ_le_succ enough)
        rw [if_neg same, erase_cons_tail (by simpa using fun isCurrent => same isCurrent.symm)]
        refine ⟨after, removes, ⟨rfl, node, ?_, ?_⟩, relinked, fun address outside => ?_⟩
        · rw [elsewhere prev notAgain, here]
        · show Linked after node.next _
          rw [pointer]
          exact linked
        · exact elsewhere address fun member => outside (mem_cons_of_mem _ member)

variable {endpoints : Endpoints A} {items : List Nat} {limbo : Set Nat}

/-- `remove_connection_from_list` removes a connection, wherever it is. -/
theorem removeConnectionFromList_spec
      (linked : Linked endpoints.heap endpoints.passiveEndpointConn items)
    (distinct : items.Nodup) (enough : items.length ≤ endpoints.nextAddress) (conn : Nat) :
    ∃ head after, removeConnectionFromList conn endpoints =
      some { endpoints with passiveEndpointConn := head, heap := after } ∧
      Linked after head (items.erase conn) ∧ Relinked endpoints.heap after := by
  cases items with
  | nil =>
    have empty : endpoints.passiveEndpointConn = none := linked
    refine ⟨none, endpoints.heap, ?_, rfl, .refl _⟩
    rw [removeConnectionFromList, empty]
    simp only [← empty]
  | cons first rest =>
    obtain ⟨head, node, here, later⟩ := linked
    simp only [removeConnectionFromList, head, here, bind_eq_bind, bind_some]
    by_cases same : conn = first
    · subst same
      rw [if_pos rfl, erase_cons_head]
      exact ⟨_, _, rfl, later, .refl _⟩
    · obtain ⟨after, removes, linked, relinked, -⟩ :=
        @removeBehind_spec A endpoints.heap first conn endpoints.nextAddress rest node here later
          distinct (Nat.le_of_succ_le enough)
      rw [if_neg same, removes, bind_some,
        erase_cons_tail (by simpa using fun isFirst => same isFirst.symm)]
      exact ⟨_, _, rfl, linked, relinked⟩

/-- The list holds connections that were not freed, each once. What a device holds was not
freed either, and is held by no other. The connections in limbo are in no list. -/
structure Intact (limbo : Set Nat) (items : List Nat) (endpoints : Endpoints A) : Prop where
  listed : Listed limbo items endpoints.heap endpoints.passiveEndpointConn endpoints.nextAddress
  held : ∀ client conn, endpoints.connection client = some conn → (endpoints.heap conn).isSome
  apart : ∀ client other conn, endpoints.connection client = some conn →
    endpoints.connection other = some conn → client = other

/-- The directory is not a matter of the connections. -/
theorem Intact.withDirectory (intact : Intact limbo items endpoints) (directory : Directory) :
    Intact limbo items { endpoints with directory := directory } :=
  ⟨intact.listed, intact.held, intact.apart⟩

/-- A new connection is in no list, and no device holds it. -/
theorem Intact.allocate (intact : Intact limbo items endpoints) (connection : Connection A) :
    Intact (insert endpoints.nextAddress limbo) items (allocate connection endpoints) ∧
      ∀ client, endpoints.connection client ≠ some endpoints.nextAddress := by
  have unheld : ∀ client, endpoints.connection client ≠ some endpoints.nextAddress := by
    intro client holds
    exact Nat.lt_irrefl _ (intact.listed.bounded _ (intact.held client _ holds))
  refine ⟨⟨intact.listed.alloc connection, fun client conn holds => ?_, intact.apart⟩, unheld⟩
  have different : conn ≠ endpoints.nextAddress := fun same => unheld client (same ▸ holds)
  show (update endpoints.heap endpoints.nextAddress (some connection) conn).isSome
  rw [update_of_ne different]
  exact intact.held client conn holds

/-- A connection that a device gives up is removed and freed. -/
theorem Intact.giveUp (intact : Intact limbo items endpoints) {client old : Nat}
    (holds : endpoints.connection client = some old) :
    ∃ next, (removeConnectionFromList old endpoints).bind (free old) = some next ∧
    Listed (insert old limbo \ {old}) (items.erase old) next.heap
      next.passiveEndpointConn next.nextAddress ∧ next.connection = endpoints.connection ∧
    ∀ conn, conn ≠ old → (endpoints.heap conn).isSome → (next.heap conn).isSome := by
  have live := intact.held client old holds
  obtain ⟨head, after, removes, linked, relinked⟩ :=
    removeConnectionFromList_spec intact.listed.linked intact.listed.distinct
      intact.listed.length_le old
  have listed := intact.listed.taken live linked relinked
  obtain ⟨node, there⟩ := isSome_iff_exists.mp ((relinked.isSome old).mpr live)
  refine ⟨{ endpoints with passiveEndpointConn := head, heap := update after old none }, ?_,
    listed.free (Set.mem_insert _ _), rfl, fun conn different alive => ?_⟩
  · rw [removes, bind_some, free]
    simp only [there, map_some]
  · show (update after old none conn).isSome
    rw [update_of_ne different]
    exact (relinked.isSome conn).mpr alive

/-- A connection that nothing holds may be given to one device. -/
theorem apart_update {owner : Nat → Option Nat} {connection : Option Nat}
    (apart : ∀ client other conn, owner client = some conn → owner other = some conn →
      client = other) (unheld : ∀ conn ∈ connection, ∀ other, owner other ≠ some conn)
    (device client other conn : Nat) (first : update owner device connection client = some conn)
    (second : update owner device connection other = some conn) : client = other := by
  by_cases one : client = device
  · by_cases two : other = device
    · rw [one, two]
    · rw [one, update_self] at first
      rw [update_of_ne two] at second
      exact absurd second (unheld conn first other)
  · rw [update_of_ne one] at first
    by_cases two : other = device
    · rw [two, update_self] at second
      exact absurd first (unheld conn second client)
    · rw [update_of_ne two] at second
      exact apart client other conn first second

/-- A device gets a connection that no other has, or none. -/
theorem Intact.setConnection (intact : Intact limbo items endpoints)
    (client : Nat) (connection : Option Nat)
    (unheld : ∀ conn ∈ connection, conn ∈ limbo ∧ ∀ other, endpoints.connection other ≠ some conn) :
    ∃ next limbo' items', setConnection client connection endpoints = some next ∧
    Intact limbo' items' next ∧ ∀ conn ∈ connection, conn ∈ limbo' := by
  have live : ∀ conn ∈ connection, (endpoints.heap conn).isSome := fun conn member =>
    (intact.listed.live conn).mpr (.inr (unheld conn member).1)
  have apart := apart_update intact.apart (fun conn member => (unheld conn member).2) client
  cases holds : endpoints.connection client with
  | none =>
    refine ⟨{ endpoints with connection := update endpoints.connection client connection },
      limbo, items, ?_,
      ⟨intact.listed, fun other conn held => ?_, apart⟩, fun conn member => (unheld conn member).1⟩
    · simp only [Endpoints.setConnection, holds, bind_eq_bind, bind_some]
    · by_cases device : other = client
      · rw [device] at held
        exact live conn ((update_self client connection endpoints.connection).symm.trans held)
      · exact intact.held other conn ((update_of_ne device _ _).symm.trans held)
  | some old =>
    have different : connection ≠ some old := fun same => (unheld old same).2 client holds
    obtain ⟨behind, gives, listed, same, keeps⟩ := intact.giveUp holds
    refine ⟨{ behind with connection := update behind.connection client connection }, _, _, ?_,
      ⟨listed, fun other conn held => ?_, ?_⟩, fun conn member => ?_⟩
    · simp only [Endpoints.setConnection, holds, bind_eq_bind, if_pos different, gives, bind_some]
    · change update behind.connection client connection other = some conn at held
      rw [same] at held
      by_cases device : other = client
      · rw [device, update_self] at held
        exact keeps conn (fun isOld => different (held.trans (congrArg some isOld)))
          (live conn held)
      · rw [update_of_ne device] at held
        refine keeps conn (fun isOld => device ?_) (intact.held other conn held)
        exact intact.apart other client conn held (holds.trans (congrArg some isOld.symm))
    · rw [same]
      exact apart
    · have isOther : conn ≠ old := fun isOld => different (member.trans (congrArg some isOld))
      exact ⟨Set.mem_insert_of_mem _ (unheld conn member).1, isOther⟩

/-! ## The requests -/

/-- A connection in no list goes to the front. -/
theorem Intact.push (intact : Intact limbo items endpoints) {conn : Nat} (inLimbo : conn ∈ limbo) :
    Intact (limbo \ {conn}) (conn :: items)
      { endpoints with
        heap := endpoints.heap.relink conn endpoints.passiveEndpointConn
        passiveEndpointConn := some conn } where
  listed := intact.listed.push inLimbo
  held client held holds :=
    ((relinked_relink conn endpoints.passiveEndpointConn endpoints.heap).isSome held).mpr
      (intact.held client held holds)
  apart := intact.apart

/-- Some list of connections is intact. -/
def Sound (endpoints : Endpoints A) : Prop := ∃ limbo items, Intact limbo items endpoints

variable [DecidableEq A]

theorem Sound.finds (sound : Sound endpoints) (addr : A) :
    ∃ found, connectionFind addr endpoints = some found := by
  obtain ⟨limbo, items, intact⟩ := sound
  obtain ⟨found, finds, -⟩ :=
    listFind_spec (fun connection : Connection A => decide (connection.addr = addr))
    intact.listed.linked intact.listed.length_le
  exact ⟨found, finds⟩

/-- A registration from a new address that a device takes. -/
theorem Sound.rdPut_taken (sound : Sound endpoints)
    {addr : A} (unlisted : connectionFind addr endpoints = some none)
    {agentId : Option CString} {file : Option Client.DeviceCfg} {post : Client.RdPost}
    {client : Nat} (taken : (endpoints.directory.handleRdFromOneDevice agentId file post
      (some Directory.connectionSource)).1 = some client) :
    ∃ next, handlerRdPut addr agentId file (some post) endpoints = some next ∧ Sound next := by
  obtain ⟨limbo, items, intact⟩ := sound
  obtain ⟨made, unheld⟩ := intact.allocate ⟨endpoints.passiveEndpointConn, addr⟩
  have new : ∀ conn ∈ some endpoints.nextAddress, conn ∈ insert endpoints.nextAddress limbo ∧
      ∀ other, endpoints.connection other ≠ some conn := by
    intro conn member
    rw [← mem_some_iff.mp member]
    exact ⟨Set.mem_insert _ _, unheld⟩
  generalize handled : endpoints.directory.handleRdFromOneDevice agentId file post
    (some Directory.connectionSource) = result at taken
  obtain ⟨device, directory⟩ := result
  obtain rfl : device = some client := taken
  obtain ⟨behind, limbo', items', sets, intact, inLimbo⟩ :=
    (made.withDirectory directory).setConnection client (some endpoints.nextAddress) new
  have mine := inLimbo endpoints.nextAddress rfl
  obtain ⟨node, here⟩ := isSome_iff_exists.mp ((intact.listed.live _).mpr (.inr mine))
  refine ⟨_, ?_, _, _, intact.push mine⟩
  have allocated : (allocate ⟨endpoints.passiveEndpointConn, addr⟩ endpoints).directory =
    endpoints.directory := rfl
  simp only [handlerRdPut, unlisted, bind_eq_bind, bind_some, handleRdOnConnection, allocated,
    handled, sets, map_some, here, if_true]

/-- One that no device takes leaves everything as it was. -/
theorem Sound.rdPut_rejected (sound : Sound endpoints)
    {addr : A} (unlisted : connectionFind addr endpoints = some none)
    {agentId : Option CString} {file : Option Client.DeviceCfg} {payload : Option Client.RdPost}
    (rejected : payload.bind (fun post =>
      (endpoints.directory.handleRdFromOneDevice agentId file post
        (some Directory.connectionSource)).1) = none) :
        ∃ next, handlerRdPut addr agentId file payload endpoints = some next ∧ Sound next ∧
        next.heap = endpoints.heap ∧ next.passiveEndpointConn = endpoints.passiveEndpointConn := by
  obtain ⟨limbo, items, intact⟩ := sound
  obtain ⟨made, unheld⟩ := intact.allocate ⟨endpoints.passiveEndpointConn, addr⟩
  have fresh : endpoints.heap endpoints.nextAddress = none := by
    cases here : endpoints.heap endpoints.nextAddress with
    | none => rfl
    | some node => exact absurd (intact.listed.bounded _ (by rw [here]; rfl)) (Nat.lt_irrefl _)
  have back : update (update endpoints.heap endpoints.nextAddress (some
      ⟨endpoints.passiveEndpointConn, addr⟩)) endpoints.nextAddress none = endpoints.heap := by
    rw [update_idem, ← fresh, update_eq_self]
  have handles : ∃ directory, handleRdOnConnection agentId file payload endpoints.nextAddress
      (allocate ⟨endpoints.passiveEndpointConn, addr⟩ endpoints) =
      some (false, { allocate ⟨endpoints.passiveEndpointConn, addr⟩ endpoints with
        directory := directory }) := by
    cases payload with
    | none => exact ⟨_, rfl⟩
    | some post =>
      have allocated : (allocate ⟨endpoints.passiveEndpointConn, addr⟩ endpoints).directory =
        endpoints.directory := rfl
      rw [bind_some] at rejected
      generalize handled : endpoints.directory.handleRdFromOneDevice agentId file post
        (some Directory.connectionSource) = result at rejected
      obtain ⟨device, directory⟩ := result
      obtain rfl : device = none := rejected
      refine ⟨directory, ?_⟩
      simp only [handleRdOnConnection, allocated, handled]
  obtain ⟨directory, handles⟩ := handles
  have here : (allocate ⟨endpoints.passiveEndpointConn, addr⟩ endpoints).heap
    endpoints.nextAddress = some ⟨endpoints.passiveEndpointConn, addr⟩ := update_self _ _ _
  refine ⟨{ endpoints with directory := directory, nextAddress := endpoints.nextAddress + 1 }, ?_,
    ⟨limbo, items, intact.listed.mono (Nat.le_succ _), intact.held, intact.apart⟩, rfl, rfl⟩
  simp only [handlerRdPut, unlisted, bind_eq_bind, bind_some, handles, free, here, map_some,
    Bool.false_eq_true, if_false]
  congr 2

omit [DecidableEq A] in
/-- Giving a device a listed connection keeps it in the list. -/
theorem Intact.setListed (intact : Intact limbo items endpoints)
    {conn : Nat} (member : conn ∈ items) (client : Nat)
    {next : Endpoints A} (sets : Endpoints.setConnection client (some conn) endpoints = some next) :
    ∃ items', Linked next.heap next.passiveEndpointConn items' ∧ items'.Nodup ∧ conn ∈ items' := by
  cases holds : endpoints.connection client with
  | none =>
    simp only [Endpoints.setConnection, holds, bind_eq_bind, bind_some] at sets
    cases sets
    exact ⟨items, intact.listed.linked, intact.listed.distinct, member⟩
  | some old =>
    by_cases same : conn = old
    · subst same
      simp only [Endpoints.setConnection, holds, bind_eq_bind, bind_some, ne_eq, not_true_eq_false,
        if_false] at sets
      cases sets
      exact ⟨items, intact.listed.linked, intact.listed.distinct, member⟩
    · have different : some conn ≠ some old := fun isOld => same (some.inj isOld)
      obtain ⟨behind, gives, listed, -, -⟩ := intact.giveUp holds
      simp only [Endpoints.setConnection, holds, bind_eq_bind, if_pos different, gives,
        bind_some] at sets
      cases sets
      exact ⟨_, listed.linked, listed.distinct, (mem_erase_of_ne same).mpr member⟩

omit [DecidableEq A] in
/-- A registration is handled by a device, or changes nothing of the connections. -/
theorem handleRdOnConnection_cases {agentId : Option CString} {file : Option Client.DeviceCfg}
    {payload : Option Client.RdPost} {conn : Nat} {handled : Bool} {next : Endpoints A}
    (handles : handleRdOnConnection agentId file payload conn endpoints = some (handled, next)) :
    (handled = false ∧ next.heap = endpoints.heap ∧
      next.passiveEndpointConn = endpoints.passiveEndpointConn) ∨
    (handled = true ∧ ∃ client directory,
      setConnection client (some conn) { endpoints with directory := directory } = some next) := by
  cases payload with
  | none =>
    cases handles
    exact .inl ⟨rfl, rfl, rfl⟩
  | some post =>
    rw [handleRdOnConnection] at handles
    generalize endpoints.directory.handleRdFromOneDevice agentId file post
      (some Directory.connectionSource) = result at handles
    obtain ⟨device, directory⟩ := result
    cases device with
    | none =>
      cases handles
      exact .inl ⟨rfl, rfl, rfl⟩
    | some client =>
      obtain ⟨behind, sets, same⟩ := map_eq_some_iff.mp handles
      cases same
      exact .inr ⟨rfl, client, directory, sets⟩

/-- A registration from a listed address ends the list in a circle, or in a connection that
was freed. -/
theorem Sound.rdPut_listed (sound : Sound endpoints) {addr : A} {conn : Nat}
    (listed : connectionFind addr endpoints = some (some conn)) {agentId : Option CString}
    {file : Option Client.DeviceCfg} {payload : Option Client.RdPost} {next : Endpoints A}
    (puts : handlerRdPut addr agentId file payload endpoints = some next) :
    ¬ ∃ items, Linked next.heap next.passiveEndpointConn items := by
  rintro ⟨others, linked⟩
  obtain ⟨limbo, items, intact⟩ := sound
  obtain ⟨found, finds, inList⟩ :=
    listFind_spec (fun connection : Connection A => decide (connection.addr = addr))
    intact.listed.linked intact.listed.length_le
  obtain rfl : found = some conn := some.inj (finds.symm.trans listed)
  obtain ⟨member, -⟩ := inList conn rfl
  simp only [handlerRdPut, listed, bind_eq_bind, bind_some] at puts
  obtain ⟨⟨handled, behind⟩, handles, puts⟩ := bind_eq_some_iff.mp puts
  rcases handleRdOnConnection_cases handles with ⟨rfl, heap, head⟩ | ⟨rfl, client, directory, sets⟩
  · simp only [Bool.false_eq_true, if_false] at puts
    obtain ⟨node, there, same⟩ := map_eq_some_iff.mp puts
    cases same
    obtain ⟨front, back, rfl⟩ := append_of_mem member
    obtain ⟨middle, before, rfl, -⟩ := Segment.append_iff.mp intact.listed.linked
    have outside : conn ∉ front := fun inFront =>
      (nodup_append.mp intact.listed.distinct).2.2 conn inFront conn mem_cons_self rfl
    have still : Segment (update behind.heap conn none) behind.passiveEndpointConn front
        (some conn) := by
      rw [heap, head]
      refine before.frame fun address inFront => ?_
      have different : address ≠ conn := fun isConn => outside (isConn ▸ inFront)
      rw [update_of_ne different]
    obtain ⟨rest, freed⟩ := still.rest linked
    cases rest with
    | nil => cases (freed : some conn = none)
    | cons other rest =>
      obtain ⟨first, node, here, -⟩ := freed
      cases first
      rw [update_self] at here
      cases here
  · obtain ⟨items', listed, distinct, member⟩ :=
      (intact.withDirectory directory).setListed member client sets
    simp only [if_true] at puts
    obtain ⟨node, here, same⟩ := bind_eq_some_iff.mp puts
    cases same
    obtain ⟨front, back, rfl⟩ := append_of_mem member
    obtain ⟨middle, before, rfl, -⟩ := Segment.append_iff.mp listed
    have outside : conn ∉ front := fun inFront =>
      (nodup_append.mp distinct).2.2 conn inFront conn mem_cons_self rfl
    have circle : Segment (behind.heap.relink conn behind.passiveEndpointConn) (some conn)
        (conn :: front) (some conn) := by
      refine ⟨rfl, setNext behind.passiveEndpointConn node, ?_, ?_⟩
      · rw [Heap.relink_self, here, map_some]
      · rw [next_setNext]
        exact before.relink outside _
    exact circle.no_end linked

omit [DecidableEq A] in
theorem Sound.rdPost (sound : Sound endpoints)
    (agentId : Option CString) (file : Option Client.DeviceCfg)
    (post : Client.RdPost) (source : Option CString) (created : Option (Option A)) :
    ∃ next, handleRdPost agentId file post source created endpoints = some next ∧ Sound next := by
  obtain ⟨limbo, items, intact⟩ := sound
  rw [handleRdPost]
  generalize endpoints.directory.handleRdFromOneDevice agentId file post source = result
  obtain ⟨device, directory⟩ := result
  have same := intact.withDirectory directory
  cases device with
  | none => exact ⟨_, rfl, limbo, items, same⟩
  | some client =>
    cases created with
    | none => exact ⟨_, rfl, limbo, items, same⟩
    | some created =>
      dsimp only
      split
      swap
      · exact ⟨_, rfl, limbo, items, same⟩
      cases created with
      | none =>
        obtain ⟨next, limbo', items', sets, intact, -⟩ :=
          same.setConnection client none fun conn member => absurd member (not_mem_none conn)
        exact ⟨next, sets, limbo', items', intact⟩
      | some addr =>
        obtain ⟨made, unheld⟩ := same.allocate ⟨none, addr⟩
        obtain ⟨next, limbo', items', sets, intact, -⟩ :=
          made.setConnection client (some endpoints.nextAddress) fun conn member => by
            rw [← mem_some_iff.mp member]
            exact ⟨Set.mem_insert _ _, unheld⟩
        exact ⟨next, sets, limbo', items', intact⟩

omit [DecidableEq A] in
theorem Sound.rdDelete (sound : Sound endpoints) (di : Option CString) :
    ∃ next, handleRdDelete di endpoints = some next ∧ Sound next := by
  obtain ⟨limbo, items, intact⟩ := sound
  rw [handleRdDelete]
  cases di.bind fun di => endpoints.directory.findClient di with
  | none => exact ⟨endpoints, rfl, limbo, items, intact⟩
  | some client =>
    obtain ⟨next, limbo', items', sets, intact, -⟩ :=
      (intact.withDirectory (endpoints.directory.freeClient client)).setConnection client.id none
        fun conn member => absurd member (not_mem_none conn)
    exact ⟨next, sets, limbo', items', intact⟩

/-- A registration over CoAP comes from an address that no connection of the list has. -/
def Request.FromUnlisted (endpoints : Endpoints A) : Request A → Prop
  | .rdPut addr _ _ _ => connectionFind addr endpoints = some none
  | _ => True

/-- A registration over CoAP that no device takes. -/
def Request.Rejected (endpoints : Endpoints A) : Request A → Prop
  | .rdPut _ agentId file payload =>
    payload.bind (fun post =>
      (endpoints.directory.handleRdFromOneDevice agentId file post
        (some Directory.connectionSource)).1) = none
  | _ => False

/-- Every request has a result, and one that is rejected leaves the list as it was. -/
theorem Sound.perform (sound : Sound endpoints) {request : Request A}
    (unlisted : request.FromUnlisted endpoints) :
    ∃ next, perform request endpoints = some next ∧ Sound next ∧ (request.Rejected endpoints →
      next.heap = endpoints.heap ∧ next.passiveEndpointConn = endpoints.passiveEndpointConn) := by
  cases request with
  | rdPut addr agentId file payload =>
    by_cases rejected : payload.bind (fun post =>
        (endpoints.directory.handleRdFromOneDevice agentId file post
          (some Directory.connectionSource)).1) = none
    · obtain ⟨next, puts, kept, heap, head⟩ := sound.rdPut_rejected unlisted rejected
      exact ⟨next, puts, kept, fun _ => ⟨heap, head⟩⟩
    · obtain ⟨client, taken⟩ := ne_none_iff_exists'.mp rejected
      obtain ⟨post, rfl, taken⟩ := bind_eq_some_iff.mp taken
      obtain ⟨next, puts, kept⟩ := sound.rdPut_taken unlisted taken
      exact ⟨next, puts, kept, fun refused => absurd refused rejected⟩
  | rdPost agentId file post source created =>
    obtain ⟨next, posts, kept⟩ := sound.rdPost agentId file post source created
    exact ⟨next, posts, kept, False.elim⟩
  | rdDelete di =>
    obtain ⟨next, deletes, kept⟩ := sound.rdDelete di
    exact ⟨next, deletes, kept, False.elim⟩
  | lookup addr =>
    obtain ⟨found, finds⟩ := sound.finds addr
    exact ⟨endpoints, by rw [Endpoints.perform, finds]; rfl, sound, False.elim⟩

/-- A registration keeps the list exactly if it comes from an address that is not in it. -/
theorem Sound.rdPut_iff (sound : Sound endpoints) {addr : A} {agentId : Option CString}
    {file : Option Client.DeviceCfg} {payload : Option Client.RdPost} {next : Endpoints A}
    (puts : handlerRdPut addr agentId file payload endpoints = some next) :
    (∃ items, Linked next.heap next.passiveEndpointConn items) ↔
    connectionFind addr endpoints = some none := by
  constructor
  · intro linked
    obtain ⟨found, finds⟩ := sound.finds addr
    cases found with
    | none => exact finds
    | some conn => exact absurd linked (sound.rdPut_listed finds puts)
  · intro unlisted
    have request : Request.FromUnlisted endpoints (.rdPut addr agentId file payload) := unlisted
    obtain ⟨after, performs, ⟨limbo, items, intact⟩, -⟩ := sound.perform request
    obtain rfl := some.inj (puts.symm.trans performs)
    exact ⟨items, intact.listed.linked⟩

/-- Before the first request there is no connection. -/
structure Unconnected (endpoints : Endpoints A) : Prop where
  heap : endpoints.heap = fun _ => none
  empty : endpoints.passiveEndpointConn = none
  connection : endpoints.connection = fun _ => none

omit [DecidableEq A] in
theorem Unconnected.sound (unconnected : Unconnected endpoints) : Sound endpoints := by
  refine ⟨∅, [], ⟨unconnected.empty, nodup_nil, fun address => ?_, fun _ _ => not_mem_nil,
    fun address live => ?_⟩, fun client conn holds => ?_, fun client other conn holds => ?_⟩
  · rw [unconnected.heap]
    simp
  · rw [unconnected.heap] at live
    cases live
  · rw [unconnected.connection] at holds
    cases holds
  · rw [unconnected.connection] at holds
    cases holds

/-- In every run whose registrations over CoAP come from addresses that are not in the list
yet, the list has an end, holds no connection twice and none that was freed; every walk ends,
every request has a result, and a rejected one leaves the list as it was. -/
theorem passive_list_intact {start : Endpoints A}
    (unconnected : Unconnected start) (requests : List (Request A)) (runs : RunsUnder perform
      (fun endpoints request => request.FromUnlisted endpoints) start requests endpoints) :
    (∃ items, Linked endpoints.heap endpoints.passiveEndpointConn items ∧ items.Nodup) ∧
    (∀ addr, ∃ found, connectionFind addr endpoints = some found) ∧
    (∀ conn, ∃ next, removeConnectionFromList conn endpoints = some next) ∧
    ∀ request, request.FromUnlisted endpoints → ∃ next, perform request endpoints = some next ∧
    (request.Rejected endpoints → next.heap = endpoints.heap ∧
      next.passiveEndpointConn = endpoints.passiveEndpointConn) := by
  have sound : Sound endpoints := runs.keeps (fun {state next request} sound unlisted performs => by
    obtain ⟨after, same, kept, -⟩ := sound.perform unlisted
    obtain rfl := some.inj (performs.symm.trans same)
    exact kept) unconnected.sound
  refine ⟨?_, sound.finds, fun conn => ?_, fun request unlisted => ?_⟩
  · obtain ⟨limbo, items, intact⟩ := sound
    exact ⟨items, intact.listed.linked, intact.listed.distinct⟩
  · obtain ⟨limbo, items, intact⟩ := sound
    obtain ⟨head, after, removes, -⟩ :=
      removeConnectionFromList_spec intact.listed.linked intact.listed.distinct
        intact.listed.length_le conn
    exact ⟨_, removes⟩
  · obtain ⟨next, performs, -, rejected⟩ := sound.perform unlisted
    exact ⟨next, performs, rejected⟩

/-- The registration of a device named `a`. -/
def deviceA : Client.RdPost where
  di := some (.ofBytes [0x61])
  aliasName := none
  st := none
  dt := none
  ttl := 0
  settings := none
  addr := none
  userData := none
  links := []

/-- An agent that has just started. -/
def idle : Endpoints Nat := ⟨.start, fun _ => none, none, fun _ => none, 0⟩

/-- A device that moves to another address gives up its old connection. -/
theorem passive_list_intact_moved : ∃ endpoints : Endpoints Nat,
    RunsUnder perform (fun endpoints request => request.FromUnlisted endpoints) idle
        [.rdPut 5 none none (some deviceA), .rdPut 6 none none (some deviceA)] endpoints ∧
      (∃ items, Linked endpoints.heap endpoints.passiveEndpointConn items ∧ items.Nodup) ∧
      (∀ addr, ∃ found, connectionFind addr endpoints = some found) ∧
      (∀ conn, ∃ next, removeConnectionFromList conn endpoints = some next) ∧
      ∀ request, request.FromUnlisted endpoints → ∃ next, perform request endpoints = some next ∧
        (request.Rejected endpoints → next.heap = endpoints.heap ∧
          next.passiveEndpointConn = endpoints.passiveEndpointConn) := by
  have run : ∃ endpoints : Endpoints Nat,
      RunsUnder perform (fun endpoints request => request.FromUnlisted endpoints)
      idle [.rdPut 5 none none (some deviceA), .rdPut 6 none none (some deviceA)] endpoints :=
    ⟨_, .call rfl rfl (.call rfl rfl (.done _))⟩
  obtain ⟨endpoints, runs⟩ := run
  exact ⟨endpoints, runs, passive_list_intact ⟨rfl, rfl, rfl⟩ _ runs⟩

/-- A device that registers again from its address closes the list to a circle. -/
theorem passive_list_circle :
    ¬ ∀ (start endpoints : Endpoints Nat) (requests : List (Request Nat)), Unconnected start →
      runAll perform requests start = some endpoints →
      (∃ items, Linked endpoints.heap endpoints.passiveEndpointConn items ∧ items.Nodup) ∧
        (∀ addr, ∃ found, connectionFind addr endpoints = some found) ∧
        (∀ conn, ∃ next, removeConnectionFromList conn endpoints = some next) ∧
        ∀ request : Request Nat, ∃ next, perform request endpoints = some next ∧
          (request.Rejected endpoints → next.heap = endpoints.heap ∧
            next.passiveEndpointConn = endpoints.passiveEndpointConn) := by
  intro claimed
  have run : ∃ endpoints : Endpoints Nat, runAll perform [.rdPut 5 none none (some deviceA),
      .rdPut 5 none none (some deviceA)] idle = some endpoints ∧
      endpoints.passiveEndpointConn = some 0 ∧ endpoints.heap 0 = some ⟨some 0, 5⟩ :=
    ⟨_, rfl, rfl, rfl⟩
  obtain ⟨endpoints, ran, head, here⟩ := run
  obtain ⟨⟨items, linked, -⟩, -⟩ := claimed idle endpoints _ ⟨rfl, rfl, rfl⟩ ran
  rw [head] at linked
  have circle : Segment endpoints.heap (some 0) [0] (some 0) := ⟨rfl, ⟨some 0, 5⟩, here, rfl⟩
  exact circle.no_end linked

end Endpoints

end Idrm.Devices
