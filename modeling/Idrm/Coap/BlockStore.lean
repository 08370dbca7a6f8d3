import Idrm.Coap.GetAnswer
import Idrm.Lib.Run
import Idrm.Lib.Shelves

/-!
# The block-wise store as a map

The store has a list of nodes for every peer. Taking a node out, putting one in and
changing one where it is are seen here as what they do to the shelf of one peer; and so a
peer is listed once, has one node at most for a url and a direction, and is not affected by
what others ask for.
-/

namespace Idrm.Coap

open Idrm.Lib Option List

/-- What a node is found by. -/
def BlockNode.key (node : BlockNode) : CString × Bool := (node.url, node.isGet)

/-! ## Timeouts -/

section Timeout

variable {A : Type}

/-- Whether `check_blockwise_timeout_ms` releases a node. The times are unsigned and are
compared as 64-bit numbers. -/
def BlockNode.expired (now : UInt32) (timeout : Int32) (node : BlockNode) : Bool :=
  (now.toNat : Int) - node.lastAccess.toNat > timeout.toInt

/-- The walk over the nodes of a peer: the earliest access, and the nodes that stay. -/
def checkNodes (now : UInt32) (timeout : Int32) : UInt32 → List BlockNode → UInt32 × List BlockNode
  | nextTimeout, [] => (nextTimeout, [])
  | nextTimeout, node :: rest =>
    if node.expired now timeout then checkNodes now timeout nextTimeout rest
    else
      let earlier := if nextTimeout = -1 ∨ nextTimeout > node.lastAccess then node.lastAccess
        else nextTimeout
      let (nextTimeout, rest) := checkNodes now timeout earlier rest
      (nextTimeout, node :: rest)

/-- The walk over the peers, those without nodes released. -/
def checkPeers (now : UInt32) (timeout : Int32) : UInt32 → BlockStore A → UInt32 × BlockStore A
  | nextTimeout, [] => (nextTimeout, [])
  | nextTimeout, (peer, nodes) :: rest =>
    let (nextTimeout, nodes) := checkNodes now timeout nextTimeout nodes
    let (nextTimeout, rest) := checkPeers now timeout nextTimeout rest
    (nextTimeout, if nodes = [] then rest else (peer, nodes) :: rest)

/-- `check_blockwise_timeout_ms` -/
def checkBlockwiseTimeoutMs (now : UInt32) (timeout : Int32) (store : BlockStore A) :
    UInt32 × BlockStore A :=
  let (nextTimeout, store) := checkPeers now timeout (-1) store
  (if nextTimeout = -1 then -1 else (nextTimeout - now) * 1000, store)

theorem checkNodes_nodes (now : UInt32) (timeout : Int32)
    (nextTimeout : UInt32) (nodes : List BlockNode) :
    (checkNodes now timeout nextTimeout nodes).2 = nodes.filter fun node =>
      !node.expired now timeout := by
  induction nodes generalizing nextTimeout with
  | nil => rfl
  | cons node rest ih =>
    rw [checkNodes]
    split
    · rename_i expired
      rw [ih, filter_cons_of_neg (by simp [expired])]
    · rename_i fresh
      rw [filter_cons_of_pos (by simp [fresh])]
      exact congrArg (node :: ·) (ih _)

theorem checkPeers_store (now : UInt32) (timeout : Int32) (nextTimeout : UInt32)
    (store : BlockStore A) : (checkPeers now timeout nextTimeout store).2 = pruned
      (fun node => !node.expired now timeout) store := by
  induction store generalizing nextTimeout with
  | nil => rfl
  | cons entry rest ih =>
    obtain ⟨peer, nodes⟩ := entry
    rw [checkPeers, pruned_cons]
    simp only [checkNodes_nodes, ih, List.isEmpty_iff]

/-- The nodes whose last access is too long ago are removed and no others, and then the
peers that have none left. -/
theorem checkBlockwiseTimeoutMs_store (now : UInt32) (timeout : Int32) (store : BlockStore A) :
    (checkBlockwiseTimeoutMs now timeout store).2 = pruned
      (fun node => !node.expired now timeout) store :=
  checkPeers_store now timeout (-1) store

end Timeout

/-! ## Single operations -/

section Operations

variable {A : Type} [DecidableEq A] {source : A} {url : CString} {isGet : Bool} {node : BlockNode}
  {store rest : BlockStore A}

theorem key_iff : (isGet = node.isGet ∧ node.url = url) ↔ node.key = (url, isGet) := by
  rw [BlockNode.key, Prod.mk.injEq]
  constructor
  · rintro ⟨kind, same⟩
    exact ⟨same, kind.symm⟩
  · rintro ⟨same, kind⟩
    exact ⟨kind.symm, same⟩

/-- The node that is found lies between others, and the list without it is what is left. -/
theorem takeNode_some {nodes left : List BlockNode}
    (taken : takeNode url isGet nodes = some (node, left)) : node.key = (url, isGet) ∧
    ∃ before after, nodes = before ++ node :: after ∧ left = before ++ after := by
  induction nodes generalizing left with
  | nil => cases taken
  | cons first others ih =>
    rw [takeNode] at taken
    split at taken
    · rename_i here
      cases taken
      exact ⟨key_iff.mp here, [], others, rfl, rfl⟩
    · obtain ⟨⟨found, remaining⟩, finds, same⟩ := map_eq_some_iff.mp taken
      cases same
      obtain ⟨key, before, after, rfl, rfl⟩ := ih finds
      exact ⟨key, first :: before, after, rfl, rfl⟩

theorem takeNode_none {nodes : List BlockNode} (absent : takeNode url isGet nodes = none) :
    ∀ other ∈ nodes, other.key ≠ (url, isGet) := by
  induction nodes with
  | nil => exact fun other member => absurd member not_mem_nil
  | cons first others ih =>
    rw [takeNode] at absent
    split at absent
    · cases absent
    · rename_i elsewhere
      intro other member
      rcases mem_cons.mp member with rfl | member
      · exact fun key => elsewhere (key_iff.mpr key)
      · exact ih (map_eq_none_iff.mp absent) other member

/-- `find_block` takes a node off the shelf of its peer. -/
theorem findBlock_some (found : findBlock source url isGet store = some (node, rest)) :
    node.key = (url, isGet) ∧
      ∃ before after, Reshelved source (before ++ node :: after) (before ++ after) store rest := by
  induction store generalizing rest with
  | nil => cases found
  | cons entry others ih =>
    obtain ⟨peer, nodes⟩ := entry
    rw [findBlock] at found
    split at found
    · rename_i taken
      cases found
      by_cases same : source = peer
      · rw [if_pos same] at taken
        subst same
        obtain ⟨key, before, after, rfl, rfl⟩ := takeNode_some taken
        exact ⟨key, before, after, Reshelved.head source _ _ others⟩
      · rw [if_neg same] at taken
        cases taken
    · obtain ⟨⟨here, left⟩, finds, equal⟩ := map_eq_some_iff.mp found
      cases equal
      obtain ⟨key, before, after, reshelved⟩ := ih finds
      exact ⟨key, before, after, reshelved.cons (peer, nodes)⟩

theorem findBlock_none (absent : findBlock source url isGet store = none) :
    ∀ shelf ∈ store, shelf.1 = source → ∀ other ∈ shelf.2, other.key ≠ (url, isGet) := by
  induction store with
  | nil => exact fun shelf member => absurd member not_mem_nil
  | cons entry others ih =>
    obtain ⟨peer, nodes⟩ := entry
    rw [findBlock] at absent
    split at absent
    · cases absent
    · rename_i notHere
      intro shelf member same
      rcases mem_cons.mp member with rfl | member
      · rw [if_pos (show source = peer from same.symm)] at notHere
        exact takeNode_none notHere
      · exact ih (map_eq_none_iff.mp absent) shelf member same

/-- `add_block` puts a node on the shelf of its peer, or on a new one. -/
theorem addBlock_cases (source : A) (node : BlockNode) (store : BlockStore A) :
    (∃ nodes, Reshelved source nodes (node :: nodes) store (addBlock source node store)) ∨
      source ∉ store.map Prod.fst ∧ addBlock source node store = (source, [node]) :: store := by
  have pushes : (∃ nodes pushed, pushNode source node store = some pushed ∧
      Reshelved source nodes (node :: nodes) store pushed) ∨
        source ∉ store.map Prod.fst ∧ pushNode source node store = none := by
    induction store with
    | nil => exact .inr ⟨not_mem_nil, rfl⟩
    | cons entry rest ih =>
      obtain ⟨peer, nodes⟩ := entry
      by_cases same : source = peer
      · subst same
        exact .inl ⟨nodes, _, if_pos rfl, Reshelved.head source nodes (node :: nodes) rest⟩
      · rw [pushNode, if_neg same]
        rcases ih with ⟨found, pushed, pushes, reshelved⟩ | ⟨unknown, pushes⟩
        · rw [pushes]
          exact .inl ⟨found, _, rfl, reshelved.cons (peer, nodes)⟩
        · rw [pushes]
          refine .inr ⟨fun member => ?_, rfl⟩
          rcases mem_cons.mp member with here | behind
          · exact same here
          · exact unknown behind
  rcases pushes with ⟨nodes, pushed, pushes, reshelved⟩ | ⟨unknown, pushes⟩
  · rw [addBlock, pushes]
    exact .inl ⟨nodes, reshelved⟩
  · rw [addBlock, pushes]
    exact .inr ⟨unknown, rfl⟩

end Operations

/-! ## The store as a map -/

section Map

variable {A : Type} [DecidableEq A] {source : A} {url : CString} {isGet : Bool} {node : BlockNode}
  {store rest : BlockStore A}

/-- Every peer is listed once, and has one node at most for a url and a direction. -/
abbrev Unique (store : BlockStore A) : Prop := Shelved BlockNode.key store

/-- The node of a peer for a url. -/
def nodeAt (source : A) (url : CString) (isGet : Bool) (store : BlockStore A) : Option BlockNode :=
  valueAt BlockNode.key source (url, isGet) store

/-- At most the node of one peer for one url is another. -/
abbrev TouchesNode (source : A) (url : CString) (isGet : Bool) (store next : BlockStore A) : Prop :=
  Touches BlockNode.key source (url, isGet) store next

theorem findBlock_taken (unique : Unique store)
    (found : findBlock source url isGet store = some (node, rest)) :
    TouchesNode source url isGet store rest ∧ nodeAt source url isGet store = some node ∧
    nodeAt source url isGet rest = none := by
  obtain ⟨key, before, after, reshelved⟩ := findBlock_some found
  have taken := reshelved.taken unique
  rw [key] at taken
  exact taken

theorem findBlock_absent (absent : findBlock source url isGet store = none) :
    nodeAt source url isGet store = none :=
  valueAt_none (findBlock_none absent)

/-- `find_block` finds what the map has. -/
theorem findBlock_nodeAt (unique : Unique store) :
    (findBlock source url isGet store).map Prod.fst = nodeAt source url isGet store := by
  cases found : findBlock source url isGet store with
  | none => exact (findBlock_absent found).symm
  | some pair => exact (findBlock_taken unique found).2.1.symm

theorem findBlock_of_nodeAt (unique : Unique store)
    (there : nodeAt source url isGet store = some node) :
    ∃ rest, findBlock source url isGet store = some (node, rest) := by
  rw [← findBlock_nodeAt unique] at there
  obtain ⟨⟨found, rest⟩, finds, rfl⟩ := map_eq_some_iff.mp there
  exact ⟨rest, finds⟩

theorem findBlock_of_absent (unique : Unique store)
    (absent : nodeAt source url isGet store = none) : findBlock source url isGet store = none := by
  rw [← findBlock_nodeAt unique] at absent
  exact map_eq_none_iff.mp absent

/-- A node is put where the peer has none. -/
theorem addBlock_put (unique : Unique store) (sameUrl : node.url = url)
    (sameKind : node.isGet = isGet) (absent : nodeAt source url isGet store = none) :
    TouchesNode source url isGet store (addBlock source node store) ∧
    nodeAt source url isGet (addBlock source node store) = some node := by
  have key : node.key = (url, isGet) := key_iff.mp ⟨sameKind.symm, sameUrl⟩
  have put : Touches BlockNode.key source node.key store (addBlock source node store) ∧
      valueAt BlockNode.key source node.key (addBlock source node store) = some node := by
    rw [nodeAt, ← key] at absent
    rcases addBlock_cases source node store with ⟨nodes, reshelved⟩ | ⟨unknown, added⟩
    · exact reshelved.put unique absent
    · rw [added]
      exact Shelved.put unique unknown node
  rw [key] at put
  exact put

/-- A node that was taken out is put back, or another in its place. -/
theorem findBlock_addBlock_put (unique : Unique store) {found : BlockNode}
    (finds : findBlock source url isGet store = some (found, rest)) (sameUrl : node.url = found.url)
    (sameKind : node.isGet = found.isGet) :
    TouchesNode source url isGet store (addBlock source node rest) ∧
      nodeAt source url isGet (addBlock source node rest) = some node := by
  obtain ⟨key, _⟩ := findBlock_some finds
  obtain ⟨kind, name⟩ := key_iff.mpr key
  obtain ⟨touches, _, absent⟩ := findBlock_taken unique finds
  obtain ⟨puts, there⟩ :=
    addBlock_put touches.shelved (sameUrl.trans name) (sameKind.trans kind.symm) absent
  exact ⟨touches.trans puts, there⟩

theorem setResBlockwise_touches (unique : Unique store)
    (now : UInt32) (buffer : List UInt8) (bufferSize : Int32)
    (blockNum : UInt32) (contentFmt : UInt16) : TouchesNode source url true store
      (setResBlockwise now source url buffer bufferSize blockNum contentFmt store) := by
  unfold setResBlockwise
  split
  · rename_i node rest finds
    refine (findBlock_addBlock_put unique finds ?_ ?_).1
    · rfl
    · rfl
  · rename_i absent
    refine (addBlock_put unique ?_ ?_ (findBlock_absent absent)).1
    · rfl
    · rfl

/-! ## Nodes changed where they are -/

variable {change : BlockNode → BlockNode}

theorem modifyNode_cases (url : CString) (isGet : Bool) (change : BlockNode → BlockNode)
    (nodes : List BlockNode) : modifyNode url isGet change nodes = none ∨
    ∃ before node after, nodes = before ++ node :: after ∧ node.key = (url, isGet) ∧
    modifyNode url isGet change nodes = some (before ++ change node :: after) := by
  induction nodes with
  | nil => exact .inl rfl
  | cons first others ih =>
    rw [modifyNode]
    split
    · rename_i here
      exact .inr ⟨[], first, others, rfl, key_iff.mp here, rfl⟩
    · rcases ih with absent | ⟨before, node, after, rfl, key, modifies⟩
      · exact .inl (by rw [absent]; rfl)
      · exact .inr ⟨first :: before, node, after, rfl, key, by rw [modifies]; rfl⟩

theorem modifyBlock_cases (source : A)
    (url : CString) (isGet : Bool) (change : BlockNode → BlockNode)
    (store : BlockStore A) : modifyBlock source url isGet change store = store ∨
    ∃ before node after, node.key = (url, isGet) ∧ Reshelved source (before ++ node :: after)
    (before ++ change node :: after) store (modifyBlock source url isGet change store) := by
  induction store with
  | nil => exact .inl rfl
  | cons entry rest ih =>
    obtain ⟨peer, nodes⟩ := entry
    have behind : ∀ {here : List BlockNode},
        (peer, here) :: modifyBlock source url isGet change rest = (peer, here) :: rest ∨
          ∃ before node after, node.key = (url, isGet) ∧ Reshelved source (before ++ node :: after)
            (before ++ change node :: after) ((peer, here) :: rest)
              ((peer, here) :: modifyBlock source url isGet change rest) := by
      intro here
      rcases ih with same | ⟨before, node, after, key, reshelved⟩
      · exact .inl (by rw [same])
      · exact .inr ⟨before, node, after, key, reshelved.cons (peer, here)⟩
    rw [modifyBlock]
    by_cases same : source = peer
    · subst same
      rw [if_pos rfl]
      rcases modifyNode_cases url isGet change nodes with absent | ⟨before, node, after, rfl, key,
        modifies⟩
      · rw [absent]
        exact behind
      · rw [modifies]
        exact .inr ⟨before, node, after, key, Reshelved.head source _ _ rest⟩
    · rw [if_neg same]
      exact behind

theorem modifyBlock_touches (unique : Unique store)
    (keepsKey : ∀ node, (change node).key = node.key) :
    TouchesNode source url isGet store (modifyBlock source url isGet change store) := by
  rcases modifyBlock_cases source url isGet change
    store with same | ⟨before, node, after, key, reshelved⟩
  · rw [same]
    exact unique.touches source (url, isGet)
  · have replaced := (reshelved.replaced unique (keepsKey node)).1
    rw [key] at replaced
    exact replaced

end Map

/-! ## Requests -/

section Requests

variable {A : Type} [DecidableEq A] {source : A} {store next : BlockStore A}
  {request response answer : Packet}
  {now : UInt32}

/-- A request touches at most the node for its url, of the direction of its method. -/
def TouchesOwn (source : A) (request : Packet) (isGet : Bool) (store next : BlockStore A) : Prop :=
  next = store ∨
    ∃ url, coapGetFullUrlAlloc request = some url ∧ TouchesNode source url isGet store next

theorem acceptPutBlock_touches {block : Block} {size : UInt16} {node : BlockNode} {offset : Int}
    {check : PutCheck}
    {url : CString} {rest : BlockStore A} (touches : TouchesNode source url false store rest)
    (puts : ∀ {kept : BlockNode}, kept.url = node.url → kept.isGet = node.isGet →
      TouchesNode source url false store (addBlock source kept rest))
    (accepted : acceptPutBlock now source request response block size node offset rest =
      some (check, answer, next)) : TouchesNode source url false store next := by
  rw [acceptPutBlock] at accepted
  obtain ⟨buffer, _, result⟩ := map_eq_some_iff.mp accepted
  by_cases last : block.more = false
  · rw [if_pos last] at result
    cases result
    exact touches
  · rw [if_neg last] at result
    cases result
    exact puts rfl rfl

/-- A block of an upload touches the node of its upload. -/
theorem checkBlockwiseTransferPut_touches (unique : Unique store) {check : PutCheck} (checked :
      checkBlockwiseTransferPut now source request response store = some (check, answer, next)) :
    TouchesOwn source request false store next := by
  rw [checkBlockwiseTransferPut] at checked
  split at checked
  · cases checked
    exact .inl rfl
  rename_i block _
  simp only at checked
  generalize (if block.size < 1024 then block.size else 1024) = size at checked
  split at checked
  · cases checked
    exact .inl rfl
  split at checked
  · cases checked
    exact .inl rfl
  rename_i url full
  split at checked
  · rename_i absent
    have missing := findBlock_absent absent
    split at checked
    · cases checked
      exact .inl rfl
    · refine .inr
        ⟨url, full, acceptPutBlock_touches (unique.touches source (url, false)) ?_ checked⟩
      exact fun sameUrl sameKind => (addBlock_put unique sameUrl sameKind missing).1
  · rename_i node rest finds
    have back : TouchesNode source url false store (addBlock source node rest) :=
      (findBlock_addBlock_put unique finds rfl rfl).1
    split at checked
    · cases checked
      exact .inr ⟨url, full, back⟩
    split at checked
    · cases checked
      exact .inr ⟨url, full, back⟩
    · refine .inr ⟨url, full, acceptPutBlock_touches (findBlock_taken unique finds).1 ?_ checked⟩
      exact fun sameUrl sameKind => (findBlock_addBlock_put unique finds sameUrl sameKind).1

/-- A block from the store touches the node it is from. -/
theorem checkBlockwiseTransferGet_touches (unique : Unique store) {check : GetCheck} (checked :
      checkBlockwiseTransferGet now source request response store = some (check, answer, next)) :
    TouchesOwn source request true store next := by
  rw [checkBlockwiseTransferGet] at checked
  split at checked
  · cases checked
    exact .inl rfl
  rename_i url full
  split at checked
  · cases checked
    exact .inl rfl
  rename_i node _ _
  simp only at checked
  generalize (if node.bufferSize.toInt.tmod (requestedBlock2 request).size.toNat ≠ 0 then
    node.bufferSize.toInt.tdiv (requestedBlock2 request).size.toNat + 1
      else node.bufferSize.toInt.tdiv (requestedBlock2 request).size.toNat) = total at checked
  generalize (if node.bufferSize.toInt.tmod (requestedBlock2 request).size.toNat ≠ 0 ∧
    (requestedBlock2 request).num = (Int32.ofInt total - 1).toUInt32 then
      node.bufferSize.toInt.tmod (requestedBlock2 request).size.toNat
        else (requestedBlock2 request).size.toNat) = payloadLen at checked
  split at checked
  · cases checked
    exact .inl rfl
  split at checked
  · cases checked
    refine .inr ⟨url, full, modifyBlock_touches unique fun _ => ?_⟩
    rfl
  · cases checked

theorem TouchesOwn.trans {isGet : Bool}
    {last : BlockStore A} (first : TouchesOwn source request isGet store next)
    (second : TouchesOwn source request isGet next last) :
    TouchesOwn source request isGet store last := by
  rcases first with rfl | ⟨url, full, first⟩
  · exact second
  rcases second with rfl | ⟨other, again, second⟩
  · exact .inr ⟨url, full, first⟩
  · obtain rfl := some.inj (full.symm.trans again)
    exact .inr ⟨url, full, first.trans second⟩

theorem TouchesOwn.unique {isGet : Bool} (touches : TouchesOwn source request isGet store next)
    (unique : Unique store) : Unique next := by
  rcases touches with rfl | ⟨url, _, touches⟩
  · exact unique
  · exact touches.shelved

variable {E : Type} {server after : ServerContext A E}

omit [DecidableEq A] in
theorem ServerContext.send_blockwise {message : Packet}
    (sends : server.send source message = some after) : after.blockwise = server.blockwise := by
  rw [ServerContext.send] at sends
  obtain ⟨packet, _, rfl⟩ := map_eq_some_iff.mp sends
  split <;> rfl

omit [DecidableEq A] in
theorem coapHandleRequestInternal_blockwise (request response : Packet)
    (server : ServerContext A E) :
    (coapHandleRequestInternal request response server).2.2.2.blockwise = server.blockwise := by
  rw [coapHandleRequestInternal]
  simp only
  split
  · rfl
  split <;> rfl

theorem ServerContext.keep_touches (unique : Unique server.blockwise)
    (payload outPayload : List UInt8) : TouchesOwn source request true server.blockwise
      (server.keep now source request answer payload outPayload).blockwise := by
  rw [ServerContext.keep]
  split
  · split
    · exact .inl rfl
    · rename_i url full
      exact .inr ⟨url, full, setResBlockwise_touches unique _ _ _ _ _⟩
  · exact .inl rfl

theorem respondGet_touches (unique : Unique server.blockwise) {outPayload : List UInt8}
    (responds : respondGet now source request response outPayload server = some after) :
    TouchesOwn source request true server.blockwise after.blockwise := by
  rw [respondGet_eq] at responds
  obtain ⟨answer, _, sends⟩ := bind_eq_some_iff.mp responds
  obtain ⟨sent, delivers, rfl⟩ := map_eq_some_iff.mp sends
  have same := ServerContext.send_blockwise delivers
  rw [← same]
  rw [← same] at unique
  exact ServerContext.keep_touches unique _ _

/-- The status and the server behind the request handler of the context, which is asked when
no resource was found. -/
def ServerContext.fallBack (request : Packet) (status : UInt8) (server : ServerContext A E) :
    UInt8 × ServerContext A E :=
  if status = notImplemented501 then
    match server.requestHandler with
    | none => (status, server)
    | some handler =>
      ((handler request server.app).1, { server with app := (handler request server.app).2 })
  else (status, server)

omit [DecidableEq A] in
theorem ServerContext.fallBack_blockwise (request : Packet)
    (status : UInt8) (server : ServerContext A E) :
    (server.fallBack request status).2.blockwise = server.blockwise := by
  rw [ServerContext.fallBack]
  split
  · split <;> rfl
  · rfl

omit [DecidableEq A] in
theorem ServerContext.fallBack_handled (request : Packet) (status : UInt8)
    (server : ServerContext A E) : (server.fallBack request status).2.handled = server.handled := by
  rw [ServerContext.fallBack]
  split
  · split <;> rfl
  · rfl

theorem serveRequest_eq (now : UInt32) (source : A) (request response : Packet)
    (server : ServerContext A E) : serveRequest now source request response server =
      let (status, answer, outPayload, called) := coapHandleRequestInternal request response server
      let (code, context) := called.fallBack request status
      if code = manualResponse then some context
      else if code ≠ notImplemented501 then
        if request.code = coapGet then
          respondGet now source request (coapSetStatusCode code answer) outPayload context
        else context.send source (coapSetStatusCode code answer)
      else if context.responseOnNotFound then context.send source (coapSetStatusCode code answer)
      else some context := by
  unfold serveRequest
  generalize coapHandleRequestInternal request response server = handled
  obtain ⟨status, answer, outPayload, called⟩ := handled
  rfl

/-- Only the answer to a `GET` changes the store. -/
theorem serveRequest_touches (unique : Unique server.blockwise)
    (serves : serveRequest now source request response server = some after) :
    TouchesOwn source request (request.code = coapGet) server.blockwise after.blockwise := by
  have called := coapHandleRequestInternal_blockwise request response server
  rw [serveRequest_eq] at serves
  generalize coapHandleRequestInternal request response server = handled at serves called
  obtain ⟨status, answer, outPayload, behind⟩ := handled
  simp only at serves called
  have fallback := (ServerContext.fallBack_blockwise request status behind).trans called
  generalize behind.fallBack request status = outcome at serves fallback
  obtain ⟨code, context⟩ := outcome
  simp only at serves fallback
  rw [← fallback]
  rw [← fallback] at unique
  split at serves
  · cases serves
    exact .inl rfl
  split at serves
  · split at serves
    · rename_i get
      rw [decide_eq_true get]
      exact respondGet_touches unique serves
    · exact .inl (ServerContext.send_blockwise serves)
  split at serves
  · exact .inl (ServerContext.send_blockwise serves)
  · cases serves
    exact .inl rfl

omit [DecidableEq A] in
theorem prepareResponse_blockwise (request : Packet) (server : ServerContext A E) :
    (prepareResponse request server).2.blockwise = server.blockwise := by
  rw [prepareResponse]
  by_cases con : request.type = .con
  · rw [if_pos con]
  · rw [if_neg con]

/-- A request touches at most the node of its peer for its url, of the direction of its
method. -/
theorem coapRequestHandler_touches (unique : Unique server.blockwise)
    (handles : coapRequestHandler now source request server = some after) :
    TouchesOwn source request (request.code = coapGet) server.blockwise after.blockwise := by
  have prepared := prepareResponse_blockwise request server
  rw [coapRequestHandler] at handles
  generalize prepareResponse request server = pair at handles prepared
  obtain ⟨response, ready⟩ := pair
  simp only at handles prepared
  rw [← prepared]
  rw [← prepared] at unique
  split at handles
  · rename_i get
    obtain ⟨⟨check, answer, store⟩, checked, served⟩ := bind_eq_some_iff.mp handles
    have touches := checkBlockwiseTransferGet_touches unique checked
    rw [decide_eq_true get]
    simp only at served
    split at served
    · have behind := serveRequest_touches (touches.unique unique) served
      rw [decide_eq_true get] at behind
      exact touches.trans behind
    · rw [ServerContext.send_blockwise served]
      exact touches
  rename_i notGet
  rw [decide_eq_false notGet]
  split at handles
  · obtain ⟨⟨check, answer, store⟩, checked, served⟩ := bind_eq_some_iff.mp handles
    have touches := checkBlockwiseTransferPut_touches unique checked
    simp only at served
    split at served
    · have behind := serveRequest_touches (touches.unique unique) served
      rw [decide_eq_false notGet] at behind
      exact touches.trans behind
    · have behind := serveRequest_touches (touches.unique unique) served
      rw [decide_eq_false notGet] at behind
      exact touches.trans behind
    · rw [ServerContext.send_blockwise served]
      exact touches
  · have behind := serveRequest_touches unique handles
    rw [decide_eq_false notGet] at behind
    exact behind

end Requests

end Idrm.Coap
