import Idrm.Coap.BlockStore
import Idrm.Coap.Serving

/-!
# Runs of a server

A server handles requests of any peers and, from time to time, looks for nodes it has kept
for too long. On every run the store stays a map, a peer is not affected by the requests of
others, and a timeout removes what is too old. An upload is written inside its buffer as
long as no first block is longer than what it announces, which is not checked.
-/

namespace Idrm.Coap

open Idrm.Lib Option List

/-! ## What nodes are kept under -/

/-- The url of a request: its path and its query. -/
def urlOf (request : Packet) : List UInt8 × List UInt8 :=
  (coapGetHeaderUriPath request, coapGetHeaderUriQuery request)

/-- A request that is kept under its url, if it is kept at all. A `GET` without a path whose more
flag is set is kept under `NULL`, which the next search of its peer's nodes reads; and the query is
put in the place of a terminator inside the path. -/
structure Named (request : Packet) : Prop where
  path : request.code = coapGet → coapGetHeaderUriPath request = [] →
    (requestedBlock2 request).more = false
  ends : coapGetHeaderUriQuery request ≠ [] → 0 ∉ coapGetHeaderUriPath request

/-- What a server is called for. -/
inductive ServerCall (A : Type) where
  | request (now : UInt32) (source : A) (request : Packet)
  | checkTimeout (now : UInt32) (timeout : Int32)

/-- A call with a request that is kept under its url. -/
def ServerCall.Named {A : Type} : ServerCall A → Prop
  | .request _ _ message => Coap.Named message
  | .checkTimeout _ _ => True

section Runs

variable {A E : Type} [DecidableEq A]

/-- One call of a server; without result where the code reads or writes out of bounds. -/
def ServerContext.perform : ServerCall A → ServerContext A E → Option (ServerContext A E)
  | .request now source request, server => coapRequestHandler now source request server
  | .checkTimeout now timeout, server =>
    some { server with blockwise := (checkBlockwiseTimeoutMs now timeout server.blockwise).2 }

theorem ServerContext.perform_unique {call : ServerCall A} {server next : ServerContext A E}
    (unique : Unique server.blockwise) (performed : server.perform call = some next) :
    Unique next.blockwise := by
  cases call with
  | request now source request => exact (coapRequestHandler_touches unique performed).unique unique
  | checkTimeout now timeout =>
    obtain rfl := some.inj performed
    rw [checkBlockwiseTimeoutMs_store]
    exact Shelved.pruned _ unique

/-- In every state of every run from an empty store, every peer is listed once and has one
node at most for a url and a direction, the next request leaves the nodes of all other
peers as they are, and a timeout removes exactly the nodes that are too old and then
exactly the peers without nodes. -/
theorem blockwise_store_runs {calls : List (ServerCall A)} {start server : ServerContext A E}
    (empty : start.blockwise = []) (ran : runAll ServerContext.perform calls start = some server) :
    (server.blockwise.map Prod.fst).Nodup ∧
      (∀ entry ∈ server.blockwise, (entry.2.map fun node => (node.url, node.isGet)).Nodup) ∧
      (∀ now source request next, coapRequestHandler now source request server = some next →
        (next.blockwise.filter fun entry => entry.1 ≠ source) =
          server.blockwise.filter fun entry => entry.1 ≠ source) ∧
      (∀ now timeout, (checkBlockwiseTimeoutMs now timeout server.blockwise).2 =
        (server.blockwise.map fun entry => (entry.1, entry.2.filter fun node =>
          !decide ((now.toNat : Int) - node.lastAccess.toNat > timeout.toInt))).filter
            fun entry => !entry.2.isEmpty) := by
  have unique : Unique server.blockwise := by
    refine runAll_keeps
      (fun unique performed => ServerContext.perform_unique unique performed) ran ?_
    rw [empty]
    exact shelved_nil
  refine ⟨unique.owners, unique.values, fun now source request next handles => ?_,
    fun now timeout => ?_⟩
  · rcases coapRequestHandler_touches unique handles with same | ⟨url, _, touches⟩
    · rw [same]
    · exact touches.others
  · exact checkBlockwiseTimeoutMs_store now timeout server.blockwise

/-- A server without resources. -/
def bareServer : ServerContext Bool Unit := ⟨[], [], none, true, 1, (), [], []⟩

/-- A block of sixteen bytes at most, for one resource. -/
def smallBlock (num : UInt32) (more : Bool) (size1 : UInt32) (payload : List UInt8) : Packet :=
  coapSetHeaderSize1 size1 (coapSetHeaderBlock1 num more 16 (coapSetHeaderUriPath (.ofBytes [0x61])
    (coapSetPayload payload (coapSetToken [1] (coapInitMessage .con coapPut 1)))))

/-- Two peers start an upload each, and one of them is too late. -/
def twoUploads : List (ServerCall Bool) :=
  [.request 3 true (smallBlock 0 true 40 (List.replicate 16 7)),
    .request 4 false (smallBlock 0 true 40 (List.replicate 16 8)), .checkTimeout 9 5]

theorem blockwise_store_runs_twoUploads :
    ∃ server, runAll ServerContext.perform twoUploads bareServer = some server ∧
      (server.blockwise.map Prod.fst).Nodup := by
  obtain ⟨server, ran⟩ := isSome_iff_exists.mp
    (by decide +kernel : (runAll ServerContext.perform twoUploads bareServer).isSome = true)
  exact ⟨server, ran, (blockwise_store_runs rfl ran).1⟩

/-! ## The copies of uploads -/

/-- A copy of `check_blockwise_transfer_put`: where it starts, how long it is, and the
`buffer_size` of the node it writes to. -/
structure BlockCopy where
  offset : Int
  length : Nat
  bufferSize : Int
deriving DecidableEq

/-- Every byte that is copied goes into the buffer. -/
def BlockCopy.Inside (copy : BlockCopy) : Prop :=
  0 ≤ copy.offset ∧ copy.offset + copy.length ≤ copy.bufferSize

/-- What `check_blockwise_transfer_put` decides before it copies anything: to accept a block
into a node that is out of the store, to refuse it, or that it is none. -/
inductive PutDecision (A : Type) where
  | plain
  | refused (code : UInt8) (store : BlockStore A)
  | accepted (block : Block) (size : UInt16) (node : BlockNode) (offset : Int) (rest : BlockStore A)

/-- The node of an upload that starts. -/
def openedNode (now : UInt32) (url : CString) (bufferSize : UInt32) : BlockNode :=
  ⟨url, List.replicate bufferSize.toNat 0, bufferSize.toInt32, 0, 0, now, false⟩

/-- The part of `check_blockwise_transfer_put` ahead of its copy. -/
def putDecision (now : UInt32) (source : A) (request : Packet) (store : BlockStore A) :
    PutDecision A :=
  match coapGetHeaderBlock1 request with
  | none => .plain
  | some block =>
    let size := if block.size < 1024 then block.size else 1024
    if block.more = false ∧ block.num = 0 then .plain
    else match coapGetFullUrlAlloc request with
      | none => .plain
      | some url =>
        match findBlock source url false store with
        | none =>
          if block.num ≠ 0 ∨ block.more = false then .refused badOption402 store
          else .accepted block size
            (openedNode now url (coapGetHeaderSize1 request (1024 * 16))) 0 store
        | some (node, rest) =>
          if block.num ≠ node.blockNum ∧ block.num ≠ node.blockNum + 1 then
            .refused badOption402 (addBlock source node rest)
          else if blockOffset block.num size + request.payload.length > node.bufferSize.toInt then
            .refused requestEntityTooLarge413 (addBlock source node rest)
          else .accepted block size node (blockOffset block.num size) rest

/-- What becomes of a decision. -/
def PutDecision.conclude (now : UInt32) (source : A) (request response : Packet)
    (store : BlockStore A) : PutDecision A → Option (PutCheck × Packet × BlockStore A)
  | .plain => some (.notBlockwise, response, store)
  | .refused code store => some (.invalid, coapSetStatusCode code response, store)
  | .accepted block size node offset rest =>
    acceptPutBlock now source request response block size node offset rest

theorem checkBlockwiseTransferPut_eq (now : UInt32) (source : A) (request response : Packet)
    (store : BlockStore A) : checkBlockwiseTransferPut now source request response store =
      (putDecision now source request store).conclude now source request response store := by
  rw [checkBlockwiseTransferPut, putDecision]
  cases coapGetHeaderBlock1 request with
  | none => rfl
  | some block =>
    simp only
    generalize (if block.size < 1024 then block.size else 1024) = size
    by_cases single : block.more = false ∧ block.num = 0
    · rw [if_pos single, if_pos single]
      rfl
    rw [if_neg single, if_neg single]
    cases coapGetFullUrlAlloc request with
    | none => rfl
    | some url =>
      simp only
      cases findBlock source url false store with
      | none =>
        simp only
        split
        · rfl
        · rfl
      | some pair =>
        simp only
        split
        · rfl
        split
        · rfl
        · rfl

/-- The copy of an accepted block. -/
def putCopy (now : UInt32) (source : A) (request : Packet) (store : BlockStore A) :
    Option BlockCopy :=
  match putDecision now source request store with
  | .accepted _ _ node offset _ => some ⟨offset, request.payload.length, node.bufferSize.toInt⟩
  | _ => none

/-- A request that opens an upload: the first of several blocks, of which the peer has sent
none yet. -/
def OpensUpload (source : A) (request : Packet) (store : BlockStore A) : Prop :=
  ∃ block url, coapGetHeaderBlock1 request = some block ∧ block.num = 0 ∧ block.more = true ∧
    coapGetFullUrlAlloc request = some url ∧ findBlock source url false store = none

/-- A block that opens an upload is no longer than what it announces, taken as an `int`. -/
def FitsAnnounced (source : A) (request : Packet) (store : BlockStore A) : Prop :=
  OpensUpload source request store →
    (request.payload.length : Int) ≤ (coapGetHeaderSize1 request (1024 * 16)).toInt32.toInt

theorem blockOffset_eq {num : UInt32} (small : num.toNat < 2 ^ 20) {size : UInt16}
    (chunk : size.toNat ≤ 1024) : blockOffset num size = (num.toNat * size.toNat : Nat) := by
  have product : num.toNat * size.toNat ≤ 2 ^ 20 * 1024 := Nat.mul_le_mul (Nat.le_of_lt small) chunk
  have value : num * size.toUInt32 = UInt32.ofNat (num.toNat * size.toNat) := by
    rw [UInt32.ofNat_mul, UInt32.ofNat_toNat, ← UInt16.toNat_toUInt32, UInt32.ofNat_toNat]
  rw [blockOffset, value]
  exact toInt_ofNat (by omega)

/-- A block that opens an upload is accepted in any case, every other one only inside the
buffer of its node. -/
theorem putDecision_cases {source : A} {request : Packet}
    (small : request.block1.num.toNat < 2 ^ 20) (now : UInt32) (store : BlockStore A) :
    (OpensUpload source request store ∧ ∃ block size url, putDecision now source request store =
      .accepted block size (openedNode now url (coapGetHeaderSize1 request (1024 * 16))) 0 store) ∨
    (¬ OpensUpload source request store ∧ ∀ block size node offset rest,
      putDecision now source request store = .accepted block size node offset rest →
      0 ≤ offset ∧ offset + request.payload.length ≤ node.bufferSize.toInt) := by
  rw [putDecision]
  cases option : coapGetHeaderBlock1 request with
  | none =>
    refine .inr ⟨?_, fun _ _ _ _ _ accepted => by cases accepted⟩
    rintro ⟨block, url, present, _⟩
    rw [option] at present
    cases present
  | some block =>
    have number : block.num.toNat < 2 ^ 20 := by
      rw [coapGetHeaderBlock1] at option
      split at option
      · cases option
        exact small
      · cases option
    have chunk : (if block.size < 1024 then block.size else 1024).toNat ≤ 1024 := by
      split
      · exact Nat.le_of_lt (by assumption)
      · exact Nat.le_refl _
    simp only
    generalize (if block.size < 1024 then block.size else 1024) = size at chunk
    by_cases single : block.more = false ∧ block.num = 0
    · rw [if_pos single]
      refine .inr ⟨?_, fun _ _ _ _ _ accepted => by cases accepted⟩
      rintro ⟨other, url, present, _, more, _⟩
      obtain rfl := some.inj (option.symm.trans present)
      rw [single.1] at more
      cases more
    rw [if_neg single]
    cases full : coapGetFullUrlAlloc request with
    | none =>
      refine .inr ⟨?_, fun _ _ _ _ _ accepted => by cases accepted⟩
      rintro ⟨other, url, _, _, _, named, _⟩
      rw [full] at named
      cases named
    | some url =>
      simp only
      cases found : findBlock source url false store with
      | none =>
        simp only
        by_cases later : block.num ≠ 0 ∨ block.more = false
        · rw [if_pos later]
          refine .inr ⟨?_, fun _ _ _ _ _ accepted => by cases accepted⟩
          rintro ⟨other, name, present, first, more, _⟩
          obtain rfl := some.inj (option.symm.trans present)
          rcases later with later | last
          · exact later first
          · rw [last] at more
            cases more
        · rw [if_neg later]
          obtain ⟨first, more⟩ := not_or.mp later
          exact .inl ⟨⟨block, url, option, not_not.mp first, Bool.eq_true_of_not_eq_false more,
            full, found⟩, block, size, url, rfl⟩
      | some pair =>
        refine .inr ⟨?_, ?_⟩
        · rintro ⟨other, name, _, _, _, named, absent⟩
          obtain rfl := some.inj (full.symm.trans named)
          rw [found] at absent
          cases absent
        · intro _ _ _ _ _ accepted
          simp only at accepted
          split at accepted
          · cases accepted
          split at accepted
          · cases accepted
          · rename_i inside
            cases accepted
            rw [blockOffset_eq number chunk] at inside ⊢
            omega

theorem putCopy_inside_iff {source : A} {request : Packet}
    (small : request.block1.num.toNat < 2 ^ 20) (now : UInt32) (store : BlockStore A) :
    (∀ copy, putCopy now source request store = some copy → copy.Inside) ↔
    FitsAnnounced source request store := by
  rcases putDecision_cases small now store with ⟨opens, block, size, url, accepted⟩ |
    ⟨follows, inside⟩
  · have copies : putCopy now source request store = some ⟨0, request.payload.length,
        (coapGetHeaderSize1 request (1024 * 16)).toInt32.toInt⟩ := by
      rw [putCopy, accepted]
      rfl
    rw [copies]
    constructor
    · intro inside _
      have fits := (inside _ rfl).2
      simp only at fits
      omega
    · intro fits copy same
      cases same
      refine ⟨Int.le_refl 0, ?_⟩
      have announced := fits opens
      simp only
      omega
  · refine iff_of_true (fun copy copies => ?_) fun opens => absurd opens follows
    rw [putCopy] at copies
    split at copies
    · rename_i block size node offset rest accepted
      cases copies
      exact inside block size node offset rest accepted
    · cases copies

/-- The copy a call makes. -/
def callCopy (server : ServerContext A E) : ServerCall A → Option BlockCopy
  | .request now source request =>
    if request.code = coapPost ∨ request.code = coapPut then
      putCopy now source request server.blockwise
    else none
  | .checkTimeout _ _ => none

/-- The block number of a request is one an option can hold. -/
def ServerCall.Numbered : ServerCall A → Prop
  | .request _ _ message => message.block1.num.toNat < 2 ^ 20
  | .checkTimeout _ _ => True

/-- A call does not open an upload with a block that is longer than what it announces. -/
def ServerCall.Fits (server : ServerContext A E) : ServerCall A → Prop
  | .request _ source message =>
    message.code = coapPost ∨ message.code = coapPut → FitsAnnounced source message server.blockwise
  | .checkTimeout _ _ => True

/-- Every copy of a run is made inside of a buffer, exactly if no block opens an upload
that is longer than what it announces. -/
theorem upload_copies_inside (calls : List (ServerCall A)) (start : ServerContext A E)
    (numbered : ∀ call ∈ calls, call.Numbered) :
    (∀ visit ∈ visited ServerContext.perform calls start,
      ∀ copy, callCopy visit.1 visit.2 = some copy → copy.Inside) ↔
    ∀ visit ∈ visited ServerContext.perform calls start, visit.2.Fits visit.1 := by
  have single : ∀ visit ∈ visited ServerContext.perform calls start,
      (∀ copy, callCopy visit.1 visit.2 = some copy → copy.Inside) ↔ visit.2.Fits visit.1 := by
    rintro ⟨server, call⟩ member
    have small := numbered call (mem_visited member)
    cases call with
    | request now source request =>
      rw [callCopy, ServerCall.Fits]
      split
      · rename_i upload
        rw [putCopy_inside_iff small now server.blockwise]
        exact ⟨fun fits _ => fits, fun fits => fits upload⟩
      · rename_i other
        exact iff_of_true (fun copy copies => by cases copies) fun upload => absurd upload other
    | checkTimeout now timeout => exact iff_of_true (fun copy copies => by cases copies) trivial
  exact forall₂_congr single

/-- The first block of sixteen bytes of an upload, and what it announces. -/
def firstBlock (size1 : UInt32) : ServerCall Bool :=
  .request 3 true (smallBlock 0 true size1 (List.replicate 16 7))

theorem upload_copies_inside_announced :
    (∀ call ∈ [firstBlock 40], call.Numbered) ∧
    ∀ visit ∈ visited ServerContext.perform [firstBlock 40] bareServer, ∀ copy,
      callCopy visit.1 visit.2 = some copy → copy.Inside := by
  have numbered : ∀ call ∈ [firstBlock 40], call.Numbered := by
    intro call member
    rw [mem_singleton.mp member]
    exact (by decide +kernel : (smallBlock 0 true 40 (List.replicate 16 7)).block1.num.toNat < 2 ^
      20)
  refine ⟨numbered, (upload_copies_inside [firstBlock 40] bareServer numbered).mpr
    fun visit member => ?_⟩
  rw [visited_single] at member
  rw [mem_singleton.mp member]
  exact fun _ _ => by decide +kernel

/-- A first block of sixteen bytes that announces four is written behind its buffer. -/
theorem upload_copies_beyond :
    ¬ ∀ (calls : List (ServerCall Bool)) (start : ServerContext Bool Unit), start.blockwise = [] →
      (∀ call ∈ calls, call.Numbered) → ∀ visit ∈ visited ServerContext.perform calls start, ∀ copy,
        callCopy visit.1 visit.2 = some copy → copy.Inside := by
  intro claimed
  have inside := claimed [firstBlock 4] bareServer rfl
    (fun call member => by
      rw [mem_singleton.mp member]
      exact (by decide +kernel : (smallBlock 0 true 4 (List.replicate 16 7)).block1.num.toNat <
        2 ^ 20))
    (bareServer, firstBlock 4) (by rw [visited_single]; exact mem_singleton_self _) ⟨0, 16, 4⟩
    (by decide +kernel)
  exact absurd inside.2 (by decide)

end Runs

end Idrm.Coap
