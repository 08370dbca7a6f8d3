import Idrm.Lib.Bytes
import Idrm.Coap.Packet

/-!
# The block-wise store of a server

For every peer the server keeps nodes: uploads it has received in part, and
representations it has to hand out in part. `checkBlockwiseTransferPut` takes in a
block of an upload, `checkBlockwiseTransferGet` answers from a kept representation.

Peers are compared as addresses, and the memory of a new upload is taken to be zero.
`none` is a read or a write outside of a buffer.
-/

namespace Idrm.Coap

open Idrm.Lib

/-- `REQUEST_ENTITY_TOO_LARGE_4_13` -/
def requestEntityTooLarge413 : UInt8 := 141

/-- `res_block_state_t`; `buffer` is what its pointer was allocated with. -/
structure BlockNode where
  url : CString
  buffer : List UInt8
  bufferSize : Int32
  blockNum : UInt32
  contentFmt : UInt16
  lastAccess : UInt32
  isGet : Bool
deriving DecidableEq

/-- The list of `peer_block_state_t`. -/
abbrev BlockStore (A : Type) := List (A × List BlockNode)

/-- `coap_get_full_url_alloc`: path and query with an `&` between them, or `NULL` without a path.
What the code does with a terminator inside a path that a query follows depends on memory it did
not write; `Named` rules that out in runs. -/
def coapGetFullUrlAlloc (request : Packet) : Option CString :=
  let url := coapGetHeaderUriPath request
  let query := coapGetHeaderUriQuery request
  if url.length = 0 then none
  else if query.length ≠ 0 then some (.ofBytes (url.takeWhile (· ≠ 0) ++ 0x26 :: query))
  else some (.ofBytes url)

/-- `coap_get_header_size1`, for a caller with a default. -/
def coapGetHeaderSize1 (packet : Packet) (size : UInt32) : UInt32 :=
  if packet.isOption .size1 then packet.size1 else size

/-- `coap_set_header_size1` -/
def coapSetHeaderSize1 (size : UInt32) (packet : Packet) : Packet :=
  CoapPacket.setOption .size1 { packet with size1 := size }

/-- `coap_set_header_size2` -/
def coapSetHeaderSize2 (size : UInt32) (packet : Packet) : Packet :=
  CoapPacket.setOption .size2 { packet with size2 := size }

/-- `coap_set_status_code` -/
def coapSetStatusCode (code : UInt8) (packet : Packet) : Packet := { packet with code := code }

section Store

variable {A : Type} [DecidableEq A]

/-- The first node for a url, and the list without it. -/
def takeNode (url : CString) (isGet : Bool) : List BlockNode → Option (BlockNode × List BlockNode)
  | [] => none
  | node :: rest =>
    if isGet = node.isGet ∧ node.url = url then some (node, rest)
    else (takeNode url isGet rest).map fun (found, rest) => (found, node :: rest)

/-- `find_block`: the first node of a peer for a url, and the store without it. -/
def findBlock (source : A) (url : CString) (isGet : Bool) :
    BlockStore A → Option (BlockNode × BlockStore A)
  | [] => none
  | (peer, nodes) :: rest =>
    match if source = peer then takeNode url isGet nodes else none with
    | some (found, nodes) => some (found, (peer, nodes) :: rest)
    | none => (findBlock source url isGet rest).map fun (found, rest) =>
      (found, (peer, nodes) :: rest)

/-- A node put in front of those of its peer, if the peer is known. -/
def pushNode (source : A) (node : BlockNode) : BlockStore A → Option (BlockStore A)
  | [] => none
  | (peer, nodes) :: rest =>
    if source = peer then some ((peer, node :: nodes) :: rest)
    else (pushNode source node rest).map ((peer, nodes) :: ·)

/-- `add_block` -/
def addBlock (source : A) (node : BlockNode) (store : BlockStore A) : BlockStore A :=
  (pushNode source node store).getD ((source, [node]) :: store)

/-- The first node of a peer for a url, changed where it is. -/
def modifyNode (url : CString) (isGet : Bool) (change : BlockNode → BlockNode) :
    List BlockNode → Option (List BlockNode)
  | [] => none
  | node :: rest =>
    if isGet = node.isGet ∧ node.url = url then some (change node :: rest)
    else (modifyNode url isGet change rest).map (node :: ·)

/-- The node `find_block` finds, changed through its pointer. -/
def modifyBlock (source : A) (url : CString) (isGet : Bool) (change : BlockNode → BlockNode) :
    BlockStore A → BlockStore A
  | [] => []
  | (peer, nodes) :: rest =>
    match if source = peer then modifyNode url isGet change nodes else none with
    | some nodes => (peer, nodes) :: rest
    | none => (peer, nodes) :: modifyBlock source url isGet change rest

/-- `set_res_blockwise`: the representation replaces one that is kept already. -/
def setResBlockwise (now : UInt32)
    (source : A) (url : CString) (buffer : List UInt8) (bufferSize : Int32)
    (blockNum : UInt32) (contentFmt : UInt16) (store : BlockStore A) : BlockStore A :=
  match findBlock source url true store with
  | some (node, store) => addBlock source
      { node with
        buffer := buffer, contentFmt := contentFmt, bufferSize := bufferSize, blockNum := blockNum,
        lastAccess := now } store
  | none => addBlock source ⟨url, buffer, bufferSize, blockNum, contentFmt, now, true⟩ store

/-! ## Uploads -/

/-- What `check_blockwise_transfer_put` returns; a completed upload comes with its
payload. -/
inductive PutCheck where
  | notBlockwise
  | invalid
  | completed (payload : List UInt8)
  | uncompleted

/-- Where a block goes: the product of its number and size, as an `int`. -/
def blockOffset (num : UInt32) (size : UInt16) : Int := (num * size.toUInt32).toInt32.toInt

/-- `memcpy` into a buffer at an offset. -/
def copyInto (buffer : List UInt8) (offset : Int) (bytes : List UInt8) : Option (List UInt8) :=
  if offset < 0 then none else storeAll buffer offset.toNat bytes

/-- The part of `check_blockwise_transfer_put` behind its checks: the block is copied in,
and the node goes back to the store unless the block was the last. -/
def acceptPutBlock (now : UInt32) (source : A) (request response : Packet)
    (block : Block) (size : UInt16) (node : BlockNode) (offset : Int) (store : BlockStore A) :
    Option (PutCheck × Packet × BlockStore A) :=
  (copyInto node.buffer offset request.payload).map fun buffer =>
    let node := { node with buffer := buffer, lastAccess := now, blockNum := block.num }
    let response := coapSetHeaderBlock1 block.num block.more size response
    if block.more = false then
      (.completed (buffer.take ((offset.toNat + request.payload.length) % 65536)), response, store)
    else (.uncompleted, coapSetStatusCode continue231 response, addBlock source node store)

/-- `check_blockwise_transfer_put` -/
def checkBlockwiseTransferPut (now : UInt32) (source : A) (request response : Packet)
    (store : BlockStore A) : Option (PutCheck × Packet × BlockStore A) :=
  match coapGetHeaderBlock1 request with
  | none => some (.notBlockwise, response, store)
  | some block =>
    let size := if block.size < 1024 then block.size else 1024
    if block.more = false ∧ block.num = 0 then some (.notBlockwise, response, store)
    else match coapGetFullUrlAlloc request with
      | none => some (.notBlockwise, response, store)
      | some url =>
        match findBlock source url false store with
        | none =>
          if block.num ≠ 0 ∨ block.more = false then
            some (.invalid, coapSetStatusCode badOption402 response, store)
          else
            let bufferSize := coapGetHeaderSize1 request (1024 * 16)
            let node : BlockNode :=
              ⟨url, List.replicate bufferSize.toNat 0, bufferSize.toInt32, 0, 0, now, false⟩
            acceptPutBlock now source request response block size node 0 store
        | some (node, rest) =>
          if block.num ≠ node.blockNum ∧ block.num ≠ node.blockNum + 1 then
            some (.invalid, coapSetStatusCode badOption402 response, addBlock source node rest)
          else
            let offset := blockOffset block.num size
            if offset + request.payload.length > node.bufferSize.toInt then
              some (.invalid, coapSetStatusCode requestEntityTooLarge413 response,
                addBlock source node rest)
            else acceptPutBlock now source request response block size node offset rest

/-! ## Downloads -/

/-- What `check_blockwise_transfer_get` returns. -/
inductive GetCheck where
  | notBlockwise
  | invalid
  | fromCache

/-- The block a request asks for, a whole chunk from the start by default. -/
def requestedBlock2 (request : Packet) : Block :=
  match coapGetHeaderBlock2 request with
  | none => ⟨0, false, 1024, 0⟩
  | some block => { block with size := if block.size < 1024 then block.size else 1024 }

/-- `check_blockwise_transfer_get`. The number of blocks is an `int` and is compared with
the unsigned block number. -/
def checkBlockwiseTransferGet (now : UInt32) (source : A) (request response : Packet)
    (store : BlockStore A) : Option (GetCheck × Packet × BlockStore A) :=
  match coapGetFullUrlAlloc request with
  | none => some (.notBlockwise, response, store)
  | some url =>
    match findBlock source url true store with
    | none => some (.notBlockwise, response, store)
    | some (node, _) =>
      let block := requestedBlock2 request
      let size : Int := block.size.toNat
      let whole := node.bufferSize.toInt.tdiv size
      let left := node.bufferSize.toInt.tmod size
      let total := Int32.ofInt (if left ≠ 0 then whole + 1 else whole)
      let payloadLen := if left ≠ 0 ∧ block.num = (total - 1).toUInt32 then left else size
      if block.num ≥ total.toUInt32 then
        some (.invalid, coapSetStatusCode requestEntityTooLarge413 response, store)
      else
        let start := (block.num * block.size.toUInt32).toNat
        if start + payloadLen.toNat ≤ node.buffer.length then
          let response :=
            coapSetHeaderBlock2 block.num (block.num + 1 < total.toUInt32) block.size response
          let response := coapSetPayload ((node.buffer.drop start).take payloadLen.toNat) response
          let response := coapSetHeaderContentFormat node.contentFmt.toUInt32
            (coapSetStatusCode content205 response)
          some (.fromCache, response, modifyBlock source url true
            (fun node => { node with lastAccess := now, blockNum := block.num }) store)
        else none

end Store

end Idrm.Coap
