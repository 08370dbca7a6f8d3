import Idrm.Coap.DownloadServer
import Idrm.Coap.GetAnswer

/-!
# Representations read from the store

A representation a server keeps is handed out in blocks of the size asked for. The blocks
make up the representation, whatever its length and their size; and each says which one it
is and whether more are behind it, as far as the option has room for its number.
-/

namespace Idrm.Coap

open Idrm.Lib List

/-! ## Slices -/

/-- A slice of a list, of a size that is the same for all of them. -/
def sliceAt (size : Nat) (bytes : List UInt8) (index : Nat) : List UInt8 :=
  (bytes.drop (size * index)).take size

/-- The number of slices. -/
def slicesOf (size length : Nat) : Nat := (length + size - 1) / size

theorem lt_slicesOf {size : Nat} (positive : 0 < size) {length index : Nat} :
    index < slicesOf size length ↔ size * index < length := by
  rw [slicesOf, Nat.lt_iff_add_one_le, Nat.le_div_iff_mul_le positive, Nat.mul_comm, Nat.mul_add]
  omega

theorem sliceAt_length (size : Nat) (bytes : List UInt8) (index : Nat) :
    (sliceAt size bytes index).length = min size (bytes.length - size * index) := by
  rw [sliceAt, length_take, length_drop]

theorem flatMap_sliceAt (size : Nat) (bytes : List UInt8) (count : Nat) :
    (List.range count).flatMap (sliceAt size bytes) = bytes.take (size * count) := by
  induction count with
  | zero => rw [Nat.mul_zero, take_zero, range_zero, flatMap_nil]
  | succ count ih =>
    rw [range_succ, flatMap_append, ih, flatMap_singleton, sliceAt, Nat.mul_add,
      Nat.mul_one, take_add]

theorem flatMap_slices {size : Nat} (positive : 0 < size) (bytes : List UInt8) :
    (List.range (slicesOf size bytes.length)).flatMap (sliceAt size bytes) = bytes := by
  rw [flatMap_sliceAt, take_of_length_le]
  have beyond : ¬ slicesOf size bytes.length < slicesOf size bytes.length := Nat.lt_irrefl _
  rw [lt_slicesOf positive] at beyond
  exact Nat.not_lt.mp beyond

/-! ## One read -/

section Reads

variable {A : Type} [DecidableEq A] {source : A} {url : CString} {representation : List UInt8}
  {store : BlockStore A} {request : Packet} {num : UInt32} {more : Bool} {size : UInt16}
  {offset : UInt32}

/-- The response with a block of a size from the store. -/
def sliceAnswer (representation : List UInt8) (num : UInt32) (size : UInt16) (format : UInt32)
    (response : Packet) : Packet :=
  coapSetHeaderContentFormat format (coapSetStatusCode content205
    (coapSetPayload (sliceAt size.toNat representation num.toNat) (coapSetHeaderBlock2 num
    (decide (num.toNat + 1 < slicesOf size.toNat representation.length)) size response)))

/-- The number of blocks, as the code computes it. -/
theorem slicesOf_eq (length : Nat) {size : Nat} (positive : 0 < size) :
    (if (length : Int).tmod size ≠ 0 then (length : Int).tdiv size + 1
      else (length : Int).tdiv size) = (slicesOf size length : Nat) := by
  have parts := Nat.div_add_mod length size
  have remainder := Nat.mod_lt length positive
  have count : slicesOf size length = if length % size ≠ 0 then length / size + 1
      else length / size := by
    rw [slicesOf]
    split
    · apply Nat.div_eq_of_lt_le
      · rw [Nat.add_mul, Nat.mul_comm]
        omega
      · rw [Nat.add_mul, Nat.add_mul, Nat.mul_comm]
        omega
    · apply Nat.div_eq_of_lt_le
      · rw [Nat.mul_comm]
        omega
      · rw [Nat.add_mul, Nat.mul_comm]
        omega
  rw [← Int.ofNat_tdiv, ← Int.ofNat_tmod, count]
  split
  · rename_i ragged
    rw [if_pos (by omega)]
    rfl
  · rename_i even
    rw [if_neg (by omega)]

/-- The length of a slice, as the code computes it. -/
theorem sliceBytes {size index : Nat} (positive : 0 < size) (bytes : List UInt8)
    (inside : index < slicesOf size bytes.length) :
    (if (bytes.length : Int).tmod size ≠ 0 ∧ index + 1 = slicesOf size bytes.length then
      (bytes.length : Int).tmod size
      else (size : Int)).toNat = (sliceAt size bytes index).length := by
  have starts := (lt_slicesOf positive).mp inside
  have parts := Nat.div_add_mod bytes.length size
  have remainder := Nat.mod_lt bytes.length positive
  have count := slicesOf_eq bytes.length positive
  rw [← Int.ofNat_tdiv, ← Int.ofNat_tmod] at count
  rw [sliceAt_length, ← Int.ofNat_tmod]
  split
  · rename_i last
    rw [if_pos last.1] at count
    have whole : index = bytes.length / size := by omega
    rw [whole, Int.toNat_natCast]
    omega
  · rename_i notLast
    rw [Int.toNat_natCast]
    refine (Nat.min_eq_left ?_).symm
    by_cases ragged : ((bytes.length % size : Nat) : Int) ≠ 0
    · rw [if_pos ragged] at count
      have before : index + 1 ≤ bytes.length / size := by
        have different : index + 1 ≠ slicesOf size bytes.length :=
          fun last => notLast ⟨ragged, last⟩
        omega
      have room := Nat.mul_le_mul_left size before
      rw [Nat.mul_add] at room
      omega
    · rw [if_neg ragged] at count
      have before : index + 1 ≤ bytes.length / size := by omega
      have room := Nat.mul_le_mul_left size before
      rw [Nat.mul_add] at room
      omega

/-- The number of blocks is far from what an `int` holds. -/
theorem slicesOf_small {size length : Nat} (least : 16 ≤ size) (small : length < 2 ^ 31) :
    slicesOf size length ≤ 2 ^ 27 := by
  have positive : 0 < size := by omega
  by_contra large
  have starts := (lt_slicesOf positive).mp (Nat.lt_of_not_le large)
  have most : 16 * 2 ^ 27 ≤ size * 2 ^ 27 := Nat.mul_le_mul_right _ least
  omega

theorem size_chunk (chunk : size.toNat ≤ 1024) : (if size < 1024 then size else 1024) = size := by
  split
  · rfl
  · rename_i notBelow
    apply UInt16.toNat_inj.mp
    have least : ¬ size.toNat < 1024 := notBelow
    exact Nat.le_antisymm (Nat.not_lt.mp least) chunk

/-- The block a request asks for, when it is no larger than a chunk. -/
theorem requestedBlock2_chunk (asks : coapGetHeaderBlock2 request = some ⟨num, more, size, offset⟩)
    (chunk : size.toNat ≤ 1024) : requestedBlock2 request = ⟨num, more, size, offset⟩ := by
  rw [requestedBlock2, asks]
  simp only [size_chunk chunk]

/-- A block that is in the representation comes from the store. -/
theorem checkBlockwiseTransferGet_inside (cached : Cached source url representation store)
    (full : coapGetFullUrlAlloc request = some url)
    (asked : requestedBlock2 request = ⟨num, more, size, offset⟩)
    (least : 16 ≤ size.toNat) (inside : num.toNat < slicesOf size.toNat representation.length)
    (now : UInt32) (response : Packet) : ∃ format next, Cached source url representation next ∧
    checkBlockwiseTransferGet now source request response store =
      some (.fromCache, sliceAnswer representation num size format response, next) := by
  obtain ⟨node, rest, found, buffer, length⟩ := cached
  have positive : 0 < size.toNat := by omega
  have small : representation.length < 2 ^ 31 := by
    have bound := node.bufferSize.toInt_lt
    omega
  have few := slicesOf_small least small
  have count : (UInt32.ofNat (slicesOf size.toNat representation.length)).toNat =
      slicesOf size.toNat representation.length :=
    UInt32.toNat_ofNat_of_lt' (Nat.lt_of_le_of_lt few (by decide))
  have exists_block : ¬ num ≥ UInt32.ofNat (slicesOf size.toNat representation.length) := by
    rw [ge_iff_le, UInt32.le_iff_toNat_le, count]
    omega
  have starts := (lt_slicesOf positive).mp inside
  have start : (num * size.toUInt32).toNat = size.toNat * num.toNat := by
    rw [UInt32.toNat_mul, UInt16.toNat_toUInt32, Nat.mul_comm]
    exact Nat.mod_eq_of_lt (by omega)
  have isLast : num = (Int32.ofInt (slicesOf size.toNat representation.length : Nat) - 1).toUInt32 ↔
      num.toNat + 1 = slicesOf size.toNat representation.length := by
    obtain ⟨before, counted⟩ : ∃ before, slicesOf size.toNat representation.length = before + 1 :=
      ⟨slicesOf size.toNat representation.length - 1, by omega⟩
    rw [counted, toUInt32_ofInt_pred, ← UInt32.toNat_inj,
      UInt32.toNat_ofNat_of_lt' (Nat.lt_of_lt_of_le (by omega : before < 2 ^ 27) (by decide))]
    omega
  have followed : decide (num + 1 < UInt32.ofNat (slicesOf size.toNat representation.length)) =
      decide (num.toNat + 1 < slicesOf size.toNat representation.length) := by
    have next : (num + 1).toNat = num.toNat + 1 := by
      rw [UInt32.toNat_add]
      change (num.toNat + 1) % 2 ^ 32 = num.toNat + 1
      omega
    rw [decide_eq_decide, UInt32.lt_iff_toNat_lt, next, count]
  have bytes := sliceBytes positive representation inside
  have fits : size.toNat * num.toNat + (sliceAt size.toNat representation num.toNat).length ≤
      node.buffer.length := by
    rw [sliceAt_length, buffer]
    omega
  have copied : (node.buffer.drop (size.toNat * num.toNat)).take (sliceAt size.toNat representation
      num.toNat).length = sliceAt size.toNat representation num.toNat := by
    rw [buffer, sliceAt, length_take, ← take_eq_take_min]
  rw [checkBlockwiseTransferGet, full]
  simp only [found, asked, length, slicesOf_eq _ positive, toUInt32_ofInt,
    if_neg exists_block, start, isLast, bytes, followed, if_pos fits, copied]
  exact ⟨node.contentFmt.toUInt32, modifyBlock source url true
      (fun node => { node with lastAccess := now, blockNum := num }) store,
    ⟨_, rest, findBlock_modifyBlock (by intro; rfl) (by intro; rfl) found, buffer, length⟩, rfl⟩

/-- A block behind the representation is refused, and nothing is touched. -/
theorem checkBlockwiseTransferGet_beyond (cached : Cached source url representation store)
    (full : coapGetFullUrlAlloc request = some url)
    (asked : requestedBlock2 request = ⟨num, more, size, offset⟩)
    (least : 16 ≤ size.toNat) (beyond : slicesOf size.toNat representation.length ≤ num.toNat)
    (now : UInt32) (response : Packet) :
    checkBlockwiseTransferGet now source request response store =
      some (.invalid, coapSetStatusCode requestEntityTooLarge413 response, store) := by
  obtain ⟨node, rest, found, buffer, length⟩ := cached
  have positive : 0 < size.toNat := by omega
  have small : representation.length < 2 ^ 31 := by
    have bound := node.bufferSize.toInt_lt
    omega
  have few := slicesOf_small least small
  have none_left : num ≥ UInt32.ofNat (slicesOf size.toNat representation.length) := by
    rw [ge_iff_le, UInt32.le_iff_toNat_le,
      UInt32.toNat_ofNat_of_lt' (Nat.lt_of_le_of_lt few (by decide))]
    exact beyond
  rw [checkBlockwiseTransferGet, full]
  simp only [found, asked, length, slicesOf_eq _ positive, toUInt32_ofInt,
    if_pos none_left]

/-! ## Reading a representation -/

theorem coapSetHeaderBlock2_sized (small : num.toNat < 2 ^ 20)
    (least : 16 ≤ size.toNat) (most : size.toNat ≤ 2048) (more : Bool) (packet : Packet) :
    coapSetHeaderBlock2 num more size packet = CoapPacket.setOption .block2
      { packet with block2 := { packet.block2 with num := num, more := more, size := size } } := by
  have lower : ¬ size < 16 := Nat.not_lt.mpr least
  have upper : ¬ size > 2048 := Nat.not_lt.mpr most
  have inside : ¬ num > 0x0FFFFF := by
    rw [gt_iff_lt, UInt32.lt_iff_toNat_lt, show (0x0FFFFF : UInt32).toNat = 2 ^ 20 - 1 from rfl]
    omega
  rw [coapSetHeaderBlock2, if_neg (not_or.mpr ⟨lower, not_or.mpr ⟨upper, inside⟩⟩)]

theorem getBlock2_setBlock2_sized (small : num.toNat < 2 ^ 20)
    (least : 16 ≤ size.toNat) (most : size.toNat ≤ 2048) (more : Bool) (packet : Packet) :
    coapGetHeaderBlock2 (coapSetHeaderBlock2 num more size packet) =
      some ⟨num, more, size, packet.block2.offset⟩ := by
  rw [coapSetHeaderBlock2_sized small least most, coapGetHeaderBlock2,
    if_pos (by rw [isOption_setOption, decide_eq_true rfl, Bool.true_or])]
  rfl

/-- A number that the option has no room for is not set. -/
theorem coapSetHeaderBlock2_large (large : 2 ^ 20 ≤ num.toNat) (more : Bool) (size : UInt16)
    (packet : Packet) : coapSetHeaderBlock2 num more size packet = packet := by
  have beyond : num > 0x0FFFFF := by
    rw [gt_iff_lt, UInt32.lt_iff_toNat_lt, show (0x0FFFFF : UInt32).toNat = 2 ^ 20 - 1 from rfl]
    omega
  rw [coapSetHeaderBlock2, if_pos (.inr (.inr beyond))]

/-- One call for a block: when it is made, and the response that is prepared for it. -/
structure CachedRead where
  now : UInt32
  request : Packet
  response : Packet

/-- A read asks for a block of a size. -/
def CachedRead.Asks (url : CString) (size : UInt16) (index : Nat) (read : CachedRead) : Prop :=
  coapGetFullUrlAlloc read.request = some url ∧
    ∃ more offset, coapGetHeaderBlock2 read.request = some ⟨UInt32.ofNat index, more, size, offset⟩

/-- Reads one after the other, each from the store the one before has left. -/
def readAll (source : A) : List CachedRead → BlockStore A →
    Option (List (GetCheck × Packet) × BlockStore A)
  | [], store => some ([], store)
  | read :: rest, store =>
    (checkBlockwiseTransferGet read.now source read.request read.response store).bind
      fun (check, answer, store) => (readAll source rest store).map
        fun (answers, store) => ((check, answer) :: answers, store)

/-- A read was answered with a block. -/
structure AnswersSlice (representation : List UInt8) (size : UInt16) (index : Nat)
    (answer : GetCheck × Packet) : Prop where
  check : answer.1 = .fromCache
  code : answer.2.code = content205
  payload : answer.2.payload = sliceAt size.toNat representation index
  block2 : index < 2 ^ 20 → ∃ offset, coapGetHeaderBlock2 answer.2 = some ⟨UInt32.ofNat index,
    decide (index + 1 < slicesOf size.toNat representation.length), size, offset⟩

theorem sliceAnswer_slice {index : Nat} (number : num.toNat = index) (least : 16 ≤ size.toNat)
    (chunk : size.toNat ≤ 1024) (format : UInt32) (response : Packet) : AnswersSlice representation
      size index (.fromCache, sliceAnswer representation num size format response) where
  check := rfl
  code := rfl
  payload := by
    have short : (sliceAt size.toNat representation num.toNat).length ≤ restMaxChunkSize := by
      rw [sliceAt_length]
      exact Nat.le_trans (Nat.min_le_left _ _) chunk
    rw [← number]
    exact take_of_length_le short
  block2 := by
    intro small
    have numbered : UInt32.ofNat index = num := by rw [← number, UInt32.ofNat_toNat]
    rw [numbered, ← number]
    exact ⟨_, (getBlock2_setContentFormat format _).trans (getBlock2_setBlock2_sized
      (number ▸ small) least (Nat.le_trans chunk (by decide)) _ response)⟩

theorem readAll_slices (least : 16 ≤ size.toNat) (chunk : size.toNat ≤ 1024) {indices : List Nat}
    {reads : List CachedRead} (asks : List.Forall₂ (CachedRead.Asks url size) indices reads)
    (cached : Cached source url representation store)
    (inside : ∀ index ∈ indices, index < slicesOf size.toNat representation.length) :
    ∃ answers final, readAll source reads store = some (answers, final) ∧
      List.Forall₂ (AnswersSlice representation size) indices answers ∧
      Cached source url representation final := by
  induction asks generalizing store with
  | nil => exact ⟨[], store, rfl, .nil, cached⟩
  | @cons index read indices reads head _ ih =>
    obtain ⟨full, more, offset, option⟩ := head
    have here := inside index mem_cons_self
    have few : slicesOf size.toNat representation.length ≤ 2 ^ 27 := by
      obtain ⟨node, _, _, _, length⟩ := cached
      have bound := node.bufferSize.toInt_lt
      exact slicesOf_small least (by omega)
    have number : (UInt32.ofNat index).toNat = index :=
      UInt32.toNat_ofNat_of_lt' (Nat.lt_of_lt_of_le here (Nat.le_trans few (by decide)))
    obtain ⟨format, next, still, reads⟩ := checkBlockwiseTransferGet_inside cached full
      (requestedBlock2_chunk option chunk) least (by rw [number]; exact here) read.now read.response
    obtain ⟨answers, final, behind, slices, kept⟩ := ih still
      fun other member => inside other (mem_cons_of_mem _ member)
    refine ⟨_, final, ?_,
      .cons (sliceAnswer_slice number least chunk format read.response) slices, kept⟩
    rw [readAll, reads, Option.bind_some]
    simp only [behind, Option.map_some]

theorem payloads_slices {indices : List Nat} {answers : List (GetCheck × Packet)}
    (slices : List.Forall₂ (AnswersSlice representation size) indices answers) :
    (answers.flatMap fun answer => answer.2.payload) = indices.flatMap
      (sliceAt size.toNat representation) := by
  induction slices with
  | nil => rfl
  | cons head _ ih => rw [flatMap_cons, flatMap_cons, head.payload, ih]

/-- Reads of all blocks of a representation, one after the other, return its bytes; each
answer has the size, number and more bit of its block, if the option has room for the
number. A read behind the representation is refused and touches nothing. -/
theorem readAll_representation (cached : Cached source url representation store)
    (least : 16 ≤ size.toNat) (chunk : size.toNat ≤ 1024) {reads : List CachedRead}
    (asks : List.Forall₂ (CachedRead.Asks url size)
      (List.range (slicesOf size.toNat representation.length)) reads) :
    (∃ answers final, readAll source reads store = some (answers, final) ∧
      (answers.flatMap fun answer => answer.2.payload) = representation ∧ List.Forall₂ (AnswersSlice
      representation size) (List.range (slicesOf size.toNat representation.length)) answers) ∧
    ∀ (read : CachedRead) num more offset, coapGetFullUrlAlloc read.request = some url →
    coapGetHeaderBlock2 read.request = some ⟨num, more, size, offset⟩ →
    slicesOf size.toNat representation.length ≤ num.toNat →
    checkBlockwiseTransferGet read.now source read.request read.response store =
      some (.invalid, coapSetStatusCode requestEntityTooLarge413 read.response, store) := by
  constructor
  · obtain ⟨answers, final, behind, slices, _⟩ :=
      readAll_slices least chunk asks cached fun _ => mem_range.mp
    exact ⟨answers, final, behind,
      (payloads_slices slices).trans (flatMap_slices (by omega) representation), slices⟩
  · exact fun read num more offset full option beyond =>
      checkBlockwiseTransferGet_beyond cached full (requestedBlock2_chunk option chunk) least beyond
        read.now read.response

/-- A store with one representation. -/
def storeWith (representation : List UInt8) : BlockStore Bool :=
  [(false, [⟨.ofBytes [0x61], representation, Int32.ofInt representation.length, 0, 0, 0, true⟩])]

theorem storeWith_cached {bytes : List UInt8} (small : bytes.length < 2 ^ 31) :
    Cached false (.ofBytes [0x61]) bytes (storeWith bytes) := by
  refine ⟨_, _, rfl, rfl, ?_⟩
  exact Int32.toInt_ofInt_of_le (by omega) (by omega)

/-- A read of a block of sixteen bytes. -/
def smallRead (num : UInt32) : CachedRead where
  now := 5
  request := coapSetHeaderBlock2 num false 16
    (coapSetHeaderUriPath (.ofBytes [0x61]) (coapInitMessage .con coapGet 1))
  response := coapInitMessage .ack content205 1

theorem readAll_twentyBytes : ∃ answers final, readAll false [smallRead 0,
      smallRead 1] (storeWith (List.replicate 20 7)) = some (answers, final) ∧
    (answers.flatMap fun answer => answer.2.payload) = List.replicate 20 7 := by
  have asks : List.Forall₂ (CachedRead.Asks (.ofBytes [0x61]) 16)
      (List.range (slicesOf (16 : UInt16).toNat (List.replicate 20 (7 : UInt8)).length))
      [smallRead 0, smallRead 1] :=
    .cons ⟨by decide +kernel, false, 0, by decide +kernel⟩
      (.cons ⟨by decide +kernel, false, 0, by decide +kernel⟩ .nil)
  obtain ⟨answers, final, reads, bytes, _⟩ :=
    (readAll_representation (storeWith_cached (by decide)) (by decide) (by decide) asks).1
  exact ⟨answers, final, reads, bytes⟩

/-- A read of a block whose number has no room in the option. -/
def farRead : CachedRead where
  now := 5
  request := CoapPacket.setOption .block2
    { coapSetHeaderUriPath (.ofBytes [0x61]) (coapInitMessage .con coapGet 1) with
    block2 := ⟨0x100000, false, 16, 0⟩ }
  response := coapInitMessage .ack content205 1

/-- Not every answer has its number: that of the block behind 2^20 others has none. -/
theorem cached_read_unnumbered :
    ¬ ∀ (bytes : List UInt8) (index : Nat) (read : CachedRead), bytes.length < 2 ^ 31 →
    CachedRead.Asks (.ofBytes [0x61]) 16 index read → index < slicesOf 16 bytes.length →
    ∃ answer next offset, checkBlockwiseTransferGet read.now false read.request read.response
      (storeWith bytes) = some (.fromCache, answer, next) ∧
        coapGetHeaderBlock2 answer =
          some ⟨UInt32.ofNat index, decide (index + 1 < slicesOf 16 bytes.length), 16, offset⟩ := by
  intro claimed
  have length : (List.replicate (16 * 2 ^ 20 + 1) (0 : UInt8)).length = 16 * 2 ^ 20 + 1 :=
    length_replicate
  have inside : 2 ^ 20 < slicesOf 16 (List.replicate (16 * 2 ^ 20 + 1) (0 : UInt8)).length := by
    rw [length]
    decide
  have small : (List.replicate (16 * 2 ^ 20 + 1) (0 : UInt8)).length < 2 ^ 31 := by
    rw [length]
    decide
  have asks : coapGetHeaderBlock2 farRead.request = some ⟨0x100000, false, 16, 0⟩ := by
    decide +kernel
  have full : coapGetFullUrlAlloc farRead.request = some (.ofBytes [0x61]) := by decide +kernel
  obtain ⟨answer, next, offset, reads, option⟩ :=
    claimed _ (2 ^ 20) farRead small ⟨full, false, 0, asks⟩ inside
  obtain ⟨format, left, _, sliced⟩ := checkBlockwiseTransferGet_inside (storeWith_cached small) full
    (requestedBlock2_chunk asks (by decide)) (by decide) inside farRead.now farRead.response
  rw [reads] at sliced
  cases sliced
  have absent : coapGetHeaderBlock2 (sliceAnswer (List.replicate (16 * 2 ^ 20 + 1) 0) 0x100000 16
      format farRead.response) = none := by
    rw [sliceAnswer, coapSetHeaderBlock2_large (by decide)]
    exact (getBlock2_setContentFormat format _).trans (by decide +kernel)
  rw [absent] at option
  cases option

end Reads

end Idrm.Coap
