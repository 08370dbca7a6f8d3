import Idrm.Ilink.VheaderReaders
import Mathlib.Algebra.Group.Nat.Defs

/-!
# Composing and reading a variable header

A table that was built with the calls of the module is composed without tripping the closing
assertion, and both readers get back from the bytes what the table holds, as long as its
length can be announced in 16 bits.
-/

namespace Idrm.Ilink

open Idrm.Lib Option List

/-- The item that is composed for a node, if one is. -/
def usedItem (node : VheaderNode) : Option VheaderItem :=
  if isSet : node.used = true ∧ node.value ≠ .unset then
    some ⟨node.key, node.value, isSet.2⟩ else none

/-- The items of a table. -/
def usedItems (nodes : List VheaderNode) : List VheaderItem := nodes.filterMap usedItem

/-- The value of the first item for a key. -/
def firstValue (key : CString) (items : List VheaderItem) : Option VheaderValue :=
  (items.find? (·.key = key)).map (·.value)

section Nodes

variable {node : VheaderNode} {nodes : List VheaderNode}

theorem usedItems_used (used : node.used = true) (isSet : node.value ≠ .unset)
    (rest : List VheaderNode) :
    usedItems (node :: rest) = ⟨node.key, node.value, isSet⟩ :: usedItems rest :=
  filterMap_cons_some (dif_pos ⟨used, isSet⟩)

theorem usedItems_free (free : node.used = false) (rest : List VheaderNode) :
    usedItems (node :: rest) = usedItems rest :=
  filterMap_cons_none (dif_neg fun isSet => Bool.false_ne_true (free.symm.trans isSet.1))

theorem nodeBytes_free (free : node.used = false) : vheaderNodeBytes node = [] := by
  rw [vheaderNodeBytes, free]
  rfl

theorem nodeBytes_used (used : node.used = true) (isSet : node.value ≠ .unset) :
    vheaderNodeBytes node = (⟨node.key, node.value, isSet⟩ : VheaderItem).bytes := by
  rw [VheaderItem.bytes, ← used]

theorem nodeLen_eq (isSet : node.used = true → node.value ≠ .unset) :
    vheaderNodeLen node = (vheaderNodeBytes node).length := by
  unfold vheaderNodeLen vheaderNodeBytes
  split
  · rename_i used
    cases holds : node.value with
    | unset => exact absurd holds (isSet used)
    | iVal32 value => simp [CString.terminated]
    | sVal value =>
      simp [CString.terminated]
      omega
  · rfl

/-- What is composed of a table are its items. -/
theorem usedItems_eq (isSet : ∀ node ∈ nodes, node.used = true → node.value ≠ .unset) :
    nodes.flatMap vheaderNodeBytes = (usedItems nodes).flatMap (·.bytes) ∧
      (nodes.map vheaderNodeLen).sum = ((usedItems nodes).flatMap (·.bytes)).length ∧
      nodes.countP (·.used) = (usedItems nodes).length ∧
      ∀ key, (nodes.find? (·.holds key)).map (·.value) = firstValue key (usedItems nodes) := by
  induction nodes with
  | nil => exact ⟨rfl, rfl, rfl, fun _ => rfl⟩
  | cons node rest ih =>
    obtain ⟨bytes, sum, count, find⟩ := ih fun other member =>
      isSet other (mem_cons_of_mem _ member)
    have here := isSet node mem_cons_self
    rw [flatMap_cons, map_cons, sum_cons, nodeLen_eq here, bytes, sum, countP_cons, count]
    cases used : node.used with
    | false =>
      rw [usedItems_free used, nodeBytes_free used]
      refine ⟨rfl, Nat.zero_add _, rfl, fun key => ?_⟩
      rw [List.find?_cons, VheaderNode.holds, used]
      exact find key
    | true =>
      rw [usedItems_used used (here used), nodeBytes_used used (here used)]
      refine ⟨rfl, length_append.symm, rfl, fun key => ?_⟩
      have holds : node.holds key = decide (node.key = key) := by
        rw [VheaderNode.holds, used, Bool.true_and]
      rw [List.find?_cons, firstValue, List.find?_cons, holds]
      cases decide (node.key = key) with
      | true => rfl
      | false => exact find key

theorem usedItems_distinct (formed : WellFormed nodes) :
    (usedItems nodes).Pairwise fun one other => one.key ≠ other.key := by
  refine pairwise_filterMap.mpr (formed.distinct.imp ?_)
  intro one other different oneItem isOne otherItem isOther
  obtain ⟨oneSet, isOne⟩ := dite_none_right_eq_some.mp isOne
  obtain ⟨otherSet, isOther⟩ := dite_none_right_eq_some.mp isOther
  rw [← some.inj isOne, ← some.inj isOther]
  exact different oneSet.1 otherSet.1

end Nodes

/-! ## Distinct keys -/

section Distinct

variable {key : CString} {items : List VheaderItem} {total offset : UInt16}

theorem lastValue_cons (key : CString) (item : VheaderItem) (rest : List VheaderItem) :
    lastValue key (item :: rest) = (lastValue key rest).or (if item.key = key then some item.value
      else none) := by
  rw [lastValue, reverse_cons, List.find?_append, map_or, List.find?_singleton, lastValue]
  congr 1
  by_cases same : item.key = key
  · simp [same]
  · simp [same]

theorem lastValue_eq_firstValue (distinct : items.Pairwise fun one other => one.key ≠ other.key) :
    lastValue key items = firstValue key items := by
  induction items with
  | nil => rfl
  | cons item rest ih =>
    obtain ⟨apart, distinct⟩ := pairwise_cons.mp distinct
    rw [lastValue_cons, ih distinct, firstValue, firstValue, List.find?_cons]
    by_cases same : item.key = key
    · have missed : rest.find? (·.key = key) = none := by
        refine List.find?_eq_none.mpr fun other member => ?_
        simpa [← same] using (apart other member).symm
      simp [missed, same]
    · simp [same]

theorem firstWithin_eq_firstValue (within : CountsWithin total offset items) :
    firstWithin key total offset items = firstValue key items := by
  induction items generalizing offset with
  | nil => rfl
  | cons item rest ih =>
    obtain ⟨inside, fits, onward⟩ := within
    rw [firstWithin, if_pos ⟨inside, fits⟩, ih onward, firstValue, firstValue, List.find?_cons]
    by_cases same : item.key = key
    · simp [same]
    · simp [same, Ne.symm same]

end Distinct

/-! ## Counts without overflow -/

section Counts

variable {item : VheaderItem} {items : List VheaderItem} {total offset : UInt16}

theorem toNat_add_ofNat {count : Nat} (small : offset.toNat + count < 65536) :
    (offset + UInt16.ofNat count).toNat = offset.toNat + count := by
  rw [UInt16.toNat_add, UInt16.toNat_ofNat']
  omega

theorem bytes_length (item : VheaderItem) :
    item.bytes.length = item.key.bytes.length + 1 + 1 + item.valueSize ∧ 0 < item.valueSize := by
  obtain ⟨key, value, isSet⟩ := item
  unfold VheaderItem.bytes VheaderItem.valueSize vheaderNodeBytes
  cases value with
  | unset => exact absurd rfl isSet
  | iVal32 value => simp [CString.terminated]
  | sVal value =>
    simp [CString.terminated]
    omega

theorem length_le_bytes (items : List VheaderItem) :
    items.length ≤ (items.flatMap (·.bytes)).length := by
  induction items with
  | nil => exact Nat.le_refl 0
  | cons item rest ih =>
    obtain ⟨length, -⟩ := bytes_length item
    rw [flatMap_cons, length_append, length_cons]
    omega

theorem fits_of_length (room : offset.toNat + item.bytes.length ≤ total.toNat) : offset < total ∧
    item.Fits total offset ∧ (item.next offset).toNat = offset.toNat + item.bytes.length := by
  obtain ⟨length, nonempty⟩ := bytes_length item
  have small := total.toNat_lt
  have afterKey : (item.afterKey offset).toNat = offset.toNat + (item.key.bytes.length + 1) :=
    toNat_add_ofNat (by omega)
  have afterType :
      (item.afterKey offset + 1).toNat = offset.toNat + (item.key.bytes.length + 1) + 1 := by
    rw [UInt16.toNat_add, afterKey, UInt16.toNat_one]
    omega
  have next : (item.next offset).toNat = offset.toNat + item.bytes.length := by
    rw [VheaderItem.next, toNat_add_ofNat, afterType]
    · omega
    · rw [afterType]
      omega
  refine ⟨?_, ⟨?_, ?_, ?_⟩, next⟩
  · rw [UInt16.lt_iff_toNat_lt]
    omega
  · rw [UInt16.lt_iff_toNat_lt]
    omega
  · rw [UInt16.lt_iff_toNat_lt]
    omega
  · rw [UInt16.le_iff_toNat_le]
    omega

theorem countsWithin_of_length
      (room : offset.toNat + (items.flatMap (·.bytes)).length ≤ total.toNat) :
    CountsWithin total offset items ∧
    (countAfter offset items).toNat = offset.toNat + (items.flatMap (·.bytes)).length := by
  induction items generalizing offset with
  | nil => exact ⟨trivial, rfl⟩
  | cons item rest ih =>
    rw [flatMap_cons, length_append] at room ⊢
    obtain ⟨inside, fits, next⟩ :=
      fits_of_length (show offset.toNat + item.bytes.length ≤ total.toNat by omega)
    obtain ⟨onward, after⟩ := ih
      (show (item.next offset).toNat + (rest.flatMap (·.bytes)).length ≤ total.toNat by omega)
    refine ⟨⟨inside, fits, onward⟩, ?_⟩
    rw [countAfter, foldl_cons]
    exact after.trans (by omega)

end Counts

/-! ## The round trip -/

section RoundTrip

variable {vheader : VheaderTable} {items : List VheaderItem} {total num : UInt16}
  {more : List UInt8}

/-- What is composed of a well-formed table. -/
theorem compose_eq (formed : WellFormed vheader.nodes)
    (inUse : ∃ node ∈ vheader.nodes, node.used = true) : vheaderCompose vheader.toIlinkVheader =
      some (beBytes 2 ((vheader.nodes.map vheaderNodeLen).sum + 4) ++ beBytes 2 (vheaderGetNodesNum
      vheader.toIlinkVheader).toNat ++ (usedItems vheader.nodes).flatMap (·.bytes)) := by
  obtain ⟨bytes, sum, count, -⟩ := usedItems_eq formed.set
  have someUsed : 0 < vheader.nodes.countP (·.used) := countP_pos_iff.mpr inUse
  have atLeast := length_le_bytes (usedItems vheader.nodes)
  have positive : (vheader.nodes.map vheaderNodeLen).sum ≠ 0 := by omega
  unfold vheaderCompose
  rw [if_neg positive, bytes]
  refine if_pos ?_
  rw [length_append, length_append, beBytes_length, beBytes_length, ← sum]
  omega

theorem ofNat_beNat_beBytes (value : UInt16) :
    UInt16.ofNat (beNat (beBytes 2 value.toNat)) = value := by
  have size : 256 ^ 2 = 65536 := by norm_num
  rw [beNat_beBytes, size, Nat.mod_eq_of_lt value.toNat_lt, UInt16.ofNat_toNat]

/-- Both readers behind the lengths. -/
theorem readers_of_lengths (total num : UInt16)
    (p : List UInt8) (len : Int) (fits : ¬len < total.toNat) :
    vheaderDecompose (beBytes 2 total.toNat ++ beBytes 2 num.toNat ++ p) len =
      (vheaderDecomposeItems total num.toNat 4 p (vheaderInit num 5)).map (·.map (num, ·)) ∧
      ∀ key, vheaderRawFindKey key (beBytes 2 total.toNat ++ beBytes 2 num.toNat ++ p) len =
        vheaderRawFindItems key total num.toNat 0 p := by
  have isTotal := ofNat_beNat_beBytes total
  have isNum := ofNat_beNat_beBytes num
  simp only [beBytes] at isTotal isNum
  constructor
  · simp only [beBytes, cons_append, nil_append, vheaderDecompose, isTotal, isNum, if_neg fits]
  · intro key
    simp only [beBytes, cons_append, nil_append, vheaderRawFindKey, isTotal, isNum, if_neg fits]

end RoundTrip

/-- Every table with a node in use that is built with the calls of the module, and whose
length can be announced, is composed, and both readers give back what it holds. -/
theorem vheader_roundTrip (initialNum increase : UInt16)
    (events : List VheaderEvent) {vheader : VheaderTable}
    (built : vheader = events.foldl vheaderPerform (vheaderInit initialNum increase))
    (inUse : ∃ node ∈ vheader.nodes, node.used = true)
    (short : (vheader.nodes.map vheaderNodeLen).sum + 4 ≤ 65535) :
    ∃ bytes, vheaderCompose vheader.toIlinkVheader = some bytes ∧
    (∃ num decomposed, vheaderDecompose bytes bytes.length = some (.ok (num, decomposed)) ∧
      num.toNat = vheader.nodes.countP (·.used) ∧
      ∀ key, vheaderLookup key decomposed = vheaderLookup key vheader) ∧
    ∀ key, ∃ result, vheaderRawFindKey key bytes bytes.length = some result ∧
    result.toOption = vheaderLookup key vheader ∧ ∀ error, result = .error error → error < 0 := by
  have formed : WellFormed vheader.nodes := built ▸ WellFormed.built initialNum increase events
  obtain ⟨-, sum, count, find⟩ := usedItems_eq formed.set
  have composed := compose_eq formed inUse
  have distinct := usedItems_distinct formed
  have atLeast := length_le_bytes (usedItems vheader.nodes)
  rw [sum] at composed short
  generalize usedItems vheader.nodes = items at composed short sum count find atLeast distinct
  -- Neither the length nor the number of items overflows its 16 bits.
  have isNum : (vheaderGetNodesNum vheader.toIlinkVheader).toNat = items.length := by
    rw [vheaderGetNodesNum, count, UInt16.toNat_ofNat']
    omega
  have isTotal : (UInt16.ofNat ((items.flatMap (·.bytes)).length + 4)).toNat =
      (items.flatMap (·.bytes)).length + 4 := by
    rw [UInt16.toNat_ofNat']
    omega
  generalize vheaderGetNodesNum vheader.toIlinkVheader = num at composed isNum
  generalize UInt16.ofNat ((items.flatMap (·.bytes)).length + 4) = total at isTotal
  rw [← isTotal] at composed
  have length : (beBytes 2 total.toNat ++ beBytes 2 num.toNat ++ items.flatMap (·.bytes)).length =
      total.toNat := by
    rw [length_append, length_append, beBytes_length, beBytes_length]
    omega
  obtain ⟨decompose, raw⟩ := readers_of_lengths total num (items.flatMap (·.bytes))
    (beBytes 2 total.toNat ++ beBytes 2 num.toNat ++ items.flatMap (·.bytes)).length (by omega)
  refine ⟨_, composed, ⟨num, setItems items (vheaderInit num 5), ?_, isNum.trans count.symm,
    fun key => ?_⟩, fun key => ?_⟩
  · have four : (4 : UInt16).toNat = 4 := rfl
    have room : (4 : UInt16).toNat + (items.flatMap (·.bytes)).length ≤ total.toNat := by omega
    obtain ⟨within, after⟩ := countsWithin_of_length room
    have walked := decomposeItems_eq within [] (vheaderInit num 5)
    rw [append_nil, if_neg (not_not.mpr (UInt16.toNat_inj.mp (by omega)))] at walked
    rw [decompose, isNum, walked]
    rfl
  · rw [lookup_setItems, lastValue_eq_firstValue distinct, lookup_eq_find, find]
  · have room : (0 : UInt16).toNat + (items.flatMap (·.bytes)).length ≤ total.toNat := by
      rw [UInt16.toNat_zero]
      omega
    obtain ⟨within, -⟩ := countsWithin_of_length room
    obtain ⟨result, found, same, negative⟩ := rawFindItems_eq key total 0 items []
    refine ⟨result, ?_, ?_, negative⟩
    · rw [raw, isNum, ← found, append_nil]
    · rw [same, firstWithin_eq_firstValue within, lookup_eq_find, find]

/-- Two keys are set in a table of one slot, the first is unset, and a third takes its slot. -/
def threeKeys : List VheaderEvent :=
  [.setValueS (.ofBytes [0x61]) (.ofBytes [0x78]), .setValueI (.ofBytes [0x62]) 7, .unsetNode 0,
    .setValueI (.ofBytes [0x63]) 9]

theorem vheader_roundTrip_threeKeys : ∃ bytes,
    vheaderCompose (threeKeys.foldl vheaderPerform (vheaderInit 1 0)).toIlinkVheader = some bytes ∧
    ∃ num decomposed, vheaderDecompose bytes bytes.length = some (.ok (num, decomposed)) ∧
    vheaderLookup (.ofBytes [0x63]) decomposed = some (.iVal32 9) := by
  obtain ⟨bytes, composed, ⟨num, decomposed, accepted, -, same⟩, -⟩ :=
    vheader_roundTrip 1 0 threeKeys rfl ⟨_, mem_cons_self, rfl⟩ (by decide)
  exact ⟨bytes, composed, num, decomposed, accepted, same (.ofBytes [0x63])⟩

end Idrm.Ilink
