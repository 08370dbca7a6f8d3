import Idrm.Ilink.VheaderTable

/-!
# The two readers of a variable header

`vheader_decompose` fills a table from the bytes, `vheader_raw_find_key` looks for one key in
them. Both walk over the same items with a 16-bit count of the bytes; the first starts it
behind the four bytes of lengths, the second at zero. What a reader is given is the memory
from the buffer on: a string without its terminator runs on into what lies behind, and
where that ends there is no result.
-/

namespace Idrm.Ilink

open Idrm.Lib Option List

/-- One item of a composed header. -/
structure VheaderItem where
  key : CString
  value : VheaderValue
  isSet : value ≠ .unset

namespace VheaderItem

/-- The item as it lies in the buffer. -/
def bytes (item : VheaderItem) : List UInt8 := vheaderNodeBytes ⟨item.key, true, item.value⟩

/-- The bytes of the value. -/
def valueSize (item : VheaderItem) : Nat :=
  match item.value with
  | .sVal value => value.bytes.length + 1
  | .iVal32 _ => 4
  | .unset => 0

/-- The count behind the key, in 16 bits. -/
def afterKey (item : VheaderItem) (offset : UInt16) : UInt16 :=
  offset + UInt16.ofNat (item.key.bytes.length + 1)

/-- The count behind the item. -/
def next (item : VheaderItem) (offset : UInt16) : UInt16 :=
  item.afterKey offset + 1 + UInt16.ofNat item.valueSize

/-- The count stays in bounds over the item. -/
def Fits (total offset : UInt16) (item : VheaderItem) : Prop :=
  item.afterKey offset < total ∧ item.afterKey offset + 1 < total ∧ item.next offset ≤ total

instance (total offset : UInt16) (item : VheaderItem) : Decidable (item.Fits total offset) :=
  inferInstanceAs (Decidable (_ ∧ _ ∧ _))

end VheaderItem

/-- `ntohl` of the word at the front of a buffer, and what lies behind it. -/
def vheaderReadLong : List UInt8 → Option (UInt32 × List UInt8)
  | a :: b :: c :: d :: rest => some (UInt32.ofNat (beNat [a, b, c, d]), rest)
  | _ => none

/-- One round of either reader: an item, the count behind it and the bytes behind it, or an
error. -/
def vheaderReadItem (total offset : UInt16) (p : List UInt8) :
    Option (Except Int (VheaderItem × UInt16 × List UInt8)) := do
  let (key, p) ← CString.read p
  let offset := offset + UInt16.ofNat (key.bytes.length + 1)
  if total ≤ offset then some (.error (-20))
  else
    let type ← p.head?
    let p := p.tail
    let offset := offset + 1
    if total ≤ offset then some (.error (-40))
    else if type = 3 then do
      let (value, p) ← CString.read p
      let offset := offset + UInt16.ofNat (value.bytes.length + 1)
      if total < offset then some (.error (-50))
      else some (.ok (⟨key, .sVal value, VheaderValue.noConfusion⟩, offset, p))
    else if type = 2 then
      let offset := offset + 4
      if total < offset then some (.error (-60))
      else do
        let (value, p) ← vheaderReadLong p
        some (.ok (⟨key, .iVal32 value, VheaderValue.noConfusion⟩, offset, p))
    else some (.error (-100))

/-- The loop of `vheader_decompose` with `left` rounds to go. -/
def vheaderDecomposeItems (total : UInt16) : Nat → UInt16 → List UInt8 → VheaderTable →
    Option (Except Int VheaderTable)
  | 0, offset, _, vheader => some (if offset ≠ total then .error (-80) else .ok vheader)
  | left + 1, offset, p, vheader =>
    if offset < total then
      match vheaderReadItem total offset p with
      | none => none
      | some (.error error) => some (.error error)
      | some (.ok (item, offset, p)) =>
        vheaderDecomposeItems total left offset p (vheaderSetValue item.key item.value vheader)
    else some (.error (-70))

/-- `vheader_decompose`: the number of nodes and the table, or an error. -/
def vheaderDecompose (buffer : List UInt8) (vheaderLen : Int) :
    Option (Except Int (UInt16 × VheaderTable)) :=
  match buffer with
  | a :: b :: c :: d :: p =>
    let total := UInt16.ofNat (beNat [a, b])
    let num := UInt16.ofNat (beNat [c, d])
    if vheaderLen < total.toNat then some (.error (-99))
    else (vheaderDecomposeItems total num.toNat 4 p (vheaderInit num 5)).map (·.map (num, ·))
  | _ => none

/-- One round of `vheader_raw_find_key`: the value if it is the one that is looked for, the count
behind it and the bytes behind it, or an error. A word that is not looked for is passed over. -/
def vheaderRawReadItem (key : CString) (total offset : UInt16) (p : List UInt8) :
    Option (Except Int (Option VheaderValue × UInt16 × List UInt8)) := do
  let (itemKey, p) ← CString.read p
  let offset := offset + UInt16.ofNat (itemKey.bytes.length + 1)
  if total ≤ offset then some (.error (-20))
  else
    let type ← p.head?
    let p := p.tail
    let offset := offset + 1
    if total ≤ offset then some (.error (-40))
    else if type = 3 then do
      let (value, p) ← CString.read p
      let offset := offset + UInt16.ofNat (value.bytes.length + 1)
      if total < offset then some (.error (-50))
      else some (.ok (if key = itemKey then some (.sVal value) else none, offset, p))
    else if type = 2 then
      let offset := offset + 4
      if total < offset then some (.error (-60))
      else if key = itemKey then do
        let (value, p) ← vheaderReadLong p
        some (.ok (some (.iVal32 value), offset, p))
      else some (.ok (none, offset, p.drop 4))
    else some (.error (-100))

/-- The loop of `vheader_raw_find_key` with `left` rounds to go. -/
def vheaderRawFindItems (key : CString) (total : UInt16) : Nat → UInt16 → List UInt8 →
    Option (Except Int VheaderValue)
  | 0, _, _ => some (.error (-1))
  | left + 1, offset, p =>
    if offset < total then
      match vheaderRawReadItem key total offset p with
      | none => none
      | some (.error error) => some (.error error)
      | some (.ok (some value, _, _)) => some (.ok value)
      | some (.ok (none, offset, p)) => vheaderRawFindItems key total left offset p
    else some (.error (-1))

/-- `vheader_raw_find_key`: the value it sets its node to when it returns 0, or an error. -/
def vheaderRawFindKey (key : CString) (buffer : List UInt8) (len : Int) :
    Option (Except Int VheaderValue) :=
  match buffer with
  | a :: b :: rest =>
    let total := UInt16.ofNat (beNat [a, b])
    if len < total.toNat then some (.error (-99))
    else
      match rest with
      | c :: d :: p => vheaderRawFindItems key total (UInt16.ofNat (beNat [c, d])).toNat 0 p
      | _ => none
  | _ => none

/-! ## Items -/

section Items

variable {total offset : UInt16} {item : VheaderItem} {p rest : List UInt8}

theorem readLong_eq_some_iff {value : UInt32} : vheaderReadLong p = some (value, rest) ↔
    p = beBytes 4 value.toNat ++ rest := by
  have size : 256 ^ 4 = 2 ^ 32 := by norm_num
  have word : ∀ a b c d, (UInt32.ofNat (beNat [a, b, c, d])).toNat = beNat [a, b, c, d] := by
    intro a b c d
    have small := beNat_lt [a, b, c, d]
    simp only [length_cons, length_nil, Nat.zero_add, Nat.reduceAdd, size] at small
    rw [UInt32.toNat_ofNat', Nat.mod_eq_of_lt small]
  constructor
  · intro isRead
    unfold vheaderReadLong at isRead
    split at isRead
    · rename_i a b c d rest
      obtain ⟨rfl, rfl⟩ := Prod.mk.inj (some.inj isRead)
      have back : beBytes 4 (beNat [a, b, c, d]) = [a, b, c, d] := beBytes_beNat [a, b, c, d]
      rw [word, back]
      rfl
    · cases isRead
  · rintro rfl
    have back := beNat_beBytes 4 value.toNat
    rw [size, Nat.mod_eq_of_lt value.toNat_lt] at back
    exact congrArg some (Prod.ext (by rw [← UInt32.toNat_inj, word]; exact back) rfl)

theorem exists_cons_of_head {type : UInt8} (head : p.head? = some type) :
    ∃ tail, p = type :: tail := by
  cases p with
  | nil => cases head
  | cons first tail => exact ⟨tail, by rw [some.inj head]⟩

/-- Only what lies there is read as an item. -/
theorem readItem_ok {after : UInt16}
    (isRead : vheaderReadItem total offset p = some (.ok (item, after, rest))) :
    p = item.bytes ++ rest ∧ item.Fits total offset ∧ after = item.next offset := by
  obtain ⟨⟨key, p₁⟩, readKey, isRead⟩ := bind_eq_some_iff.mp isRead
  have lies := CString.read_eq_some_iff.mp readKey
  simp only at isRead
  by_cases past : total ≤ offset + UInt16.ofNat (key.bytes.length + 1)
  · rw [if_pos past] at isRead
    cases isRead
  rw [if_neg past] at isRead
  obtain ⟨type, readType, isRead⟩ := bind_eq_some_iff.mp isRead
  obtain ⟨p₂, rfl⟩ := exists_cons_of_head readType
  simp only [tail_cons] at isRead
  by_cases pastType : total ≤ offset + UInt16.ofNat (key.bytes.length + 1) + 1
  · rw [if_pos pastType] at isRead
    cases isRead
  rw [if_neg pastType] at isRead
  by_cases isString : type = 3
  · rw [if_pos isString] at isRead
    obtain ⟨⟨value, p₃⟩, readValue, isRead⟩ := bind_eq_some_iff.mp isRead
    have liesValue := CString.read_eq_some_iff.mp readValue
    simp only at isRead
    by_cases pastValue : total < offset + UInt16.ofNat (key.bytes.length + 1) + 1 +
      UInt16.ofNat (value.bytes.length + 1)
    · rw [if_pos pastValue] at isRead
      cases isRead
    rw [if_neg pastValue] at isRead
    obtain ⟨rfl, behind⟩ := Prod.mk.inj (Except.ok.inj (some.inj isRead))
    obtain ⟨rfl, rfl⟩ := Prod.mk.inj behind
    refine ⟨?_, ⟨UInt16.not_le.mp past, UInt16.not_le.mp pastType, UInt16.not_lt.mp pastValue⟩, rfl⟩
    rw [lies, liesValue, isString]
    simp [VheaderItem.bytes, vheaderNodeBytes, VheaderValue.type]
  rw [if_neg isString] at isRead
  by_cases isLong : type = 2
  · rw [if_pos isLong] at isRead
    by_cases pastValue : total < offset + UInt16.ofNat (key.bytes.length + 1) + 1 + 4
    · rw [if_pos pastValue] at isRead
      cases isRead
    rw [if_neg pastValue] at isRead
    obtain ⟨⟨value, p₃⟩, readValue, isRead⟩ := bind_eq_some_iff.mp isRead
    obtain ⟨rfl, behind⟩ := Prod.mk.inj (Except.ok.inj (some.inj isRead))
    obtain ⟨rfl, rfl⟩ := Prod.mk.inj behind
    refine ⟨?_, ⟨UInt16.not_le.mp past, UInt16.not_le.mp pastType, UInt16.not_lt.mp pastValue⟩, rfl⟩
    rw [lies, readLong_eq_some_iff.mp readValue, isLong]
    simp [VheaderItem.bytes, vheaderNodeBytes, VheaderValue.type]
  · rw [if_neg isLong] at isRead
    cases isRead

/-- The error for a value that runs out of bounds. -/
def VheaderItem.overrun (item : VheaderItem) : Int := if item.value.type = 3 then -50 else -60

/-- How an item that lies there is read. -/
theorem readItem_eq (total offset : UInt16) (item : VheaderItem) (rest : List UInt8) :
    vheaderReadItem total offset (item.bytes ++ rest) =
      some (if total ≤ item.afterKey offset then .error (-20)
        else if total ≤ item.afterKey offset + 1 then .error (-40)
        else if total < item.next offset then .error item.overrun
        else .ok (item, item.next offset, rest)) := by
  obtain ⟨key, value, isSet⟩ := item
  have readKey : ∀ more, CString.read (key.terminated ++ more) = some (key, more) :=
    fun more => CString.read_eq_some_iff.mpr rfl
  unfold vheaderReadItem VheaderItem.bytes vheaderNodeBytes
  cases value with
  | unset => exact absurd rfl isSet
  | iVal32 value =>
    have readValue : vheaderReadLong (beBytes 4 value.toNat ++ rest) = some (value, rest) :=
      readLong_eq_some_iff.mpr rfl
    have notString : ¬(2 : UInt8) = 3 := by decide
    simp only [if_true, append_assoc, readKey, bind_eq_bind, bind_some, VheaderValue.type,
      cons_append, nil_append, List.head?_cons, tail_cons, readValue, if_neg notString,
      ← apply_ite some]
    rfl
  | sVal value =>
    have readValue : CString.read (value.terminated ++ rest) = some (value, rest) :=
      CString.read_eq_some_iff.mpr rfl
    simp only [if_true, append_assoc, readKey, bind_eq_bind, bind_some, VheaderValue.type,
      cons_append, nil_append, List.head?_cons, tail_cons, readValue, ← apply_ite some]
    rfl

theorem readItem_fits (fits : item.Fits total offset) (rest : List UInt8) : vheaderReadItem total
      offset (item.bytes ++ rest) = some (.ok (item, item.next offset, rest)) := by
  obtain ⟨inKey, inType, inValue⟩ := fits
  rw [readItem_eq, if_neg (UInt16.not_le.mpr inKey), if_neg (UInt16.not_le.mpr inType),
    if_neg (UInt16.not_lt.mpr inValue)]

theorem readItem_misfit (misfit : ¬item.Fits total offset) (rest : List UInt8) : ∃ error,
    error < 0 ∧ vheaderReadItem total offset (item.bytes ++ rest) = some (.error error) := by
  rw [readItem_eq]
  by_cases inKey : total ≤ item.afterKey offset
  · exact ⟨-20, by decide, by rw [if_pos inKey]⟩
  by_cases inType : total ≤ item.afterKey offset + 1
  · exact ⟨-40, by decide, by rw [if_neg inKey, if_pos inType]⟩
  by_cases inValue : total < item.next offset
  · have negative : item.overrun < 0 := by
      unfold VheaderItem.overrun
      split
      · decide
      · decide
    exact ⟨item.overrun, negative, by rw [if_neg inKey, if_neg inType, if_pos inValue]⟩
  · exact absurd ⟨UInt16.not_le.mp inKey, UInt16.not_le.mp inType, UInt16.not_lt.mp inValue⟩ misfit

/-- The value of an item for a key. -/
def VheaderItem.valueFor (key : CString) (item : VheaderItem) : Option VheaderValue :=
  if key = item.key then some item.value else none

theorem readLong_drop {value : UInt32} (isRead : vheaderReadLong p = some (value, rest)) :
    rest = p.drop 4 := by
  unfold vheaderReadLong at isRead
  split at isRead
  · rename_i a b c d rest
    exact (Prod.mk.inj (some.inj isRead)).2.symm
  · cases isRead

/-- Where an item can be read, both readers go on alike. -/
theorem rawReadItem_of_readItem (key : CString)
    {result : Except Int (VheaderItem × UInt16 × List UInt8)}
    (isRead : vheaderReadItem total offset p = some result) : vheaderRawReadItem key total offset
      p = some (result.map fun (item, after, rest) => (item.valueFor key, after, rest)) := by
  obtain ⟨⟨itemKey, p₁⟩, readKey, isRead⟩ := bind_eq_some_iff.mp isRead
  unfold vheaderRawReadItem
  rw [readKey]
  simp only [bind_eq_bind, bind_some] at isRead ⊢
  by_cases past : total ≤ offset + UInt16.ofNat (itemKey.bytes.length + 1)
  · rw [if_pos past] at isRead ⊢
    obtain rfl := some.inj isRead
    rfl
  rw [if_neg past] at isRead ⊢
  obtain ⟨type, readType, isRead⟩ := bind_eq_some_iff.mp isRead
  rw [readType, bind_some]
  by_cases pastType : total ≤ offset + UInt16.ofNat (itemKey.bytes.length + 1) + 1
  · rw [if_pos pastType] at isRead ⊢
    obtain rfl := some.inj isRead
    rfl
  rw [if_neg pastType] at isRead ⊢
  by_cases isString : type = 3
  · rw [if_pos isString] at isRead ⊢
    obtain ⟨⟨value, p₃⟩, readValue, isRead⟩ := bind_eq_some_iff.mp isRead
    rw [readValue, bind_some]
    simp only at isRead ⊢
    by_cases pastValue : total < offset + UInt16.ofNat (itemKey.bytes.length + 1) + 1 +
      UInt16.ofNat (value.bytes.length + 1)
    · rw [if_pos pastValue] at isRead ⊢
      obtain rfl := some.inj isRead
      rfl
    · rw [if_neg pastValue] at isRead ⊢
      obtain rfl := some.inj isRead
      rfl
  rw [if_neg isString] at isRead ⊢
  by_cases isLong : type = 2
  · rw [if_pos isLong] at isRead ⊢
    by_cases pastValue : total < offset + UInt16.ofNat (itemKey.bytes.length + 1) + 1 + 4
    · rw [if_pos pastValue] at isRead ⊢
      obtain rfl := some.inj isRead
      rfl
    · rw [if_neg pastValue] at isRead ⊢
      obtain ⟨⟨value, p₃⟩, readValue, isRead⟩ := bind_eq_some_iff.mp isRead
      obtain rfl := some.inj isRead
      obtain rfl := readLong_drop readValue
      rw [readValue]
      simp only [bind_some, Except.map, VheaderItem.valueFor]
      split <;> rfl
  · rw [if_neg isLong] at isRead ⊢
    obtain rfl := some.inj isRead
    rfl

theorem rawReadItem_fits (key : CString) (fits : item.Fits total offset) (rest : List UInt8) :
    vheaderRawReadItem key total offset (item.bytes ++ rest) =
      some (.ok (item.valueFor key, item.next offset, rest)) :=
  rawReadItem_of_readItem key (readItem_fits fits rest)

/-- The item at the front of a buffer, wherever its bytes end. -/
def vheaderNextItem (p : List UInt8) : Option (VheaderItem × List UInt8) := do
  let (key, p) ← CString.read p
  let type ← p.head?
  let p := p.tail
  if type = 3 then do
    let (value, p) ← CString.read p
    some (⟨key, .sVal value, VheaderValue.noConfusion⟩, p)
  else if type = 2 then do
    let (value, p) ← vheaderReadLong p
    some (⟨key, .iVal32 value, VheaderValue.noConfusion⟩, p)
  else none

/-- The items that lie in a buffer, at most a number of them. -/
def vheaderItems : Nat → List UInt8 → List VheaderItem
  | 0, _ => []
  | left + 1, p => ((vheaderNextItem p).map fun (item, p) => item :: vheaderItems left p).getD []

theorem nextItem_bytes (item : VheaderItem) (rest : List UInt8) :
    vheaderNextItem (item.bytes ++ rest) = some (item, rest) := by
  obtain ⟨key, value, isSet⟩ := item
  have readKey : ∀ more, CString.read (key.terminated ++ more) = some (key, more) :=
    fun more => CString.read_eq_some_iff.mpr rfl
  unfold vheaderNextItem VheaderItem.bytes vheaderNodeBytes
  cases value with
  | unset => exact absurd rfl isSet
  | iVal32 value =>
    have readValue : vheaderReadLong (beBytes 4 value.toNat ++ rest) = some (value, rest) :=
      readLong_eq_some_iff.mpr rfl
    have notString : ¬(2 : UInt8) = 3 := by decide
    simp only [if_true, append_assoc, readKey, bind_eq_bind, bind_some, VheaderValue.type,
      cons_append, nil_append, List.head?_cons, tail_cons, readValue, if_neg notString]
  | sVal value =>
    have readValue : CString.read (value.terminated ++ rest) = some (value, rest) :=
      CString.read_eq_some_iff.mpr rfl
    simp only [if_true, append_assoc, readKey, bind_eq_bind, bind_some, VheaderValue.type,
      cons_append, nil_append, List.head?_cons, tail_cons, readValue]

theorem vheaderItems_flatMap (items : List VheaderItem) (more : List UInt8) :
    vheaderItems items.length (items.flatMap (·.bytes) ++ more) = items := by
  induction items with
  | nil => rfl
  | cons item rest ih =>
    rw [flatMap_cons, append_assoc, length_cons, vheaderItems, nextItem_bytes]
    simp [ih]

end Items

/-! ## The walks -/

/-- The count stays in bounds over all items. -/
def CountsWithin (total : UInt16) : UInt16 → List VheaderItem → Prop
  | _, [] => True
  | offset, item :: rest => offset < total ∧ item.Fits total offset ∧
      CountsWithin total (item.next offset) rest

/-- The count behind all items. -/
def countAfter (offset : UInt16) (items : List VheaderItem) : UInt16 :=
  items.foldl (fun offset item => item.next offset) offset

/-- The table with all items set, one after another. -/
def setItems (items : List VheaderItem) (vheader : VheaderTable) : VheaderTable :=
  items.foldl (fun vheader item => vheaderSetValue item.key item.value vheader) vheader

/-- The value of the first item for a key, if the count stays in bounds up to it. -/
def firstWithin (key : CString) (total : UInt16) : UInt16 → List VheaderItem → Option VheaderValue
  | _, [] => none
  | offset, item :: rest =>
    if offset < total ∧ item.Fits total offset then
      if key = item.key then some item.value else firstWithin key total (item.next offset) rest
    else none

/-- The value of the last item for a key. -/
def lastValue (key : CString) (items : List VheaderItem) : Option VheaderValue :=
  (items.reverse.find? (·.key = key)).map (·.value)

section Walks

variable {total offset : UInt16} {items : List VheaderItem} {more p : List UInt8}
  {vheader result : VheaderTable} {key : CString}

theorem decomposeItems_eq (within : CountsWithin total offset items)
    (more : List UInt8) (vheader : VheaderTable) :
    vheaderDecomposeItems total items.length offset (items.flatMap (·.bytes) ++ more) vheader = some
      (if countAfter offset items ≠ total then .error (-80) else .ok (setItems items vheader)) := by
  induction items generalizing offset vheader with
  | nil => rfl
  | cons item rest ih =>
    obtain ⟨inside, fits, onward⟩ := within
    rw [length_cons, flatMap_cons, append_assoc, vheaderDecomposeItems, if_pos inside,
      readItem_fits fits]
    exact ih onward _

/-- What `vheader_decompose` accepts are items within the bounds. -/
theorem decomposeItems_ok {left : Nat}
    (accepted : vheaderDecomposeItems total left offset p vheader = some (.ok result)) :
    ∃ items more, items.length = left ∧ p = items.flatMap (·.bytes) ++ more ∧
    CountsWithin total offset items ∧ result = setItems items vheader := by
  induction left generalizing offset p vheader with
  | zero =>
    rw [vheaderDecomposeItems] at accepted
    split at accepted
    · cases accepted
    · exact ⟨[], p, rfl, rfl, trivial, (Except.ok.inj (some.inj accepted)).symm⟩
  | succ left ih =>
    rw [vheaderDecomposeItems] at accepted
    split at accepted
    · rename_i inside
      split at accepted
      · cases accepted
      · cases accepted
      · rename_i item after rest isRead
        obtain ⟨lies, fits, rfl⟩ := readItem_ok isRead
        obtain ⟨items, more, length, behind, within, rfl⟩ := ih accepted
        refine ⟨item :: items, more, by rw [length_cons, length], ?_, ⟨inside, fits, within⟩, rfl⟩
        rw [lies, behind, flatMap_cons, append_assoc]
    · cases accepted

/-- What `vheader_raw_find_key` finds. -/
theorem rawFindItems_eq (key : CString)
    (total offset : UInt16) (items : List VheaderItem) (more : List UInt8) :
    ∃ result, vheaderRawFindItems key total items.length offset (items.flatMap (·.bytes) ++ more) =
      some result ∧ result.toOption = firstWithin key total offset items ∧ ∀ error,
    result = .error error → error < 0 := by
  induction items generalizing offset with
  | nil =>
    refine ⟨.error (-1), rfl, rfl, ?_⟩
    rintro _ ⟨⟩
    decide
  | cons item rest ih =>
    rw [length_cons, flatMap_cons, append_assoc, vheaderRawFindItems, firstWithin]
    by_cases inside : offset < total
    · by_cases fits : item.Fits total offset
      · rw [if_pos inside, if_pos ⟨inside, fits⟩, rawReadItem_fits key fits, VheaderItem.valueFor]
        by_cases same : key = item.key
        · rw [if_pos same, if_pos same]
          exact ⟨.ok item.value, rfl, rfl, fun _ impossible => by cases impossible⟩
        · simp only [if_neg same]
          exact ih (item.next offset)
      · obtain ⟨error, negative, fails⟩ := readItem_misfit fits (rest.flatMap (·.bytes) ++ more)
        rw [if_pos inside, if_neg fun within => fits within.2, rawReadItem_of_readItem key fails]
        exact ⟨.error error, rfl, rfl, fun _ same => Except.error.inj same ▸ negative⟩
    · rw [if_neg inside, if_neg fun within => inside within.1]
      exact ⟨.error (-1), rfl, rfl, fun _ same => Except.error.inj same ▸ by decide⟩

theorem firstWithin_eq_some_iff {value : VheaderValue} :
    firstWithin key total offset items = some value ↔
    ∃ (front : List VheaderItem) (item : VheaderItem) (back : List VheaderItem), items = front ++
      item :: back ∧ (∀ other ∈ front, other.key ≠ key) ∧ item.key = key ∧ item.value = value ∧
    CountsWithin total offset (front ++ [item]) := by
  induction items generalizing offset with
  | nil => simp [firstWithin]
  | cons first rest ih =>
    rw [firstWithin]
    constructor
    · intro found
      split at found
      · rename_i within
        split at found
        · rename_i same
          exact ⟨[], first, rest, rfl, fun _ member => absurd member not_mem_nil, same.symm,
            some.inj found, within.1, within.2, trivial⟩
        · rename_i different
          obtain ⟨front, item, back, rfl, before, same, holds, onward⟩ := ih.mp found
          refine ⟨first :: front, item, back, rfl, fun other member => ?_, same, holds, within.1,
            within.2, onward⟩
          rcases mem_cons.mp member with rfl | member
          · exact Ne.symm different
          · exact before other member
      · cases found
    · rintro ⟨front, item, back, split, before, same, holds, within⟩
      cases front with
      | nil =>
        obtain ⟨rfl, rfl⟩ := List.cons.inj split
        rw [if_pos ⟨within.1, within.2.1⟩, if_pos same.symm, holds]
      | cons head front =>
        obtain ⟨rfl, rfl⟩ := List.cons.inj split
        rw [if_pos ⟨within.1, within.2.1⟩, if_neg (before first mem_cons_self).symm]
        refine ih.mpr ⟨front, item, back, rfl, fun other member => ?_, same, holds, within.2.2⟩
        exact before other (mem_cons_of_mem _ member)

/-- There is one first item for a key. -/
theorem first_unique {front back otherFront otherBack : List VheaderItem} {item other : VheaderItem}
    (same : front ++ item :: back = otherFront ++ other :: otherBack)
    (before : ∀ earlier ∈ front, earlier.key ≠ other.key)
    (otherBefore : ∀ earlier ∈ otherFront, earlier.key ≠ item.key) :
    front = otherFront ∧ item = other := by
  induction front generalizing otherFront with
  | nil =>
    cases otherFront with
    | nil => exact ⟨rfl, (List.cons.inj same).1⟩
    | cons head otherFront =>
      obtain ⟨rfl, -⟩ := List.cons.inj same
      exact absurd rfl (otherBefore item mem_cons_self)
  | cons head front ih =>
    cases otherFront with
    | nil =>
      obtain ⟨rfl, -⟩ := List.cons.inj same
      exact absurd rfl (before head mem_cons_self)
    | cons otherHead otherFront =>
      obtain ⟨rfl, tails⟩ := List.cons.inj same
      obtain ⟨rfl, rfl⟩ :=
        ih tails (fun earlier member => before earlier (mem_cons_of_mem _ member))
        fun earlier member => otherBefore earlier (mem_cons_of_mem _ member)
      exact ⟨rfl, rfl⟩

theorem exists_first (member : ∃ item ∈ items, item.key = key) :
    ∃ (front : List VheaderItem) (item : VheaderItem) (back : List VheaderItem),
    items = front ++ item :: back ∧ (∀ other ∈ front, other.key ≠ key) ∧ item.key = key := by
  induction items with
  | nil =>
    obtain ⟨item, impossible, -⟩ := member
    cases impossible
  | cons first rest ih =>
    by_cases here : first.key = key
    · exact ⟨[], first, rest, rfl, fun _ impossible => absurd impossible not_mem_nil, here⟩
    · obtain ⟨item, inItems, same⟩ := member
      have later : item ∈ rest := by
        rcases mem_cons.mp inItems with rfl | later
        · exact absurd same here
        · exact later
      obtain ⟨front, found, back, rfl, before, isKey⟩ := ih ⟨item, later, same⟩
      refine ⟨first :: front, found, back, rfl, fun other member => ?_, isKey⟩
      rcases mem_cons.mp member with rfl | member
      · exact here
      · exact before other member

theorem lastValue_concat (key : CString) (items : List VheaderItem) (item : VheaderItem) :
    lastValue key (items ++ [item]) = if key = item.key then some item.value
    else lastValue key items := by
  rw [lastValue, reverse_append]
  by_cases same : key = item.key
  · simp [same]
  · simp [same, Ne.symm same, lastValue]

theorem lookup_init (key : CString) (initialNum increase : UInt16) :
    vheaderLookup key (vheaderInit initialNum increase) = none := by
  rw [lookup_eq_find, map_eq_none_iff, List.find?_eq_none]
  intro node member
  rw [eq_of_mem_replicate member]
  simp [VheaderNode.holds, VheaderNode.blank]

/-- A table that was filled holds the last value of each key. -/
theorem lookup_setItems (key : CString) (items : List VheaderItem) (initialNum increase : UInt16) :
    vheaderLookup key (setItems items (vheaderInit initialNum increase)) = lastValue key items := by
  induction items using List.reverseRecOn with
  | nil => exact lookup_init key initialNum increase
  | append_singleton items item ih =>
    rw [setItems, foldl_append, foldl_cons, foldl_nil, lookup_setValue, lastValue_concat]
    rw [setItems] at ih
    rw [ih]

theorem lastValue_isSome (member : ∃ item ∈ items, item.key = key) :
    ∃ value, lastValue key items = some value := by
  obtain ⟨item, inItems, same⟩ := member
  rw [← isSome_iff_exists, lastValue, isSome_map, List.find?_isSome]
  exact ⟨item, mem_reverse.mpr inItems, decide_eq_true same⟩

theorem lastValue_mem {value : VheaderValue} (found : lastValue key items = some value) :
    ∃ item ∈ items, item.key = key := by
  obtain ⟨item, isFound, -⟩ := map_eq_some_iff.mp found
  exact ⟨item, mem_reverse.mp
    (mem_of_find?_eq_some isFound), by simpa using List.find?_some isFound⟩

end Walks

/-! ## Where the readers agree -/

/-- The length a buffer announces. -/
def announcedTotal (buffer : List UInt8) : UInt16 := UInt16.ofNat (beNat (buffer.take 2))

/-- The items a buffer announces, as they lie behind the lengths. -/
def announcedItems (buffer : List UInt8) : List VheaderItem :=
  vheaderItems (UInt16.ofNat (beNat ((buffer.drop 2).take 2))).toNat (buffer.drop 4)

/-- The first item of each key has the value of the last one, and up to it the bytes of the
items, counted from zero in 16 bits, stay within the announced length. -/
def FirstsSuffice (buffer : List UInt8) : Prop :=
  ∀ front item back, announcedItems buffer = front ++ item :: back →
    (∀ other ∈ front, other.key ≠ item.key) →
    lastValue item.key (announcedItems buffer) = some item.value ∧
    CountsWithin (announcedTotal buffer) 0 (front ++ [item])

/-- Both readers give the same for a key. -/
def ReadersAgree (key : CString) (buffer : List UInt8) (len : Int)
    (vheader : VheaderTable) : Prop :=
  ∃ result, vheaderRawFindKey key buffer len = some result ∧
    result.toOption = vheaderLookup key vheader

section Readers

variable {buffer : List UInt8} {len : Int} {num : UInt16} {vheader : VheaderTable}

/-- An accepted buffer holds the items it announces, and both readers walk over them. -/
theorem decompose_ok (accepted : vheaderDecompose buffer len = some (.ok (num, vheader))) :
    (∀ key, vheaderLookup key vheader = lastValue key (announcedItems buffer)) ∧
      ∀ key, ∃ result, vheaderRawFindKey key buffer len = some result ∧
        result.toOption = firstWithin key (announcedTotal buffer) 0 (announcedItems buffer) := by
  unfold vheaderDecompose at accepted
  split at accepted
  · rename_i a b c d p
    simp only at accepted
    split at accepted
    · cases accepted
    rename_i fits
    obtain ⟨outcome, walked, accepted⟩ := map_eq_some_iff.mp accepted
    cases outcome with
    | error error => cases accepted
    | ok result =>
      obtain ⟨rfl, rfl⟩ := Prod.mk.inj (Except.ok.inj accepted)
      obtain ⟨items, more, length, rfl, -, rfl⟩ := decomposeItems_ok walked
      have announced :
          announcedItems (a :: b :: c :: d :: (items.flatMap (·.bytes) ++ more)) = items := by
        unfold announcedItems
        simp only [drop_succ_cons, drop_zero, take_succ_cons, take_zero, ← length]
        exact vheaderItems_flatMap items more
      rw [announced]
      refine ⟨fun key => lookup_setItems key items _ _, fun key => ?_⟩
      obtain ⟨result, found, same, -⟩ :=
        rawFindItems_eq key (UInt16.ofNat (beNat [a, b])) 0 items more
      refine ⟨result, ?_, same⟩
      rw [vheaderRawFindKey, if_neg fits, ← length]
      exact found
  · cases accepted

/-- The readers agree on an accepted buffer exactly where the first item of each key
suffices. -/
theorem readersAgree_iff_firstsSuffice
      (accepted : vheaderDecompose buffer len = some (.ok (num, vheader))) :
    (∀ key, ReadersAgree key buffer len vheader) ↔ FirstsSuffice buffer := by
  obtain ⟨lookup, raw⟩ := decompose_ok accepted
  have agree_iff : ∀ key, ReadersAgree key buffer len vheader ↔
      firstWithin key (announcedTotal buffer) 0 (announcedItems buffer) = lastValue key
      (announcedItems buffer) := by
    intro key
    obtain ⟨result, found, same⟩ := raw key
    rw [ReadersAgree, lookup, ← same]
    constructor
    · rintro ⟨other, otherFound, agrees⟩
      obtain rfl := some.inj (found.symm.trans otherFound)
      exact agrees
    · exact fun agrees => ⟨result, found, agrees⟩
  constructor
  · intro agrees front item back split before
    have member : ∃ other ∈ announcedItems buffer, other.key = item.key :=
      ⟨item, split ▸ mem_append_right _ mem_cons_self, rfl⟩
    obtain ⟨value, last⟩ := lastValue_isSome member
    obtain ⟨otherFront, other, otherBack, otherSplit, otherBefore, same, rfl, within⟩ :=
      firstWithin_eq_some_iff.mp (((agree_iff item.key).mp (agrees item.key)).trans last)
    obtain ⟨rfl, rfl⟩ := first_unique (split.symm.trans otherSplit) (same ▸ before) otherBefore
    exact ⟨last, within⟩
  · intro suffices_ key
    rw [agree_iff key]
    by_cases member : ∃ item ∈ announcedItems buffer, item.key = key
    · obtain ⟨front, item, back, split, before, rfl⟩ := exists_first member
      obtain ⟨last, within⟩ := suffices_ front item back split before
      rw [last, firstWithin_eq_some_iff]
      exact ⟨front, item, back, split, before, rfl, rfl, within⟩
    · have noLast : lastValue key (announcedItems buffer) = none :=
        eq_none_iff_forall_not_mem.mpr fun value found => member (lastValue_mem found)
      rw [noLast, eq_none_iff_forall_not_mem]
      intro value found
      obtain ⟨front, item, back, split, -, same, -⟩ := firstWithin_eq_some_iff.mp found
      exact member ⟨item, split ▸ mem_append_right _ mem_cons_self, same⟩

end Readers

/-- One key with one value. -/
def singleKey : List UInt8 := [0, 11, 0, 1, 0x6B, 0, 2, 0, 0, 0, 7]

theorem readersAgree_singleKey :
    ∃ num vheader, vheaderDecompose singleKey 11 = some (.ok (num, vheader)) ∧
    ∀ key, ReadersAgree key singleKey 11 vheader := by
  refine ⟨_, _, rfl, (@readersAgree_iff_firstsSuffice singleKey 11 _ _ rfl).mpr ?_⟩
  intro front item back split before
  cases front with
  | nil =>
    obtain ⟨rfl, rfl⟩ := List.cons.inj split
    exact ⟨rfl, by decide, by decide, trivial⟩
  | cons head front =>
    obtain ⟨-, impossible⟩ := List.cons.inj split
    cases append_eq_nil_iff.mp impossible.symm with
    | intro _ impossible => cases impossible

/-- One key with two values. -/
def repeatedKey : List UInt8 := [0, 18, 0, 2, 0x6B, 0, 2, 0, 0, 0, 1, 0x6B, 0, 2, 0, 0, 0, 2]

/-- One reader gives the first value, the other the last. -/
theorem readersAgree_repeatedKey_fails :
    ∃ num vheader, vheaderDecompose repeatedKey 18 = some (.ok (num, vheader)) ∧
    ¬ReadersAgree (.ofBytes [0x6B]) repeatedKey 18 vheader := by
  refine ⟨_, _, rfl, ?_⟩
  rintro ⟨result, found, agrees⟩
  obtain rfl := some.inj (show some (Except.ok (VheaderValue.iVal32 1)) = some result from found)
  cases agrees

end Idrm.Ilink
