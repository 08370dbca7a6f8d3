import Idrm.Ilink.VheaderRoundTrip

/-!
# The bounds of a variable header

A buffer declares how many of its bytes are the header. Both readers compare a 16-bit count
with that number, and `vheader_raw_find_key` starts the count four bytes too low. On the
declared bytes alone no count overflows; where a reader gets by with them, what lies behind
makes no difference.
-/

namespace Idrm.Ilink

open Idrm.Lib Option List

/-! ## More bytes -/

section Append

variable {total offset : UInt16} {p rest more : List UInt8} {key : CString}

/-- Bytes behind a string do not matter to it. -/
theorem read_append {string : CString} (isRead : CString.read p = some (string, rest))
    (more : List UInt8) : CString.read (p ++ more) = some (string, rest ++ more) := by
  rw [CString.read_eq_some_iff] at isRead ⊢
  rw [isRead, append_assoc]

/-- Nor do those behind a number. -/
theorem readLong_append {value : UInt32} (isRead : vheaderReadLong p = some (value, rest))
    (more : List UInt8) : vheaderReadLong (p ++ more) = some (value, rest ++ more) := by
  rw [readLong_eq_some_iff] at isRead ⊢
  rw [isRead, append_assoc]

/-- What is read of a buffer is read of a longer one. -/
theorem readItem_append {result : Except Int (VheaderItem × UInt16 × List UInt8)}
    (isRead : vheaderReadItem total offset p = some result) (more : List UInt8) :
    vheaderReadItem total offset (p ++ more) =
      some (result.map fun (item, after, rest) => (item, after, rest ++ more)) := by
  obtain ⟨⟨key, p₁⟩, readKey, isRead⟩ := bind_eq_some_iff.mp isRead
  unfold vheaderReadItem
  rw [read_append readKey]
  simp only [bind_eq_bind, bind_some] at isRead ⊢
  by_cases past : total ≤ offset + UInt16.ofNat (key.bytes.length + 1)
  · rw [if_pos past] at isRead ⊢
    obtain rfl := some.inj isRead
    rfl
  rw [if_neg past] at isRead ⊢
  obtain ⟨type, readType, isRead⟩ := bind_eq_some_iff.mp isRead
  obtain ⟨p₂, rfl⟩ := exists_cons_of_head readType
  simp only [cons_append, List.head?_cons, tail_cons, bind_some] at isRead ⊢
  by_cases pastType : total ≤ offset + UInt16.ofNat (key.bytes.length + 1) + 1
  · rw [if_pos pastType] at isRead ⊢
    obtain rfl := some.inj isRead
    rfl
  rw [if_neg pastType] at isRead ⊢
  by_cases isString : type = 3
  · rw [if_pos isString] at isRead ⊢
    obtain ⟨⟨value, p₃⟩, readValue, isRead⟩ := bind_eq_some_iff.mp isRead
    rw [read_append readValue, bind_some]
    simp only at isRead ⊢
    by_cases pastValue : total < offset + UInt16.ofNat (key.bytes.length + 1) + 1 +
      UInt16.ofNat (value.bytes.length + 1)
    · rw [if_pos pastValue] at isRead ⊢
      obtain rfl := some.inj isRead
      rfl
    · rw [if_neg pastValue] at isRead ⊢
      obtain rfl := some.inj isRead
      rfl
  rw [if_neg isString] at isRead ⊢
  by_cases isLong : type = 2
  · rw [if_pos isLong] at isRead ⊢
    by_cases pastValue : total < offset + UInt16.ofNat (key.bytes.length + 1) + 1 + 4
    · rw [if_pos pastValue] at isRead ⊢
      obtain rfl := some.inj isRead
      rfl
    · rw [if_neg pastValue] at isRead ⊢
      obtain ⟨⟨value, p₃⟩, readValue, isRead⟩ := bind_eq_some_iff.mp isRead
      obtain rfl := some.inj isRead
      rw [readLong_append readValue]
      rfl
  · rw [if_neg isLong] at isRead ⊢
    obtain rfl := some.inj isRead
    rfl

/-- Nor do those behind the items. -/
theorem decomposeItems_append {left : Nat}
    {vheader : VheaderTable} {result : Except Int VheaderTable}
    (walked : vheaderDecomposeItems total left offset p vheader = some result) (more : List UInt8) :
    vheaderDecomposeItems total left offset (p ++ more) vheader = some result := by
  induction left generalizing offset p vheader with
  | zero => exact walked
  | succ left ih =>
    rw [vheaderDecomposeItems] at walked ⊢
    split
    · rename_i inside
      rw [if_pos inside] at walked
      cases isRead : vheaderReadItem total offset p with
      | none =>
        rw [isRead] at walked
        cases walked
      | some round =>
        rw [isRead] at walked
        rw [readItem_append isRead]
        cases round with
        | error error => exact walked
        | ok round => exact ih walked
    · rename_i past
      rwa [if_neg past] at walked

/-- So does `vheader_raw_find_key`, but for a word that is passed over and ends behind the
buffer. -/
theorem rawReadItem_append {result : Except Int (Option VheaderValue × UInt16 × List UInt8)}
    (isRead : vheaderRawReadItem key total offset p = some result) (more : List UInt8) :
    ∃ result', vheaderRawReadItem key total offset (p ++ more) = some result' ∧
    ((∃ error, result = .error error ∧ result' = .error error) ∨ ∃ value after rest rest',
      result = .ok (value, after, rest) ∧ result' = .ok (value, after, rest') ∧
      (rest' = rest ++ more ∨ rest = [])) := by
  obtain ⟨⟨itemKey, p₁⟩, readKey, isRead⟩ := bind_eq_some_iff.mp isRead
  unfold vheaderRawReadItem
  rw [read_append readKey]
  simp only [bind_eq_bind, bind_some] at isRead ⊢
  by_cases past : total ≤ offset + UInt16.ofNat (itemKey.bytes.length + 1)
  · rw [if_pos past] at isRead ⊢
    exact ⟨_, rfl, .inl ⟨-20, (some.inj isRead).symm, rfl⟩⟩
  rw [if_neg past] at isRead ⊢
  obtain ⟨type, readType, isRead⟩ := bind_eq_some_iff.mp isRead
  obtain ⟨p₂, rfl⟩ := exists_cons_of_head readType
  simp only [cons_append, List.head?_cons, tail_cons, bind_some] at isRead ⊢
  by_cases pastType : total ≤ offset + UInt16.ofNat (itemKey.bytes.length + 1) + 1
  · rw [if_pos pastType] at isRead ⊢
    exact ⟨_, rfl, .inl ⟨-40, (some.inj isRead).symm, rfl⟩⟩
  rw [if_neg pastType] at isRead ⊢
  by_cases isString : type = 3
  · rw [if_pos isString] at isRead ⊢
    obtain ⟨⟨value, p₃⟩, readValue, isRead⟩ := bind_eq_some_iff.mp isRead
    rw [read_append readValue, bind_some]
    simp only at isRead ⊢
    by_cases pastValue : total < offset + UInt16.ofNat (itemKey.bytes.length + 1) + 1 +
      UInt16.ofNat (value.bytes.length + 1)
    · rw [if_pos pastValue] at isRead ⊢
      exact ⟨_, rfl, .inl ⟨-50, (some.inj isRead).symm, rfl⟩⟩
    · rw [if_neg pastValue] at isRead ⊢
      exact ⟨_, rfl, .inr ⟨_, _, _, _, (some.inj isRead).symm, rfl, .inl rfl⟩⟩
  rw [if_neg isString] at isRead ⊢
  by_cases isLong : type = 2
  · rw [if_pos isLong] at isRead ⊢
    by_cases pastValue : total < offset + UInt16.ofNat (itemKey.bytes.length + 1) + 1 + 4
    · rw [if_pos pastValue] at isRead ⊢
      exact ⟨_, rfl, .inl ⟨-60, (some.inj isRead).symm, rfl⟩⟩
    rw [if_neg pastValue] at isRead ⊢
    by_cases same : key = itemKey
    · rw [if_pos same] at isRead ⊢
      obtain ⟨⟨value, p₃⟩, readValue, isRead⟩ := bind_eq_some_iff.mp isRead
      rw [readLong_append readValue]
      exact ⟨_, rfl, .inr ⟨_, _, _, _, (some.inj isRead).symm, rfl, .inl rfl⟩⟩
    · rw [if_neg same] at isRead ⊢
      refine ⟨_, rfl, .inr ⟨_, _, _, _, (some.inj isRead).symm, rfl, ?_⟩⟩
      rcases Nat.lt_or_ge p₂.length 4 with short | room
      · exact .inr (drop_eq_nil_iff.mpr (by omega))
      · exact .inl (drop_append_of_le_length room)
  · rw [if_neg isLong] at isRead ⊢
    exact ⟨_, rfl, .inl ⟨-100, (some.inj isRead).symm, rfl⟩⟩

/-- A reader that stops without a byte stops on any bytes. -/
theorem rawFindItems_nil {left : Nat} {result : Except Int VheaderValue}
    (walked : vheaderRawFindItems key total left offset [] = some result) (p : List UInt8) :
    vheaderRawFindItems key total left offset p = some result := by
  cases left with
  | zero => exact walked
  | succ left =>
    rw [vheaderRawFindItems] at walked ⊢
    split at walked
    · have unread : vheaderRawReadItem key total offset [] = none := rfl
      rw [unread] at walked
      cases walked
    · rename_i past
      rwa [if_neg past]

/-- Nor do they to the search for a key. -/
theorem rawFindItems_append {left : Nat} {result : Except Int VheaderValue}
    (walked : vheaderRawFindItems key total left offset p = some result) (more : List UInt8) :
    vheaderRawFindItems key total left offset (p ++ more) = some result := by
  induction left generalizing offset p with
  | zero => exact walked
  | succ left ih =>
    rw [vheaderRawFindItems] at walked ⊢
    split
    · rename_i inside
      rw [if_pos inside] at walked
      cases isRead : vheaderRawReadItem key total offset p with
      | none =>
        rw [isRead] at walked
        cases walked
      | some round =>
        rw [isRead] at walked
        obtain ⟨round', isRead', same⟩ := rawReadItem_append isRead more
        rw [isRead']
        rcases same with ⟨error, rfl, rfl⟩ | ⟨value, after, rest, rest', rfl, rfl, onward⟩
        · exact walked
        · cases value with
          | some value => exact walked
          | none =>
            rcases onward with rfl | rfl
            · exact ih walked
            · exact rawFindItems_nil walked rest'
    · rename_i past
      rwa [if_neg past] at walked

end Append

/-! ## What must lie in the declared bytes -/

/-- The strings of the item at the front end: its key, and its value if that is a string of which
a byte is there. A word of which a byte is there is whole, or the count behind it does not
overflow. -/
def ItemEnds (total : UInt16) (p : List UInt8) : Prop :=
  ∃ key behind, p = CString.terminated key ++ behind ∧ (∀ value, behind = 3 :: value → value ≠ [] →
    ∃ string rest, value = CString.terminated string ++ rest) ∧ ∀ value, behind = 2 :: value →
    value ≠ [] → 4 ≤ value.length ∨ total.toNat + 4 < 65536 + value.length

/-- The item at the front has its key, its type and its value: a string, and a word unless it is of
another key and no item is read behind it. -/
def ItemLies (key : CString) (isLast : Prop) (p : List UInt8) : Prop :=
  ∃ itemKey type behind, p = CString.terminated itemKey ++ type :: behind ∧
    (type = 3 → ∃ string rest, behind = CString.terminated string ++ rest) ∧
    (type = 2 → 4 ≤ behind.length ∨ itemKey ≠ key ∧ (isLast ∨ behind = []))

section Lies

variable {total offset : UInt16} {p rest : List UInt8} {item : VheaderItem} {key : CString}

/-- An item is known by its bytes. -/
theorem item_unique {other : VheaderItem} {otherRest : List UInt8}
    (same : item.bytes ++ rest = other.bytes ++ otherRest) : item = other ∧ rest = otherRest := by
  have next := nextItem_bytes item rest
  rw [same, nextItem_bytes] at next
  obtain ⟨rfl, rfl⟩ := Prod.mk.inj (some.inj next)
  exact ⟨rfl, rfl⟩

/-- An item is a key, a type and a value. -/
theorem item_lies (item : VheaderItem) : (∃ value, item.value = .sVal value ∧
      item.bytes = item.key.terminated ++ 3 :: value.terminated) ∨
    ∃ value : UInt32, item.value = .iVal32 value ∧
    item.bytes = item.key.terminated ++ 2 :: beBytes 4 value.toNat := by
  obtain ⟨key, value, isSet⟩ := item
  cases value with
  | unset => exact absurd rfl isSet
  | iVal32 value =>
    exact .inr ⟨value, rfl, by simp [VheaderItem.bytes, vheaderNodeBytes, VheaderValue.type]⟩
  | sVal value =>
    exact .inl ⟨value, rfl, by simp [VheaderItem.bytes, vheaderNodeBytes, VheaderValue.type]⟩

/-- So is a string. -/
theorem terminated_unique {one other : CString} {otherRest : List UInt8}
    (same : one.terminated ++ rest = other.terminated ++ otherRest) :
    one = other ∧ rest = otherRest := by
  have isRead := CString.read_eq_some_iff.mpr same
  rw [CString.read_eq_some_iff.mpr rfl] at isRead
  obtain ⟨rfl, rfl⟩ := Prod.mk.inj (some.inj isRead)
  exact ⟨rfl, rfl⟩

/-- A number is read from four bytes. -/
theorem readLong_isSome_iff : (vheaderReadLong p).isSome = true ↔ 4 ≤ p.length := by
  rcases p with _ | ⟨a, _ | ⟨b, _ | ⟨c, _ | ⟨d, rest⟩⟩⟩⟩ <;> simp [vheaderReadLong]

/-- Of all ways in which items lie at the front, those behind the first one. -/
theorem forall_items_iff {holds : List VheaderItem → List UInt8 → Prop} :
    (∀ items rest, p = items.flatMap (·.bytes) ++ rest → holds items rest) ↔
      holds [] p ∧ ∀ item behind, p = item.bytes ++ behind →
        ∀ items rest, behind = items.flatMap (·.bytes) ++ rest → holds (item :: items) rest := by
  constructor
  · intro all
    refine ⟨all [] p rfl, ?_⟩
    rintro item behind rfl items rest rfl
    exact all (item :: items) rest (by rw [flatMap_cons, append_assoc])
  · rintro ⟨front, later⟩ items rest rfl
    cases items with
    | nil => exact front
    | cons item items => exact later item _ (by rw [flatMap_cons, append_assoc]) items rest rfl

/-- Behind its key an item lies as its type says. -/
theorem itemLies_iff {isLast : Prop} {itemKey : CString} {type : UInt8} {behind : List UInt8} :
    ItemLies key isLast (itemKey.terminated ++ type :: behind) ↔
      (type = 3 → ∃ string rest, behind = CString.terminated string ++ rest) ∧
        (type = 2 → 4 ≤ behind.length ∨ itemKey ≠ key ∧ (isLast ∨ behind = [])) := by
  constructor
  · rintro ⟨other, otherType, otherBehind, same, lies⟩
    obtain ⟨rfl, tails⟩ := terminated_unique same
    obtain ⟨rfl, rfl⟩ := List.cons.inj tails
    exact lies
  · exact fun lies => ⟨itemKey, type, behind, rfl, lies⟩

/-- On declared bytes, counted from the front of the header, the item is read or refused if it
ends. -/
theorem readItem_isSome_iff (position : offset.toNat + p.length = total.toNat) :
    (vheaderReadItem total offset p).isSome = true ↔ ItemEnds total p := by
  have small := total.toNat_lt
  cases readKey : CString.read p with
  | none =>
    have unread : vheaderReadItem total offset p = none := by
      unfold vheaderReadItem
      rw [readKey]
      rfl
    rw [unread]
    refine ⟨fun impossible => absurd impossible Bool.false_ne_true, ?_⟩
    rintro ⟨key, behind, lies, -⟩
    rw [CString.read_eq_some_iff.mpr lies] at readKey
    cases readKey
  | some front =>
    obtain ⟨key, behind⟩ := front
    obtain rfl := CString.read_eq_some_iff.mp readKey
    have ends : ItemEnds total (key.terminated ++ behind) ↔
        (∀ value, behind = 3 :: value → value ≠ [] →
        ∃ string rest, value = CString.terminated string ++ rest) ∧ ∀ value, behind = 2 :: value →
        value ≠ [] → 4 ≤ value.length ∨ total.toNat + 4 < 65536 + value.length := by
      constructor
      · rintro ⟨other, otherBehind, same, ends⟩
        obtain ⟨rfl, rfl⟩ := terminated_unique same
        exact ends
      · exact fun ends => ⟨key, behind, rfl, ends⟩
    have length : (key.terminated ++ behind).length = key.bytes.length + 1 + behind.length := by
      rw [length_append, CString.terminated, length_append, length_singleton]
    have afterKey : (offset + UInt16.ofNat (key.bytes.length + 1)).toNat = offset.toNat +
        (key.bytes.length + 1) :=
      toNat_add_ofNat (by omega)
    rw [ends]
    unfold vheaderReadItem
    rw [readKey]
    simp only [bind_eq_bind, bind_some]
    cases behind with
    | nil =>
      rw [length_nil] at length
      rw [if_pos (UInt16.le_iff_toNat_le.mpr (by omega))]
      exact ⟨fun _ => ⟨fun _ impossible => (by cases impossible),
        fun _ impossible => (by cases impossible)⟩, fun _ => rfl⟩
    | cons type value =>
      rw [length_cons] at length
      rw [if_neg (UInt16.not_le.mpr (UInt16.lt_iff_toNat_lt.mpr (by omega))), List.head?_cons,
        bind_some, tail_cons]
      have afterType : (offset + UInt16.ofNat (key.bytes.length + 1) + 1).toNat = offset.toNat +
          (key.bytes.length + 1) + 1 := by
        rw [UInt16.toNat_add, afterKey, UInt16.toNat_one]
        omega
      cases value with
      | nil =>
        rw [length_nil] at length
        rw [if_pos (UInt16.le_iff_toNat_le.mpr (by omega))]
        exact ⟨fun _ => ⟨fun _ same nonempty => absurd (List.cons.inj same).2.symm nonempty,
          fun _ same nonempty => absurd (List.cons.inj same).2.symm nonempty⟩, fun _ => rfl⟩
      | cons first value =>
        rw [length_cons] at length
        rw [if_neg (UInt16.not_le.mpr (UInt16.lt_iff_toNat_lt.mpr (by omega)))]
        by_cases isString : type = 3
        · rw [if_pos isString]
          cases readValue : CString.read (first :: value) with
          | none =>
            refine ⟨fun impossible => absurd impossible Bool.false_ne_true, fun strings => ?_⟩
            obtain ⟨string, rest, lies⟩ :=
              strings.1 (first :: value) (by rw [isString]) (cons_ne_nil _ _)
            rw [CString.read_eq_some_iff.mpr lies] at readValue
            cases readValue
          | some string =>
            refine ⟨fun _ => ⟨fun other same _ => ?_, fun other same _ => ?_⟩, fun _ => ?_⟩
            · obtain ⟨-, rfl⟩ := List.cons.inj same
              exact ⟨string.1, string.2, CString.read_eq_some_iff.mp readValue⟩
            · rw [isString] at same
              exact absurd (List.cons.inj same).1 (by decide)
            · simp only [bind_some]
              split <;> rfl
        · rw [if_neg isString]
          by_cases isLong : type = 2
          · rw [if_pos isLong]
            have afterValue : (offset + UInt16.ofNat (key.bytes.length + 1) + 1 + 4).toNat =
                (offset.toNat + (key.bytes.length + 1) + 1 + 4) % 65536 := by
              rw [UInt16.toNat_add, afterType]
              rfl
            have words : ((∀ other, type :: first :: value = 3 :: other → other ≠ [] →
                ∃ string rest, other = CString.terminated string ++ rest) ∧
                ∀ other, type :: first :: value = 2 :: other → other ≠ [] → 4 ≤ other.length ∨
                total.toNat + 4 < 65536 + other.length) ↔ (4 ≤ (first :: value).length ∨
                total.toNat + 4 < 65536 + (first :: value).length) := by
              constructor
              · exact fun ends => ends.2 (first :: value) (by rw [isLong]) (cons_ne_nil _ _)
              · refine fun whole => ⟨fun other same => absurd (List.cons.inj same).1 isString,
                  fun other same _ => ?_⟩
                rwa [← (List.cons.inj same).2]
            rw [words, length_cons]
            by_cases past : total < offset + UInt16.ofNat (key.bytes.length + 1) + 1 + 4
            · rw [if_pos past]
              rw [UInt16.lt_iff_toNat_lt, afterValue] at past
              refine ⟨fun _ => ?_, fun _ => rfl⟩
              omega
            · rw [if_neg past]
              rw [UInt16.lt_iff_toNat_lt, afterValue] at past
              have long : (vheaderReadLong (first :: value)).isSome = true ↔
                4 ≤ (first :: value).length := readLong_isSome_iff
              rw [length_cons] at long
              cases readValue : vheaderReadLong (first :: value) with
              | none =>
                rw [readValue] at long
                refine ⟨fun impossible => absurd impossible Bool.false_ne_true,
                  fun whole => absurd (long.mpr ?_) Bool.false_ne_true⟩
                omega
              | some word =>
                rw [readValue] at long
                exact ⟨fun _ => .inl (long.mp rfl), fun _ => rfl⟩
          · rw [if_neg isLong]
            exact ⟨fun _ => ⟨fun other same _ => absurd (List.cons.inj same).1 isString,
              fun other same _ => absurd (List.cons.inj same).1 isLong⟩, fun _ => rfl⟩

end Lies

/-! ## Readers on the declared bytes -/

section Declared

variable {total offset : UInt16} {p : List UInt8} {key : CString}

/-- On declared bytes `vheader_decompose` has a result exactly when every item it comes to ends. -/
theorem decomposeItems_isSome_iff {left : Nat} (position : offset.toNat + p.length = total.toNat)
    (vheader : VheaderTable) : (vheaderDecomposeItems total left offset p vheader).isSome = true ↔
    ∀ (items : List VheaderItem) rest, p = items.flatMap (·.bytes) ++ rest → items.length < left →
    rest ≠ [] → ItemEnds total rest := by
  induction left generalizing offset p vheader with
  | zero =>
    exact ⟨fun _ items _ _ impossible => absurd impossible (Nat.not_lt_zero _), fun _ => rfl⟩
  | succ left ih =>
    rw [vheaderDecomposeItems]
    by_cases empty : p = []
    · rw [empty, length_nil] at position
      have past : ¬ offset < total := by
        rw [UInt16.lt_iff_toNat_lt]
        omega
      rw [if_neg past, empty]
      exact ⟨fun _ items rest split _ nonempty => absurd
        (append_eq_nil_iff.mp split.symm).2 nonempty, fun _ => rfl⟩
    have positive : 0 < p.length := length_pos_iff.mpr empty
    have inside : offset < total := by
      rw [UInt16.lt_iff_toNat_lt]
      omega
    rw [if_pos inside, forall_items_iff]
    have ends := readItem_isSome_iff position
    cases isRead : vheaderReadItem total offset p with
    | none =>
      rw [isRead] at ends
      exact ⟨fun impossible => absurd impossible Bool.false_ne_true,
        fun all => absurd (ends.mpr (all.1 (Nat.succ_pos left) empty)) Bool.false_ne_true⟩
    | some round =>
      rw [isRead] at ends
      have first : ItemEnds total p := ends.mp rfl
      cases round with
      | error error =>
        refine ⟨fun _ => ⟨fun _ _ => first, ?_⟩, fun _ => rfl⟩
        rintro item behind rfl
        rw [length_append] at position
        obtain ⟨-, fits, -⟩ :=
          fits_of_length (show offset.toNat + item.bytes.length ≤ total.toNat by omega)
        rw [readItem_fits fits] at isRead
        cases isRead
      | ok round =>
        obtain ⟨item, after, rest⟩ := round
        obtain ⟨rfl, fits, rfl⟩ := readItem_ok isRead
        rw [length_append] at position
        obtain ⟨-, -, next⟩ :=
          fits_of_length (show offset.toNat + item.bytes.length ≤ total.toNat by omega)
        refine (ih (by omega) _).trans ⟨fun onward => ⟨fun _ _ => first, ?_⟩,
          fun all items rest' split short nonempty => ?_⟩
        · intro other behind same items rest' split short nonempty
          obtain ⟨-, rfl⟩ := item_unique same
          exact onward items rest' split (by rw [length_cons] at short; omega) nonempty
        · exact all.2 item rest rfl items rest' split (by rw [length_cons]; omega) nonempty

/-- On declared bytes, counted from four bytes below, a round of `vheader_raw_find_key`. -/
theorem rawReadItem_declared (position : offset.toNat + p.length + 4 = total.toNat) :
    (vheaderRawReadItem key total offset p = none ∧ ∀ isLast, ¬ ItemLies key isLast p) ∨
    (∃ error, vheaderRawReadItem key total offset p = some (.error error) ∧
      (∀ isLast, ItemLies key isLast p) ∧ ∀ item rest, p ≠ VheaderItem.bytes item ++ rest) ∨
    (∃ (item : VheaderItem) (rest : List UInt8), p = item.bytes ++ rest ∧
      (∀ isLast, ItemLies key isLast p) ∧ vheaderRawReadItem key total offset p =
      some (.ok (item.valueFor key, item.next offset, rest)) ∧
      (item.next offset).toNat = offset.toNat + item.bytes.length) ∨
    ∃ itemKey behind after, p = CString.terminated itemKey ++ 2 :: behind ∧ itemKey ≠ key ∧
    behind.length < 4 ∧ vheaderRawReadItem key total offset p = some (.ok (none, after, [])) ∧
    after.toNat + behind.length = total.toNat := by
  have small := total.toNat_lt
  cases readKey : CString.read p with
  | none =>
    left
    constructor
    · unfold vheaderRawReadItem
      rw [readKey]
      rfl
    · rintro isLast ⟨itemKey, type, behind, lies, -⟩
      rw [CString.read_eq_some_iff.mpr lies] at readKey
      cases readKey
  | some front =>
    obtain ⟨itemKey, behind⟩ := front
    obtain rfl := CString.read_eq_some_iff.mp readKey
    have length : (itemKey.terminated ++ behind).length = itemKey.bytes.length + 1 +
        behind.length := by
      rw [length_append, CString.terminated, length_append, length_singleton]
    have afterKey : (offset + UInt16.ofNat (itemKey.bytes.length + 1)).toNat = offset.toNat +
        (itemKey.bytes.length + 1) :=
      toNat_add_ofNat (by omega)
    have inKey : ¬ total ≤ offset + UInt16.ofNat (itemKey.bytes.length + 1) := by
      rw [UInt16.le_iff_toNat_le]
      omega
    cases behind with
    | nil =>
      left
      constructor
      · unfold vheaderRawReadItem
        rw [readKey]
        simp only [bind_eq_bind, bind_some, if_neg inKey]
        rfl
      · rintro isLast ⟨other, type, behind, same, -⟩
        cases (terminated_unique same).2
    | cons type behind =>
      rw [length_cons] at length
      have afterType : (offset + UInt16.ofNat (itemKey.bytes.length + 1) + 1).toNat = offset.toNat +
          (itemKey.bytes.length + 1) + 1 := by
        rw [UInt16.toNat_add, afterKey, UInt16.toNat_one]
        omega
      have inType : ¬ total ≤ offset + UInt16.ofNat (itemKey.bytes.length + 1) + 1 := by
        rw [UInt16.le_iff_toNat_le]
        omega
      have fits : ∀ item rest,
          itemKey.terminated ++ type :: behind = VheaderItem.bytes item ++ rest →
          vheaderRawReadItem key total offset (itemKey.terminated ++ type :: behind) =
          some (.ok (item.valueFor key, item.next offset, rest)) ∧
          (item.next offset).toNat = offset.toNat + item.bytes.length := by
        intro item rest same
        have lengths := congrArg List.length same
        rw [length, length_append] at lengths
        obtain ⟨-, fits, next⟩ :=
          fits_of_length (show offset.toNat + item.bytes.length ≤ total.toNat by omega)
        rw [same, rawReadItem_fits key fits]
        exact ⟨rfl, next⟩
      by_cases isString : type = 3
      · cases readValue : CString.read behind with
        | none =>
          left
          constructor
          · unfold vheaderRawReadItem
            rw [readKey]
            simp only [bind_eq_bind, bind_some, if_neg inKey, List.head?_cons, tail_cons,
              if_neg inType, if_pos isString, readValue, bind_none]
          · intro isLast lies
            obtain ⟨string, rest, lies⟩ := (itemLies_iff.mp lies).1 isString
            rw [CString.read_eq_some_iff.mpr lies] at readValue
            cases readValue
        | some value =>
          obtain ⟨value, rest⟩ := value
          have lies := CString.read_eq_some_iff.mp readValue
          have bytes : itemKey.terminated ++ type :: behind =
              VheaderItem.bytes ⟨itemKey, .sVal value, VheaderValue.noConfusion⟩ ++ rest := by
            rw [isString, lies]
            simp [VheaderItem.bytes, vheaderNodeBytes, VheaderValue.type]
          refine .inr (.inr (.inl ⟨_, rest, bytes, fun isLast => itemLies_iff.mpr
            ⟨fun _ => ⟨value, rest, lies⟩, fun isLong => ?_⟩, fits _ _ bytes⟩))
          rw [isString] at isLong
          exact absurd isLong (by decide)
      · by_cases isLong : type = 2
        · rcases Nat.lt_or_ge behind.length 4 with cut | room
          · have afterValue : (offset + UInt16.ofNat (itemKey.bytes.length + 1) + 1 + 4).toNat =
                offset.toNat + (itemKey.bytes.length + 1) + 1 + 4 := by
              rw [UInt16.toNat_add, afterType, show (4 : UInt16).toNat = 4 from rfl]
              omega
            have inValue : ¬ total < offset + UInt16.ofNat (itemKey.bytes.length + 1) + 1 + 4 := by
              rw [UInt16.lt_iff_toNat_lt]
              omega
            by_cases same : itemKey = key
            · left
              have unread : vheaderReadLong behind = none := by
                rw [← not_isSome_iff_eq_none, readLong_isSome_iff]
                omega
              constructor
              · unfold vheaderRawReadItem
                rw [readKey]
                simp only [bind_eq_bind, bind_some, if_neg inKey, List.head?_cons, tail_cons,
                  if_neg inType, if_neg isString, if_pos isLong, if_neg inValue, if_pos same.symm,
                  unread, bind_none]
              · intro isLast lies
                rcases (itemLies_iff.mp lies).2 isLong with room | ⟨different, -⟩
                · omega
                · exact different same
            · refine .inr (.inr (.inr ⟨itemKey, behind, offset + UInt16.ofNat
                (itemKey.bytes.length + 1) + 1 + 4, by rw [isLong], same, cut, ?_, by omega⟩))
              unfold vheaderRawReadItem
              rw [readKey]
              simp only [bind_eq_bind, bind_some, if_neg inKey, List.head?_cons,
                tail_cons, if_neg inType, if_neg isString, if_pos isLong, if_neg inValue,
                if_neg (Ne.symm same), drop_eq_nil_iff.mpr (Nat.le_of_lt cut)]
          · obtain ⟨⟨value, rest⟩, readValue⟩ := isSome_iff_exists.mp (readLong_isSome_iff.mpr room)
            have bytes : itemKey.terminated ++ type :: behind =
                VheaderItem.bytes ⟨itemKey, .iVal32 value, VheaderValue.noConfusion⟩ ++ rest := by
              rw [isLong, readLong_eq_some_iff.mp readValue]
              simp [VheaderItem.bytes, vheaderNodeBytes, VheaderValue.type]
            exact .inr (.inr (.inl ⟨_, rest, bytes, fun isLast => itemLies_iff.mpr
              ⟨fun impossible => absurd impossible isString, fun _ => .inl room⟩, fits _ _ bytes⟩))
        · refine .inr (.inl ⟨-100, ?_, fun isLast =>
            itemLies_iff.mpr ⟨fun impossible => absurd impossible isString,
              fun impossible => absurd impossible isLong⟩, fun item rest same => ?_⟩)
          · unfold vheaderRawReadItem
            rw [readKey]
            simp only [bind_eq_bind, bind_some, if_neg inKey, List.head?_cons, tail_cons,
              if_neg inType, if_neg isString, if_neg isLong]
          · rcases item_lies item with ⟨value, -, bytes⟩ | ⟨value, -, bytes⟩
            · rw [bytes, append_assoc] at same
              exact isString (List.cons.inj (terminated_unique same).2).1
            · rw [bytes, append_assoc] at same
              exact isLong (List.cons.inj (terminated_unique same).2).1

/-- On declared bytes `vheader_raw_find_key` has a result exactly when every item it comes to lies
there. -/
theorem rawFindItems_isSome_iff {left : Nat}
    (position : offset.toNat + p.length + 4 = total.toNat) :
    (vheaderRawFindItems key total left offset p).isSome = true ↔ ∀ (items : List VheaderItem) rest,
    p = items.flatMap (·.bytes) ++ rest → items.length < left → (∀ item ∈ items, item.key ≠ key) →
    ItemLies key (items.length + 1 = left) rest := by
  induction left generalizing offset p with
  | zero =>
    exact ⟨fun _ items _ _ impossible => absurd impossible (Nat.not_lt_zero _), fun _ => rfl⟩
  | succ left ih =>
    have inside : offset < total := by
      rw [UInt16.lt_iff_toNat_lt]
      omega
    rw [vheaderRawFindItems, if_pos inside, forall_items_iff]
    rcases @rawReadItem_declared total offset p key position with
      ⟨unread, misses⟩ | ⟨error, isRead, lies, noItem⟩ | ⟨item, rest, rfl, lies, isRead, next⟩ |
        ⟨itemKey, behind, after, rfl, different, cut, isRead, next⟩
    · rw [unread]
      refine ⟨fun impossible => absurd impossible Bool.false_ne_true, fun all => ?_⟩
      exact absurd (all.1 (Nat.succ_pos left) fun _ member => absurd member not_mem_nil) (misses _)
    · rw [isRead]
      exact ⟨fun _ => ⟨fun _ _ => lies _, fun item rest same => absurd same (noItem item rest)⟩,
        fun _ => rfl⟩
    · rw [isRead, VheaderItem.valueFor]
      by_cases same : key = item.key
      · rw [if_pos same]
        refine ⟨fun _ => ⟨fun _ _ => lies _, fun other behind split items rest' _ _ others => ?_⟩,
          fun _ => rfl⟩
        obtain ⟨rfl, rfl⟩ := item_unique split
        exact absurd same.symm (others item mem_cons_self)
      · rw [if_neg same]
        rw [length_append] at position
        refine (ih (by omega)).trans ⟨fun onward => ⟨fun _ _ => lies _, ?_⟩,
          fun all items rest' split short others => ?_⟩
        · intro other behind split items rest' splitLater short others
          obtain ⟨rfl, rfl⟩ := item_unique split
          rw [length_cons] at short ⊢
          have later := onward items rest' splitLater (by omega) fun other member => others other
            (mem_cons_of_mem _ member)
          simpa using later
        · have later := all.2 item rest rfl items rest' split (by rw [length_cons]; omega)
            (forall_mem_cons.mpr ⟨Ne.symm same, others⟩)
          simpa using later
    · rw [isRead]
      have noItem : ∀ item rest,
          itemKey.terminated ++ 2 :: behind ≠ VheaderItem.bytes item ++ rest := by
        intro item rest same
        rcases item_lies item with ⟨value, -, bytes⟩ | ⟨value, -, bytes⟩
        · rw [bytes, append_assoc] at same
          exact absurd (List.cons.inj (terminated_unique same).2).1 (by decide)
        · rw [bytes, append_assoc, cons_append] at same
          have lengths := congrArg List.length (List.cons.inj (terminated_unique same).2).2
          rw [length_append, beBytes_length] at lengths
          omega
      have stops : (vheaderRawFindItems key total left after []).isSome = true ↔
          left = 0 ∨ behind = [] := by
        cases left with
        | zero => exact ⟨fun _ => .inl rfl, fun _ => rfl⟩
        | succ left =>
          have unread : vheaderRawReadItem key total after [] = none := rfl
          rw [vheaderRawFindItems, unread]
          by_cases whole : behind = []
          · rw [whole, length_nil] at next
            have past : ¬ after < total := by
              rw [UInt16.lt_iff_toNat_lt]
              omega
            rw [if_neg past]
            exact ⟨fun _ => .inr whole, fun _ => rfl⟩
          · have positive : 0 < behind.length := length_pos_iff.mpr whole
            have onward : after < total := by
              rw [UInt16.lt_iff_toNat_lt]
              omega
            rw [if_pos onward]
            refine ⟨fun impossible => absurd impossible Bool.false_ne_true, ?_⟩
            rintro (impossible | empty)
            · cases impossible
            · exact absurd empty whole
      refine stops.trans ⟨fun ends => ⟨fun _ _ => itemLies_iff.mpr
        ⟨fun impossible => absurd impossible (by decide), fun _ => .inr ⟨different, ?_⟩⟩,
        fun item rest same => absurd same (noItem item rest)⟩, fun all => ?_⟩
      · exact ends.imp_left fun last => by rw [last]; rfl
      · rcases (itemLies_iff.mp (all.1 (Nat.succ_pos left) fun _ member =>
          absurd member not_mem_nil)).2 rfl with room | ⟨-, ends⟩
        · omega
        · exact ends.imp_left fun last => by simpa using last.symm

end Declared

/-! ## The bounds -/

/-- The number of items that a buffer announces. -/
def announcedNum (buffer : List UInt8) : UInt16 := UInt16.ofNat (beNat ((buffer.drop 2).take 2))

/-- The bytes that a buffer declares as its header. -/
def declaredBytes (buffer : List UInt8) : List UInt8 := buffer.take (announcedTotal buffer).toNat

/-- A reader gives the same on every buffer that has the bytes that one declares. -/
def DependsOnDeclared {R : Type} (reader : List UInt8 → Option R) (buffer : List UInt8) : Prop :=
  ∃ result, ∀ other, other.take (announcedTotal buffer).toNat = declaredBytes buffer →
    reader other = some result

/-- `vheader_decompose` of a buffer stays in the bytes that are declared: the items that it accepts
lie there, and the result depends on nothing else. -/
structure DecomposeBounded (buffer : List UInt8) : Prop where
  within : ∀ num vheader, vheaderDecompose buffer buffer.length = some (.ok (num, vheader)) →
    (announcedTotal buffer).toNat ≤ buffer.length ∧
    ∃ (items : List VheaderItem) (rest : List UInt8),
    (declaredBytes buffer).drop 4 = items.flatMap (·.bytes) ++ rest ∧ items.length = num.toNat ∧
    vheader = setItems items (vheaderInit num 5)
  same : DependsOnDeclared (fun other => vheaderDecompose other other.length) buffer

/-- `vheader_raw_find_key` of a buffer stays in the bytes that are declared. -/
structure RawFindBounded (key : CString) (buffer : List UInt8) : Prop where
  within : ∀ value, vheaderRawFindKey key buffer buffer.length = some (.ok value) →
    (announcedTotal buffer).toNat ≤ buffer.length ∧
    ∃ (front : List VheaderItem) (item : VheaderItem) (rest : List UInt8),
    (declaredBytes buffer).drop 4 = (front ++ [item]).flatMap (·.bytes) ++ rest ∧ item.key = key ∧
    item.value = value
  same : DependsOnDeclared (fun other => vheaderRawFindKey key other other.length) buffer

/-- The buffer is shorter than it declares, or every item that `vheader_decompose` comes to on the
declared bytes ends. -/
def DecomposeEnclosed (buffer : List UInt8) : Prop :=
  if buffer.length < (announcedTotal buffer).toNat then 4 ≤ buffer.length
  else 4 ≤ (announcedTotal buffer).toNat ∧ ∀ (items : List VheaderItem) rest,
    (declaredBytes buffer).drop 4 = items.flatMap (·.bytes) ++ rest →
    items.length < (announcedNum buffer).toNat → rest ≠ [] → ItemEnds (announcedTotal buffer) rest

/-- The buffer is shorter than it declares, or every item that `vheader_raw_find_key` comes to lies
on the declared bytes. -/
def RawFindEnclosed (key : CString) (buffer : List UInt8) : Prop :=
  if buffer.length < (announcedTotal buffer).toNat then 2 ≤ buffer.length
  else 4 ≤ (announcedTotal buffer).toNat ∧ ∀ (items : List VheaderItem) rest,
    (declaredBytes buffer).drop 4 = items.flatMap (·.bytes) ++ rest →
    items.length < (announcedNum buffer).toNat → (∀ item ∈ items, item.key ≠ key) →
    ItemLies key (items.length + 1 = (announcedNum buffer).toNat) rest

section Bounds

variable {buffer : List UInt8} {key : CString} {R : Type} {reader : List UInt8 → Option R}

/-- The declared bytes are as many as announced. -/
theorem declaredBytes_length (whole : (announcedTotal buffer).toNat ≤ buffer.length) :
    (declaredBytes buffer).length = (announcedTotal buffer).toNat := by
  rw [declaredBytes, length_take, Nat.min_eq_left whole]

/-- The declared bytes are the lengths, and what lies behind them. -/
theorem declaredBytes_eq (whole : (announcedTotal buffer).toNat ≤ buffer.length)
    (four : 4 ≤ (announcedTotal buffer).toNat) :
    declaredBytes buffer = beBytes 2 (announcedTotal buffer).toNat ++
      beBytes 2 (announcedNum buffer).toNat ++ (declaredBytes buffer).drop 4 := by
  obtain ⟨a, b, c, d, rest, rfl⟩ : ∃ a b c d rest, buffer = a :: b :: c :: d :: rest := by
    rcases buffer with _ | ⟨a, _ | ⟨b, _ | ⟨c, _ | ⟨d, rest⟩⟩⟩⟩
    all_goals first | exact ⟨_, _, _, _, _, rfl⟩ |
      (simp only [length_nil, length_cons] at whole; omega)
  have pair : ∀ first second : UInt8,
      beBytes 2 (UInt16.ofNat (beNat [first, second])).toNat = [first, second] := by
    intro first second
    have small := beNat_lt [first, second]
    rw [UInt16.toNat_ofNat', Nat.mod_eq_of_lt (by simpa using small)]
    exact beBytes_beNat [first, second]
  have total : beBytes 2 (announcedTotal (a :: b :: c :: d :: rest)).toNat = [a, b] := pair a b
  have num : beBytes 2 (announcedNum (a :: b :: c :: d :: rest)).toNat = [c, d] := pair c d
  obtain ⟨less, isTotal⟩ : ∃ less, (announcedTotal (a :: b :: c :: d :: rest)).toNat = less + 4 :=
    ⟨(announcedTotal (a :: b :: c :: d :: rest)).toNat - 4, by omega⟩
  rw [total, num, declaredBytes, isTotal]
  rfl

/-- Both readers on a buffer that has the declared bytes. -/
theorem readers_declared (whole : (announcedTotal buffer).toNat ≤ buffer.length)
    (four : 4 ≤ (announcedTotal buffer).toNat) (more : List UInt8) :
    vheaderDecompose (declaredBytes buffer ++ more) (declaredBytes buffer ++ more).length =
      (vheaderDecomposeItems (announcedTotal buffer) (announcedNum buffer).toNat 4
      ((declaredBytes buffer).drop 4 ++ more) (vheaderInit (announcedNum buffer) 5)).map
      (·.map (announcedNum buffer, ·)) ∧
      ∀ key, vheaderRawFindKey key (declaredBytes buffer ++ more)
        (declaredBytes buffer ++ more).length = vheaderRawFindItems key (announcedTotal buffer)
        (announcedNum buffer).toNat 0 ((declaredBytes buffer).drop 4 ++ more) := by
  have length := declaredBytes_length whole
  have room : ¬ ((declaredBytes buffer ++ more).length : Int) < (announcedTotal buffer).toNat := by
    rw [length_append]
    omega
  have readers := readers_of_lengths (announcedTotal buffer) (announcedNum buffer)
    ((declaredBytes buffer).drop 4 ++ more) (declaredBytes buffer ++ more).length room
  rwa [← append_assoc, ← declaredBytes_eq whole four] at readers

/-- The buffers that have the declared bytes. -/
theorem dependsOnDeclared_iff (whole : (announcedTotal buffer).toNat ≤ buffer.length) :
    DependsOnDeclared reader buffer ↔
    ∃ result, ∀ more, reader (declaredBytes buffer ++ more) = some result := by
  have length := declaredBytes_length whole
  constructor
  · rintro ⟨result, same⟩
    exact ⟨result, fun more => same _ (take_left' length)⟩
  · rintro ⟨result, same⟩
    refine ⟨result, fun other agrees => ?_⟩
    rw [← take_append_drop (announcedTotal buffer).toNat other, agrees]
    exact same _

/-- Nothing but the buffer itself has bytes that it declares and does not have. -/
theorem dependsOnDeclared_short (short : buffer.length < (announcedTotal buffer).toNat) :
    DependsOnDeclared reader buffer ↔ ∃ result, reader buffer = some result := by
  have alone : declaredBytes buffer = buffer := take_of_length_le (Nat.le_of_lt short)
  constructor
  · rintro ⟨result, same⟩
    exact ⟨result, same buffer rfl⟩
  · rintro ⟨result, same⟩
    refine ⟨result, fun other agrees => ?_⟩
    have lengths := congrArg List.length agrees
    rw [alone, length_take] at lengths
    rw [take_of_length_le (by omega), alone] at agrees
    rwa [agrees]

/-- Fewer bytes than announced are refused. -/
theorem decompose_short (short : buffer.length < (announcedTotal buffer).toNat) :
    vheaderDecompose buffer buffer.length = if 4 ≤ buffer.length then
    some (.error (-99)) else none := by
  rcases buffer with _ | ⟨a, _ | ⟨b, _ | ⟨c, _ | ⟨d, rest⟩⟩⟩⟩
  · rfl
  · rfl
  · rfl
  · rfl
  · have fails : ((a :: b :: c :: d :: rest).length : Int) < (UInt16.ofNat (beNat [a, b])).toNat :=
      Int.ofNat_lt.mpr short
    rw [vheaderDecompose, if_pos fails, if_pos (by simp)]

/-- The other reader refuses them, too. -/
theorem rawFindKey_short (short : buffer.length < (announcedTotal buffer).toNat) (key : CString) :
    vheaderRawFindKey key buffer buffer.length = if 2 ≤ buffer.length then
    some (.error (-99)) else none := by
  rcases buffer with _ | ⟨a, _ | ⟨b, rest⟩⟩
  · rfl
  · rfl
  · have fails : ((a :: b :: rest).length : Int) < (UInt16.ofNat (beNat [a, b])).toNat :=
      Int.ofNat_lt.mpr short
    exact (if_pos fails).trans (if_pos (by simp)).symm

/-- Where fewer bytes are declared than the lengths take, they are not enough for a reader. -/
theorem readers_few (whole : (announcedTotal buffer).toNat ≤ buffer.length)
    (few : (announcedTotal buffer).toNat < 4) (key : CString) :
    vheaderDecompose (declaredBytes buffer) (declaredBytes buffer).length = none ∧
    vheaderRawFindKey key (declaredBytes buffer) (declaredBytes buffer).length = none := by
  have length := declaredBytes_length whole
  have front : 2 ≤ (announcedTotal buffer).toNat →
      announcedTotal (declaredBytes buffer) = announcedTotal buffer := by
    intro two
    rw [announcedTotal, declaredBytes, take_take, Nat.min_eq_left two]
    rfl
  rw [← length] at few front
  generalize declaredBytes buffer = declared at length few front
  rcases declared with _ | ⟨a, _ | ⟨b, _ | ⟨c, _ | ⟨d, rest⟩⟩⟩⟩
  · exact ⟨rfl, rfl⟩
  · exact ⟨rfl, rfl⟩
  · have fits : ¬ (([a, b] : List UInt8).length : Int) < (announcedTotal [a, b]).toNat := by
      rw [front (Nat.le_refl 2), ← length]
      exact Int.lt_irrefl _
    exact ⟨rfl, if_neg fits⟩
  · have fits : ¬ (([a, b, c] : List UInt8).length : Int) < (announcedTotal [a, b, c]).toNat := by
      rw [front (Nat.le_succ 2), ← length]
      exact Int.lt_irrefl _
    exact ⟨rfl, if_neg fits⟩
  · simp only [length_cons] at few
    omega

/-- `vheader_decompose` stays inside exactly on enclosed items. -/
theorem decomposeBounded_iff : DecomposeBounded buffer ↔ DecomposeEnclosed buffer := by
  have key : CString := .empty
  unfold DecomposeEnclosed
  by_cases short : buffer.length < (announcedTotal buffer).toNat
  · rw [if_pos short]
    have result := decompose_short short
    constructor
    · rintro ⟨-, same⟩
      obtain ⟨answer, same⟩ := (dependsOnDeclared_short short).mp same
      by_contra few
      rw [result, if_neg few] at same
      cases same
    · intro four
      rw [if_pos four] at result
      refine ⟨fun num vheader accepted => ?_,
        (dependsOnDeclared_short short).mpr ⟨.error (-99), result⟩⟩
      rw [result] at accepted
      cases accepted
  · have whole := Nat.not_lt.mp short
    rw [if_neg short]
    have position : ∀ four : 4 ≤ (announcedTotal buffer).toNat, (4 : UInt16).toNat +
        ((declaredBytes buffer).drop 4).length = (announcedTotal buffer).toNat := by
      intro four
      rw [length_drop, declaredBytes_length whole, show (4 : UInt16).toNat = 4 from rfl]
      omega
    constructor
    · rintro ⟨-, same⟩
      obtain ⟨answer, same⟩ := (dependsOnDeclared_iff whole).mp same
      have alone := same []
      have four : 4 ≤ (announcedTotal buffer).toNat := by
        by_contra few
        rw [append_nil] at alone
        rw [(readers_few whole (Nat.not_le.mp few) key).1] at alone
        cases alone
      refine ⟨four,
        (decomposeItems_isSome_iff (position four) (vheaderInit (announcedNum buffer) 5)).mp ?_⟩
      rw [(readers_declared whole four []).1, append_nil] at alone
      obtain ⟨walked, isWalked, -⟩ := map_eq_some_iff.mp alone
      rw [isWalked]
      rfl
    · rintro ⟨four, ends⟩
      obtain ⟨walked, isWalked⟩ := isSome_iff_exists.mp
        ((decomposeItems_isSome_iff (position four) (vheaderInit (announcedNum buffer) 5)).mpr ends)
      have all : ∀ more, vheaderDecompose (declaredBytes buffer ++ more)
          (declaredBytes buffer ++ more).length = some (walked.map (announcedNum buffer, ·)) := by
        intro more
        rw [(readers_declared whole four more).1, decomposeItems_append isWalked more]
        rfl
      refine ⟨fun num vheader accepted => ⟨whole, ?_⟩, (dependsOnDeclared_iff whole).mpr ⟨_, all⟩⟩
      have here := all (buffer.drop (announcedTotal buffer).toNat)
      rw [declaredBytes, take_append_drop, accepted] at here
      cases walked with
      | error error => cases here
      | ok table =>
        obtain ⟨rfl, rfl⟩ := Prod.mk.inj (Except.ok.inj (some.inj here))
        obtain ⟨items, more, length, lies, -, set⟩ := decomposeItems_ok isWalked
        exact ⟨items, more, lies, length, set⟩

/-- On declared bytes, what `vheader_raw_find_key` finds lies there. -/
theorem rawFindItems_ok {total offset : UInt16} {p : List UInt8} {left : Nat} {value : VheaderValue}
    (position : offset.toNat + p.length + 4 = total.toNat)
    (found : vheaderRawFindItems key total left offset p = some (.ok value)) :
    ∃ (front : List VheaderItem) (item : VheaderItem) (rest : List UInt8),
    p = (front ++ [item]).flatMap (·.bytes) ++ rest ∧ item.key = key ∧ item.value = value := by
  induction left generalizing offset p with
  | zero => cases found
  | succ left ih =>
    have inside : offset < total := by
      rw [UInt16.lt_iff_toNat_lt]
      omega
    rw [vheaderRawFindItems, if_pos inside] at found
    rcases @rawReadItem_declared total offset p key position with
      ⟨unread, -⟩ | ⟨error, isRead, -, -⟩ | ⟨item, rest, rfl, -, isRead, next⟩ |
        ⟨itemKey, behind, after, rfl, -, -, isRead, -⟩
    · rw [unread] at found
      cases found
    · rw [isRead] at found
      cases found
    · rw [isRead, VheaderItem.valueFor] at found
      by_cases same : key = item.key
      · rw [if_pos same] at found
        exact ⟨[], item, rest, by simp, same.symm, Except.ok.inj (some.inj found)⟩
      · rw [if_neg same] at found
        rw [length_append] at position
        obtain ⟨front, last, behind, rfl, isKey, holds⟩ := ih (by omega) found
        exact ⟨item :: front, last, behind, by simp, isKey, holds⟩
    · rw [isRead] at found
      change vheaderRawFindItems key total left after [] = some (.ok value) at found
      cases left with
      | zero => cases found
      | succ left =>
        have unread : vheaderRawReadItem key total after [] = none := rfl
        rw [vheaderRawFindItems, unread] at found
        split at found <;> cases found

/-- So does `vheader_raw_find_key`. -/
theorem rawFindBounded_iff : RawFindBounded key buffer ↔ RawFindEnclosed key buffer := by
  unfold RawFindEnclosed
  by_cases short : buffer.length < (announcedTotal buffer).toNat
  · rw [if_pos short]
    have result := rawFindKey_short short key
    constructor
    · rintro ⟨-, same⟩
      obtain ⟨answer, same⟩ := (dependsOnDeclared_short short).mp same
      by_contra few
      rw [result, if_neg few] at same
      cases same
    · intro two
      rw [if_pos two] at result
      refine ⟨fun value found => ?_, (dependsOnDeclared_short short).mpr ⟨.error (-99), result⟩⟩
      rw [result] at found
      cases found
  · have whole := Nat.not_lt.mp short
    rw [if_neg short]
    have position : ∀ four : 4 ≤ (announcedTotal buffer).toNat, (0 : UInt16).toNat +
        ((declaredBytes buffer).drop 4).length + 4 = (announcedTotal buffer).toNat := by
      intro four
      rw [length_drop, declaredBytes_length whole, UInt16.toNat_zero]
      omega
    constructor
    · rintro ⟨-, same⟩
      obtain ⟨answer, same⟩ := (dependsOnDeclared_iff whole).mp same
      have alone := same []
      have four : 4 ≤ (announcedTotal buffer).toNat := by
        by_contra few
        rw [append_nil] at alone
        rw [(readers_few whole (Nat.not_le.mp few) key).2] at alone
        cases alone
      refine ⟨four, (rawFindItems_isSome_iff (position four)).mp ?_⟩
      rw [(readers_declared whole four []).2, append_nil] at alone
      rw [alone]
      rfl
    · rintro ⟨four, lies⟩
      obtain ⟨walked, isWalked⟩ :=
        isSome_iff_exists.mp ((rawFindItems_isSome_iff (position four)).mpr lies)
      have all : ∀ more, vheaderRawFindKey key (declaredBytes buffer ++ more)
          (declaredBytes buffer ++ more).length = some walked := by
        intro more
        rw [(readers_declared whole four more).2, rawFindItems_append isWalked more]
      refine ⟨fun value found => ⟨whole, ?_⟩, (dependsOnDeclared_iff whole).mpr ⟨_, all⟩⟩
      have here := all (buffer.drop (announcedTotal buffer).toNat)
      rw [declaredBytes, take_append_drop, found] at here
      obtain rfl := some.inj here
      exact rawFindItems_ok (position four) isWalked

end Bounds

/-- Each reader stays in the declared bytes of a buffer exactly where these enclose what it comes
to. -/
theorem bounded_iff_enclosed (buffer : List UInt8) :
    (DecomposeBounded buffer ↔ DecomposeEnclosed buffer) ∧
    ∀ key, RawFindBounded key buffer ↔ RawFindEnclosed key buffer :=
  ⟨decomposeBounded_iff, fun _ => rawFindBounded_iff⟩

/-- One key with a word, of which the length takes in the first byte. -/
def cutWord (last : UInt8) : List UInt8 := [0, 8, 0, 1, 0x6B, 0, 2, 0, 0, 0, last]

/-- `vheader_decompose` refuses it, `vheader_raw_find_key` accepts the whole word. -/
theorem bounded_cutWord_fails :
    vheaderDecompose (cutWord 7) (cutWord 7).length = some (.error (-60)) ∧
    vheaderRawFindKey (.ofBytes [0x6B]) (cutWord 7) (cutWord 7).length = some (.ok (.iVal32 7)) ∧
    ¬ RawFindBounded (.ofBytes [0x6B]) (cutWord 7) := by
  refine ⟨by decide, by decide, ?_⟩
  rintro ⟨-, result, same⟩
  have seven := same (cutWord 7) rfl
  have nine := same (cutWord 9) (by decide)
  have different : vheaderRawFindKey (.ofBytes [0x6B]) (cutWord 7) (cutWord 7).length ≠
    vheaderRawFindKey (.ofBytes [0x6B]) (cutWord 9) (cutWord 9).length := by decide
  exact different (seven.trans nine.symm)

end Idrm.Ilink
