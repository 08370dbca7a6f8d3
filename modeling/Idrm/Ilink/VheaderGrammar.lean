import Idrm.Ilink.VheaderBounds

/-!
# The grammar of a variable header

Where every string that is scanned ends, and no count overflows, `vheader_decompose` accepts
exactly the headers that are well formed: as many items as announced fill the declared bytes. A
header that is refused leaves nothing in the table.
-/

namespace Idrm.Ilink

open Idrm.Lib Option List

/-! ## The table that is left -/

/-- A header after `vheader_destroy`: every field is zero. -/
def vheaderEmpty : VheaderTable := ⟨⟨[]⟩, 0⟩

/-- `vheader_decompose` with the header it is given: the code it returns, and the header it leaves.
A header that is too long is not touched, and every other error destroys the table, whatever
it holds by then. -/
def vheaderDecomposeInto (vheader : VheaderTable) (buffer : List UInt8) (vheaderLen : Int) :
    Option (Int × VheaderTable) :=
  match buffer with
  | a :: b :: c :: d :: p =>
    let total := UInt16.ofNat (beNat [a, b])
    let num := UInt16.ofNat (beNat [c, d])
    if vheaderLen < total.toNat then some (-99, vheader)
    else (vheaderDecomposeItems total num.toNat 4 p (vheaderInit num 5)).map fun
      | .ok filled => (num.toNat, filled)
      | .error error => (error, vheaderEmpty)
  | _ => none

/-- The code and the table are those of `vheader_decompose`. -/
theorem decomposeInto_decompose (vheader : VheaderTable) (buffer : List UInt8) (vheaderLen : Int) :
    (∀ num filled, vheaderDecompose buffer vheaderLen = some (.ok (num, filled)) →
      vheaderDecomposeInto vheader buffer vheaderLen = some ((num.toNat : Int), filled)) ∧
    ∀ error, vheaderDecompose buffer vheaderLen = some (.error error) →
    ∃ left, vheaderDecomposeInto vheader buffer vheaderLen = some (error, left) ∧
    (error ≠ -99 → left = vheaderEmpty) := by
  rcases buffer with _ | ⟨a, _ | ⟨b, _ | ⟨c, _ | ⟨d, p⟩⟩⟩⟩
  all_goals try exact ⟨fun _ _ impossible => (by cases impossible),
    fun _ impossible => (by cases impossible)⟩
  rw [vheaderDecompose, vheaderDecomposeInto]
  split
  · refine ⟨fun num filled impossible => (by cases impossible), fun error fails => ?_⟩
    obtain rfl := Except.error.inj (some.inj fails)
    exact ⟨vheader, rfl, fun different => absurd rfl different⟩
  · constructor
    · intro num filled accepts
      obtain ⟨result, walked, accepts⟩ := map_eq_some_iff.mp accepts
      cases result with
      | error error => cases accepts
      | ok table =>
        obtain ⟨rfl, rfl⟩ := Prod.mk.inj (Except.ok.inj accepts)
        rw [walked]
        rfl
    · intro error fails
      obtain ⟨result, walked, fails⟩ := map_eq_some_iff.mp fails
      cases result with
      | ok table => cases fails
      | error other =>
        obtain rfl := Except.error.inj fails
        exact ⟨vheaderEmpty, by rw [walked]; rfl, fun _ => rfl⟩

/-! ## What is scanned -/

/-- The strings that a round scans end, and the count stays in 16 bits over it. -/
def FrontScans (total : UInt16) (position : Nat) (p : List UInt8) : Prop :=
  ∃ key behind, p = CString.terminated key ++ behind ∧ position + key.bytes.length + 1 < 65536 ∧
    ∀ type value, behind = type :: value → position + key.bytes.length + 2 < total.toNat →
      (type = 3 → ∃ string rest, value = CString.terminated string ++ rest ∧
        position + key.bytes.length + 2 + string.bytes.length + 1 < 65536) ∧
      (type = 2 → position + key.bytes.length + 2 + 4 < 65536)

/-- So do those of all rounds from some position on. -/
def ScansFrom (total : UInt16) (left position : Nat) (p : List UInt8) : Prop :=
  ∀ (items : List VheaderItem) rest, p = items.flatMap (·.bytes) ++ rest → items.length < left →
    position + (items.flatMap (·.bytes)).length < total.toNat →
    FrontScans total (position + (items.flatMap (·.bytes)).length) rest

/-- Every string that `vheader_decompose` scans is terminated, and its count stays below 65536. -/
def ScansEnd (buffer : List UInt8) (len : Int) : Prop :=
  (announcedTotal buffer).toNat ≤ len →
    ScansFrom (announcedTotal buffer) (announcedNum buffer).toNat 4 (buffer.drop 4)

section Grammar

variable {total offset : UInt16} {p : List UInt8} {position left : Nat}
  {buffer : List UInt8} {len : Int}

/-- A round reads the item at the front, or refuses what is not one within the total. -/
theorem readItem_scanned (isOffset : offset.toNat = position)
    (room : total.toNat ≤ position + p.length) (scans : FrontScans total position p) :
    (∃ (item : VheaderItem) (rest : List UInt8), p = item.bytes ++ rest ∧
      vheaderReadItem total offset p = some (.ok (item, item.next offset, rest)) ∧
      (item.next offset).toNat = position + item.bytes.length) ∨
    ∃ error, error < 0 ∧ error ≠ -99 ∧ vheaderReadItem total offset p = some (.error error) ∧
    ∀ (item : VheaderItem) rest, p = item.bytes ++ rest →
    total.toNat < position + item.bytes.length := by
  obtain ⟨key, behind, rfl, keyCount, scans⟩ := scans
  have length : (key.terminated ++ behind).length = key.bytes.length + 1 + behind.length := by
    rw [length_append, CString.terminated, length_append, length_singleton]
  have afterKey :
      (offset + UInt16.ofNat (key.bytes.length + 1)).toNat = position + (key.bytes.length + 1) := by
    rw [toNat_add_ofNat (by omega), isOffset]
  have readKey : CString.read (key.terminated ++ behind) = some (key, behind) :=
    CString.read_eq_some_iff.mpr rfl
  have small := total.toNat_lt
  -- An item at the front has this key.
  have sameKey : ∀ (item : VheaderItem) rest, key.terminated ++ behind = item.bytes ++ rest →
      item.bytes.length = key.bytes.length + 1 + 1 + item.valueSize ∧ 0 < item.valueSize := by
    intro item rest same
    obtain ⟨size, positive⟩ := bytes_length item
    have isKey : key = item.key := by
      rcases item_lies item with ⟨value, -, bytes⟩ | ⟨value, -, bytes⟩
      · rw [bytes, append_assoc] at same
        exact (terminated_unique same).1
      · rw [bytes, append_assoc] at same
        exact (terminated_unique same).1
    rw [isKey]
    exact ⟨size, positive⟩
  have noItem : ∀ type value, behind = type :: value → type ≠ 3 → type ≠ 2 →
      ∀ (item : VheaderItem) rest, key.terminated ++ behind ≠ item.bytes ++ rest := by
    rintro type value rfl notString notLong item rest same
    rcases item_lies item with ⟨word, -, bytes⟩ | ⟨word, -, bytes⟩
    · rw [bytes, append_assoc] at same
      exact notString (List.cons.inj (terminated_unique same).2).1
    · rw [bytes, append_assoc] at same
      exact notLong (List.cons.inj (terminated_unique same).2).1
  by_cases inKey : total.toNat ≤ position + key.bytes.length + 1
  · refine .inr ⟨-20, by decide, by decide, ?_, fun item rest same => ?_⟩
    · unfold vheaderReadItem
      rw [readKey]
      simp only [bind_eq_bind, bind_some]
      exact if_pos (UInt16.le_iff_toNat_le.mpr (by omega))
    · obtain ⟨size, positive⟩ := sameKey item rest same
      omega
  have notKey : ¬ total ≤ offset + UInt16.ofNat (key.bytes.length + 1) := by
    rw [UInt16.le_iff_toNat_le]
    omega
  cases behind with
  | nil =>
    rw [length_nil] at length
    omega
  | cons type value =>
    rw [length_cons] at length
    have afterType : (offset + UInt16.ofNat (key.bytes.length + 1) + 1).toNat = position +
        key.bytes.length + 2 := by
      rw [UInt16.toNat_add, afterKey, UInt16.toNat_one]
      omega
    by_cases inType : total.toNat ≤ position + key.bytes.length + 2
    · refine .inr ⟨-40, by decide, by decide, ?_, fun item rest same => ?_⟩
      · unfold vheaderReadItem
        rw [readKey]
        simp only [bind_eq_bind, bind_some, if_neg notKey, List.head?_cons, tail_cons]
        exact if_pos (UInt16.le_iff_toNat_le.mpr (by omega))
      · obtain ⟨size, positive⟩ := sameKey item rest same
        omega
    have notType : ¬ total ≤ offset + UInt16.ofNat (key.bytes.length + 1) + 1 := by
      rw [UInt16.le_iff_toNat_le]
      omega
    obtain ⟨strings, words⟩ := scans type value rfl (Nat.lt_of_not_le inType)
    -- A value lies there, and its end is compared with the total.
    have decides :
        ∀ (item : VheaderItem) rest, key.terminated ++ type :: value = item.bytes ++ rest →
        (item.next offset).toNat = position + item.bytes.length →
        (∃ (item : VheaderItem) (rest : List UInt8),
        key.terminated ++ type :: value = item.bytes ++ rest ∧ vheaderReadItem total offset
        (key.terminated ++ type :: value) = some (.ok (item, item.next offset, rest)) ∧
        (item.next offset).toNat = position + item.bytes.length) ∨ ∃ error, error < 0 ∧ error ≠
        -99 ∧ vheaderReadItem total offset (key.terminated ++ type :: value) = some (.error error) ∧
        ∀ (item : VheaderItem) rest, key.terminated ++ type :: value = item.bytes ++ rest →
        total.toNat < position + item.bytes.length := by
      intro item rest same next
      have isKey : item.key = key := by
        rcases item_lies item with ⟨word, -, bytes⟩ | ⟨word, -, bytes⟩
        · rw [bytes, append_assoc] at same
          exact (terminated_unique same).1.symm
        · rw [bytes, append_assoc] at same
          exact (terminated_unique same).1.symm
      rw [same, readItem_eq, VheaderItem.afterKey, isKey, if_neg notKey, if_neg notType]
      by_cases past : total < item.next offset
      · rw [if_pos past]
        rw [UInt16.lt_iff_toNat_lt, next] at past
        refine .inr ⟨item.overrun, ?_, ?_, rfl, fun other behind lies => ?_⟩
        · unfold VheaderItem.overrun
          split <;> decide
        · unfold VheaderItem.overrun
          split <;> decide
        · obtain ⟨rfl, -⟩ := item_unique lies
          exact past
      · rw [if_neg past]
        exact .inl ⟨item, rest, rfl, rfl, next⟩
    by_cases isString : type = 3
    · obtain ⟨string, rest, lies, count⟩ := strings isString
      have bytes : key.terminated ++ type :: value =
          VheaderItem.bytes ⟨key, .sVal string, VheaderValue.noConfusion⟩ ++ rest := by
        rw [isString, lies]
        simp [VheaderItem.bytes, vheaderNodeBytes, VheaderValue.type]
      refine decides _ rest bytes ?_
      obtain ⟨size, -⟩ := bytes_length ⟨key, .sVal string, VheaderValue.noConfusion⟩
      rw [VheaderItem.next, VheaderItem.afterKey, size]
      change (offset + UInt16.ofNat (key.bytes.length + 1) + 1 + UInt16.ofNat (string.bytes.length +
        1)).toNat = position + (key.bytes.length + 1 + 1 + (string.bytes.length + 1))
      rw [toNat_add_ofNat (by omega), afterType]
      omega
    by_cases isLong : type = 2
    · have count := words isLong
      by_cases cut : value.length < 4
      · refine .inr ⟨-60, by decide, by decide, ?_, fun item rest same => ?_⟩
        · have afterValue : (offset + UInt16.ofNat (key.bytes.length + 1) + 1 + 4).toNat =
              position + key.bytes.length + 2 + 4 := by
            rw [UInt16.toNat_add, afterType, show (4 : UInt16).toNat = 4 from rfl]
            omega
          unfold vheaderReadItem
          rw [readKey]
          simp only [bind_eq_bind, bind_some, if_neg notKey, List.head?_cons, tail_cons,
            if_neg notType, if_neg isString, if_pos isLong]
          exact if_pos (UInt16.lt_iff_toNat_lt.mpr (by omega))
        · rcases item_lies item with ⟨word, -, bytes⟩ | ⟨word, -, bytes⟩
          · rw [bytes, append_assoc] at same
            exact absurd (List.cons.inj (terminated_unique same).2).1 isString
          · rw [bytes, append_assoc, cons_append] at same
            have lengths := congrArg List.length (List.cons.inj (terminated_unique same).2).2
            rw [length_append, beBytes_length] at lengths
            omega
      · obtain ⟨⟨word, rest⟩, readValue⟩ :=
          isSome_iff_exists.mp (readLong_isSome_iff.mpr (Nat.le_of_not_lt cut))
        have bytes : key.terminated ++ type :: value =
            VheaderItem.bytes ⟨key, .iVal32 word, VheaderValue.noConfusion⟩ ++ rest := by
          rw [isLong, readLong_eq_some_iff.mp readValue]
          simp [VheaderItem.bytes, vheaderNodeBytes, VheaderValue.type]
        refine decides _ rest bytes ?_
        obtain ⟨size, -⟩ := bytes_length ⟨key, .iVal32 word, VheaderValue.noConfusion⟩
        rw [VheaderItem.next, VheaderItem.afterKey, size]
        change (offset + UInt16.ofNat (key.bytes.length + 1) + 1 + UInt16.ofNat 4).toNat =
          position + (key.bytes.length + 1 + 1 + 4)
        rw [toNat_add_ofNat (by omega), afterType]
        omega
    · refine .inr ⟨-100, by decide, by decide, ?_,
        fun item rest same => absurd same (noItem type value rfl isString isLong item rest)⟩
      unfold vheaderReadItem
      rw [readKey]
      simp only [bind_eq_bind, bind_some, if_neg notKey, List.head?_cons, tail_cons, if_neg notType,
        if_neg isString, if_neg isLong]

theorem ScansFrom.next {item : VheaderItem}
    {rest : List UInt8} (scans : ScansFrom total (left + 1) position (item.bytes ++ rest)) :
    ScansFrom total left (position + item.bytes.length) rest := by
  intro items behind split short inside
  have size : (List.flatMap (·.bytes) (item :: items)).length = item.bytes.length +
      (items.flatMap (·.bytes)).length := by
    rw [flatMap_cons, length_append]
  rw [Nat.add_assoc, ← size] at inside ⊢
  refine scans (item :: items) behind ?_ (by rw [length_cons]; omega) inside
  rw [flatMap_cons, append_assoc, split]

/-- The loop accepts as many items as there are rounds left, if they end at the total. -/
theorem decomposeItems_scanned (isOffset : offset.toNat = position)
    (room : total.toNat ≤ position + p.length)
    (scans : ScansFrom total left position p) (vheader : VheaderTable) :
    (∃ (items : List VheaderItem) (rest : List UInt8), items.length = left ∧ p =
      items.flatMap (·.bytes) ++ rest ∧ position + (items.flatMap (·.bytes)).length = total.toNat ∧
      vheaderDecomposeItems total left offset p vheader = some (.ok (setItems items vheader))) ∨
    ∃ error, error < 0 ∧
    error ≠ -99 ∧ vheaderDecomposeItems total left offset p vheader = some (.error error) ∧
    ∀ (items : List VheaderItem) rest, p = items.flatMap (·.bytes) ++ rest → items.length = left →
    position + (items.flatMap (·.bytes)).length ≠ total.toNat := by
  induction left generalizing offset position p vheader with
  | zero =>
    by_cases ends : offset = total
    · refine .inl ⟨[], p, rfl, rfl, ?_, ?_⟩
      · rw [← ends]
        exact isOffset.symm
      · rw [vheaderDecomposeItems, if_neg (not_not.mpr ends)]
        rfl
    · refine .inr ⟨-80, by decide, by decide, by rw [vheaderDecomposeItems, if_pos ends],
        fun items rest _ none ends' => ?_⟩
      rw [length_eq_zero_iff.mp none] at ends'
      exact ends (UInt16.toNat_inj.mp (isOffset.trans ends'))
  | succ left ih =>
    rw [vheaderDecomposeItems]
    by_cases inside : position < total.toNat
    · rw [if_pos (UInt16.lt_iff_toNat_lt.mpr (isOffset ▸ inside))]
      have front : FrontScans total position p := scans [] p rfl (Nat.succ_pos left) inside
      rcases readItem_scanned isOffset room front with ⟨item, rest, rfl, isRead, next⟩ |
        ⟨error, negative, other, isRead, noItem⟩
      · rw [isRead]
        rw [length_append] at room
        rcases ih next (by omega) scans.next (vheaderSetValue item.key item.value vheader) with
          ⟨items, behind, length, rfl, ends, walked⟩ | ⟨error, negative, other, walked, noItems⟩
        · refine .inl ⟨item :: items, behind, by rw [length_cons, length], ?_, ?_, walked⟩
          · rw [flatMap_cons, append_assoc]
          · rw [flatMap_cons, length_append]
            omega
        · refine .inr ⟨error, negative, other, walked, fun items behind split length => ?_⟩
          cases items with
          | nil => cases length
          | cons first items =>
            rw [flatMap_cons, append_assoc] at split
            obtain ⟨rfl, rfl⟩ := item_unique split
            rw [flatMap_cons, length_append]
            have later := noItems items behind rfl (Nat.succ.inj length)
            omega
      · rw [isRead]
        refine .inr ⟨error, negative, other, rfl, fun items behind split length => ?_⟩
        cases items with
        | nil => cases length
        | cons first items =>
          rw [flatMap_cons, append_assoc] at split
          have past := noItem first _ split
          rw [flatMap_cons, length_append]
          omega
    · have past : ¬ offset < total := by
        rw [UInt16.lt_iff_toNat_lt]
        omega
      rw [if_neg past]
      refine .inr ⟨-70, by decide, by decide, rfl, fun items behind split length => ?_⟩
      cases items with
      | nil => cases length
      | cons first items =>
        have size := (bytes_length first).1
        rw [flatMap_cons, length_append]
        omega

/-- A buffer holds a header of `n` items: as many as it announces, which fill the declared bytes
behind the lengths. -/
def HoldsItems (buffer : List UInt8) (items : List VheaderItem) : Prop :=
  declaredBytes buffer = buffer.take 4 ++ items.flatMap (·.bytes) ∧
    items.length = (announcedNum buffer).toNat

/-- A buffer of four bytes or more, with the bytes behind them. -/
theorem holdsItems_iff (four : 4 ≤ buffer.length)
    (whole : (announcedTotal buffer).toNat ≤ buffer.length) (items : List VheaderItem) :
    HoldsItems buffer items ↔ (∃ rest, buffer.drop 4 = items.flatMap (·.bytes) ++ rest) ∧
    4 + (items.flatMap (·.bytes)).length = (announcedTotal buffer).toNat ∧
    items.length = (announcedNum buffer).toNat := by
  have front : (buffer.take 4).length = 4 := by rw [length_take, Nat.min_eq_left four]
  constructor
  · rintro ⟨declared, length⟩
    have lengths := congrArg List.length declared
    rw [declaredBytes_length whole, length_append, front] at lengths
    refine ⟨⟨buffer.drop (announcedTotal buffer).toNat, ?_⟩, lengths.symm, length⟩
    have split := take_append_drop (announcedTotal buffer).toNat buffer
    change declaredBytes buffer ++ _ = buffer at split
    rw [declared, append_assoc] at split
    have behind := congrArg (List.drop 4) split
    rw [drop_left' front] at behind
    exact behind.symm
  · rintro ⟨⟨rest, behind⟩, total, length⟩
    refine ⟨?_, length⟩
    have split := take_append_drop 4 buffer
    rw [behind] at split
    rw [declaredBytes, ← total]
    calc buffer.take (4 + (items.flatMap (·.bytes)).length)
        = (buffer.take 4 ++ (items.flatMap (·.bytes) ++ rest)).take
          (4 + (items.flatMap (·.bytes)).length) := by rw [split]
      _ = buffer.take 4 ++ items.flatMap (·.bytes) := by
          rw [← append_assoc]
          exact take_left' (by rw [length_append, front])

/-- Where every string that is scanned ends and the count stays in 16 bits, `vheader_decompose`
accepts `n` items exactly if the header fits the length and holds the `n` items it announces;
the table then has the last value of each key. A header that is refused for another reason
than its length leaves an empty table. -/
theorem vheaderDecompose_grammar (vheader : VheaderTable)
    (four : 4 ≤ buffer.length) (room : len ≤ buffer.length) (scans : ScansEnd buffer len) :
    ∃ code left, vheaderDecomposeInto vheader buffer len = some (code, left) ∧
    (∀ n : Nat, code = n ↔ (announcedTotal buffer).toNat ≤ len ∧ (announcedNum buffer).toNat = n ∧
      ∃ items, HoldsItems buffer items) ∧ (∀ items, 0 ≤ code → HoldsItems buffer items →
      ∀ key, vheaderLookup key left = lastValue key items) ∧
    (code < 0 → code ≠ -99 → left = vheaderEmpty) := by
  obtain ⟨a, b, c, d, p, rfl⟩ : ∃ a b c d p, buffer = a :: b :: c :: d :: p := by
    rcases buffer with _ | ⟨a, _ | ⟨b, _ | ⟨c, _ | ⟨d, p⟩⟩⟩⟩
    all_goals first | exact ⟨_, _, _, _, _, rfl⟩ |
      (simp only [length_nil, length_cons] at four; omega)
  have isTotal : UInt16.ofNat (beNat [a, b]) = announcedTotal (a :: b :: c :: d :: p) := rfl
  have isNum : UInt16.ofNat (beNat [c, d]) = announcedNum (a :: b :: c :: d :: p) := rfl
  have behind : (a :: b :: c :: d :: p).drop 4 = p := rfl
  have size : (a :: b :: c :: d :: p).length = 4 + p.length := by simp only [length_cons]; omega
  rw [vheaderDecomposeInto, isTotal, isNum]
  unfold ScansEnd at scans
  generalize a :: b :: c :: d :: p = buffer at four room scans isTotal isNum behind size ⊢
  by_cases fits : len < (announcedTotal buffer).toNat
  · rw [if_pos fits]
    refine ⟨-99, vheader, rfl, fun n => ⟨fun impossible => ?_, fun accepted => ?_⟩,
      fun items impossible => ?_, fun _ other => absurd rfl other⟩
    · omega
    · omega
    · exact absurd impossible (by decide)
  rw [if_neg fits]
  have whole : (announcedTotal buffer).toNat ≤ buffer.length := by omega
  have scansFrom := scans (by omega)
  rw [behind] at scansFrom
  have start : (4 : UInt16).toNat = 4 := rfl
  rcases decomposeItems_scanned start (by omega) scansFrom
    (vheaderInit (announcedNum buffer) 5) with
    ⟨items, rest, length, split, ends, walked⟩ | ⟨error, negative, other, walked, noItems⟩
  · have holds : HoldsItems buffer items :=
      (holdsItems_iff four whole items).mpr ⟨⟨rest, by rw [behind, split]⟩, ends, length⟩
    rw [walked]
    refine ⟨_, _, rfl, fun n => ⟨fun same => ⟨by omega, by omega, items, holds⟩,
      fun accepted => by omega⟩, fun others _ holdsToo key => ?_, fun impossible => by omega⟩
    obtain ⟨⟨rest', splitToo⟩, endsToo, lengthToo⟩ := (holdsItems_iff four whole others).mp holdsToo
    rw [behind, split] at splitToo
    have one := vheaderItems_flatMap items rest
    rw [splitToo, length, ← lengthToo, vheaderItems_flatMap others rest'] at one
    rw [one, lookup_setItems]
  · rw [walked]
    refine ⟨error, vheaderEmpty, rfl, fun n => ⟨fun same => by omega, ?_⟩,
      fun items impossible => absurd impossible (by omega), fun _ _ => rfl⟩
    rintro ⟨-, -, items, holds⟩
    obtain ⟨⟨rest, split⟩, ends, length⟩ := (holdsItems_iff four whole items).mp holds
    exact absurd ends (noItems items rest (behind.symm.trans split) length)

end Grammar

/-- One string is scanned, and the word behind it is whole. -/
theorem scansEnd_singleKey : ScansEnd singleKey 11 := by
  intro _ items rest split short _
  obtain rfl := length_eq_zero_iff.mp (Nat.lt_one_iff.mp short)
  refine ⟨.ofBytes [0x6B], [2, 0, 0, 0, 7], split.symm, by decide, ?_⟩
  intro type value same _
  obtain ⟨rfl, rfl⟩ := List.cons.inj same
  exact ⟨fun impossible => absurd impossible (by decide), fun _ => by decide⟩

theorem vheaderDecompose_grammar_singleKey :
    ∃ code left, vheaderDecomposeInto vheaderEmpty singleKey 11 = some (code, left) ∧
    (∀ n : Nat, code = n ↔ (announcedTotal singleKey).toNat ≤ (11 : Int) ∧
      (announcedNum singleKey).toNat = n ∧ ∃ items, HoldsItems singleKey items) ∧ (∀ items,
      0 ≤ code → HoldsItems singleKey items → ∀ key, vheaderLookup key left = lastValue key items) ∧
    (code < 0 → code ≠ -99 → left = vheaderEmpty) :=
  vheaderDecompose_grammar vheaderEmpty (by decide) (by decide) scansEnd_singleKey

/-- No items in no bytes: the four bytes of the lengths must be counted too. -/
theorem vheaderDecompose_grammar_fails :
    ScansEnd [0, 0, 0, 0] 4 ∧ (announcedTotal [0, 0, 0, 0]).toNat ≤ (4 : Int) ∧
    (∃ items : List VheaderItem, items.length = (announcedNum [0, 0, 0, 0]).toNat ∧
      (declaredBytes [0, 0, 0, 0]).drop 4 = items.flatMap (·.bytes)) ∧
    vheaderDecomposeInto vheaderEmpty [0, 0, 0, 0] 4 = some (-80, vheaderEmpty) := by
  refine ⟨fun _ items rest _ short => ?_, by decide, ⟨[], rfl, rfl⟩, by decide⟩
  exact absurd short (Nat.not_lt_zero _)

end Idrm.Ilink
