import Mathlib.Data.List.Basic
import Mathlib.Tactic.Ring

/-!
# Bytes, wire integers and memory blocks

Wire formats write integers most significant byte first; `beBytes` is that
encoding at a fixed width and `beNat` reads it back. Decoders which keep their
partial value in a machine word shift one byte in at a time; `shiftInByte_toNat`
and `shiftInBytes_toNat` connect that accumulator to `beNat`.

A memory block is a list of cells. `store` and `storeAll` are the checked
writes: an index outside the block is a fault, never a silent extension.
-/

namespace Idrm.Lib

open List

/-! ## Big-endian integers -/

/-- The `width` low-order bytes of `value`, most significant first. -/
def beBytes : Nat → Nat → List UInt8
  | 0, _ => []
  | width + 1, value => UInt8.ofNat (value / 256 ^ width) :: beBytes width value

/-- The number a big-endian byte sequence denotes. -/
def beNat (bytes : List UInt8) : Nat :=
  bytes.foldl (fun value byte => value * 256 + byte.toNat) 0

@[simp] theorem beBytes_length (width value : Nat) : (beBytes width value).length = width := by
  induction width with
  | zero => rfl
  | succ width ih => simp [beBytes, ih]

private theorem foldl_beNat (bytes : List UInt8) (start : Nat) :
    bytes.foldl (fun value byte => value * 256 + byte.toNat) start =
      start * 256 ^ bytes.length + beNat bytes := by
  induction bytes generalizing start with
  | nil => simp [beNat]
  | cons byte rest ih =>
    simp only [beNat, foldl_cons, length_cons]
    rw [ih, ih (0 * 256 + byte.toNat), pow_succ]
    ring

@[simp] theorem beNat_nil : beNat [] = 0 := rfl

theorem beNat_cons (byte : UInt8) (rest : List UInt8) :
    beNat (byte :: rest) = byte.toNat * 256 ^ rest.length + beNat rest := by
  have unfolded := foldl_beNat rest (0 * 256 + byte.toNat)
  simpa [beNat] using unfolded

/-- Reading a big-endian field back gives the value modulo the field's range. -/
theorem beNat_beBytes (width value : Nat) : beNat (beBytes width value) = value % 256 ^ width := by
  induction width with
  | zero => simp [beBytes, Nat.mod_one]
  | succ width ih =>
    have split : value % (256 ^ width * 256) =
        value % 256 ^ width + 256 ^ width * (value / 256 ^ width % 256) := Nat.mod_mul
    rw [beBytes, beNat_cons, ih, beBytes_length, UInt8.toNat_ofNat',
      pow_succ 256 width, split]
    ring

theorem beNat_lt (bytes : List UInt8) : beNat bytes < 256 ^ bytes.length := by
  induction bytes with
  | nil => simp
  | cons byte rest ih =>
    have small : byte.toNat + 1 ≤ 256 := byte.toNat_lt
    have scaled := Nat.mul_le_mul_right (256 ^ rest.length) small
    rw [Nat.add_mul, Nat.one_mul] at scaled
    rw [beNat_cons, length_cons, pow_succ, mul_comm _ 256]
    omega

/-- Only the low-order bytes of a value are written. -/
theorem beBytes_mul_add (width high low : Nat) :
    beBytes width (high * 256 ^ width + low) = beBytes width low := by
  induction width generalizing high with
  | zero => rfl
  | succ width ih =>
    have shifted : high * 256 ^ (width + 1) + low = high * 256 * 256 ^ width + low := by ring
    have top : UInt8.ofNat ((high * 256 * 256 ^ width + low) / 256 ^ width) = UInt8.ofNat
        (low / 256 ^ width) := by
      rw [add_comm, Nat.add_mul_div_right _ _ (Nat.pow_pos (by decide)), ← UInt8.toNat_inj,
        UInt8.toNat_ofNat', UInt8.toNat_ofNat']
      omega
    rw [beBytes, beBytes, shifted, ih, top]

/-- Writing back a big-endian field that was read. -/
theorem beBytes_beNat (bytes : List UInt8) : beBytes bytes.length (beNat bytes) = bytes := by
  induction bytes with
  | nil => rfl
  | cons byte rest ih =>
    have top : (byte.toNat * 256 ^ rest.length + beNat rest) / 256 ^ rest.length = byte.toNat := by
      rw [add_comm, Nat.add_mul_div_right _ _ (Nat.pow_pos (by decide)),
        Nat.div_eq_of_lt (beNat_lt rest), zero_add]
    rw [beNat_cons, length_cons, beBytes, top, beBytes_mul_add, ih, UInt8.ofNat_toNat]

/-! ## Integers in memory -/

/-- The bytes of an integer in memory, least significant first. -/
def leBytes (width value : Nat) : List UInt8 := (beBytes width value).reverse

@[simp] theorem leBytes_length (width value : Nat) : (leBytes width value).length = width := by
  rw [leBytes, length_reverse, beBytes_length]

/-! ## Accumulating a field byte by byte -/

/-- Shift one received byte into a 32-bit accumulator. -/
def shiftInByte (word : UInt32) (byte : UInt8) : UInt32 :=
  ((word <<< 8) &&& 0xFFFFFF00) ||| (byte.toUInt32 &&& 0x000000FF)

/-- The masks of `shiftInByte` keep the word arithmetic exact modulo `2 ^ 32`. -/
theorem shiftInByte_toNat (word : UInt32) (byte : UInt8) :
    (shiftInByte word byte).toNat = (word.toNat * 256 + byte.toNat) % 2 ^ 32 := by
  have small := byte.toNat_lt
  have wordBound := word.toNat_lt
  have lowMask : byte.toNat &&& 255 = byte.toNat := by
    rw [show (255 : Nat) = 2 ^ 8 - 1 from rfl, Nat.and_two_pow_sub_one_eq_mod]
    omega
  have shifted : word.toNat <<< 8 % 2 ^ 32 = (word.toNat % 2 ^ 24) <<< 8 := by
    simp only [Nat.shiftLeft_eq]
    omega
  have highMask : ((word.toNat % 2 ^ 24) <<< 8) &&& 0xFFFFFF00 = (word.toNat % 2 ^ 24) <<< 8 := by
    rw [show (0xFFFFFF00 : Nat) = (2 ^ 24 - 1) <<< 8 from rfl, ← Nat.shiftLeft_and_distrib,
      Nat.and_two_pow_sub_one_eq_mod, Nat.mod_mod]
  simp only [shiftInByte, UInt32.toNat_or, UInt32.toNat_and, UInt32.toNat_shiftLeft,
    UInt8.toNat_toUInt32]
  rw [show (8 : UInt32).toNat % 32 = 8 from rfl, show (0xFFFFFF00 : UInt32).toNat = 0xFFFFFF00 from
    rfl, show (0x000000FF : UInt32).toNat = 255 from rfl, lowMask, shifted, highMask,
    ← Nat.shiftLeft_add_eq_or_of_lt (by omega : byte.toNat < 2 ^ 8)]
  simp only [Nat.shiftLeft_eq]
  omega

/-- Shifting in a whole field appends its value to the accumulator. -/
theorem shiftInBytes_toNat (bytes : List UInt8) (word : UInt32) :
    (bytes.foldl shiftInByte word).toNat =
      (word.toNat * 256 ^ bytes.length + beNat bytes) % 2 ^ 32 := by
  induction bytes generalizing word with
  | nil => simp [Nat.mod_eq_of_lt word.toNat_lt]
  | cons byte rest ih =>
    rw [foldl_cons, ih, shiftInByte_toNat, beNat_cons, length_cons,
      Nat.add_mod, Nat.mod_mul_mod, ← Nat.add_mod]
    congr 1
    ring

/-- Words below `2 ^ 31` stay positive as a signed number. -/
theorem toInt32_toInt {value : UInt32} (small : value.toNat < 2 ^ 31) :
    value.toInt32.toInt = value.toNat := by
  rw [← Int32.toInt_toBitVec, UInt32.toBitVec_toInt32, BitVec.toInt_eq_toNat_of_lt]
  · rw [UInt32.toNat_toBitVec]
  · rw [UInt32.toNat_toBitVec]
    omega

/-! ## Memory blocks -/

variable {α : Type}

/-- Write one cell of a block; an index outside the block is a fault. -/
def store (block : List α) (index : Nat) (value : α) : Option (List α) :=
  if index < block.length then some (block.set index value) else none

/-- Copy a run of values into a block, cell by cell. -/
def storeAll (block : List α) (index : Nat) : List α → Option (List α)
  | [] => some block
  | value :: rest => (store block index value).bind fun next => storeAll next (index + 1) rest

@[simp] theorem storeAll_nil (block : List α) (index : Nat) :
    storeAll block index [] = some block := rfl

theorem storeAll_cons (block : List α) (index : Nat) (value : α) (rest : List α) :
    storeAll block index (value :: rest) =
      (store block index value).bind fun next => storeAll next (index + 1) rest := rfl

/-- A write leaves the other cells. -/
theorem store_others {block stored : List α}
    {index other : Nat} {value : α} (done : store block index value = some stored)
    (different : other ≠ index) : stored[other]? = block[other]? := by
  unfold store at done
  split at done
  · obtain rfl := Option.some.inj done
    exact List.getElem?_set_ne (Ne.symm different)
  · cases done

/-- A copy leaves the cells outside its range. -/
theorem storeAll_others {values block stored : List α}
    {index other : Nat} (done : storeAll block index values = some stored)
    (outside : other < index ∨ index + values.length ≤ other) : stored[other]? = block[other]? := by
  induction values generalizing block index with
  | nil =>
    obtain rfl := Option.some.inj done
    rfl
  | cons value rest ih =>
    rw [storeAll_cons] at done
    obtain ⟨first, storedFirst, later⟩ := Option.bind_eq_some_iff.mp done
    rw [length_cons] at outside
    rw [ih later (by omega), store_others storedFirst (by omega)]

/-- A copy that stays inside the block replaces exactly its range. -/
theorem storeAll_inside (block values : List α) (index : Nat)
    (inside : index + values.length ≤ block.length) :
    storeAll block index values =
      some (block.take index ++ values ++ block.drop (index + values.length)) := by
  induction values generalizing block index with
  | nil => simp
  | cons value rest ih =>
    simp only [length_cons] at inside
    have cell : index < block.length := by omega
    rw [storeAll_cons, store, if_pos cell, Option.bind_some,
      ih _ _ (by simp; omega)]
    congr 1
    have front : (block.set index value).take (index + 1) = block.take index ++ [value] := by
      have width : (block.take index).length = index := by
        rw [length_take, Nat.min_eq_left (Nat.le_of_lt cell)]
      rw [take_set, take_succ_eq_append_getElem cell,
        set_append_right _ _ (Nat.le_of_eq width), width, Nat.sub_self, set_cons_zero]
    have back : (block.set index value).drop (index + 1 + rest.length) =
        block.drop (index + (value :: rest).length) := by
      rw [drop_set_of_lt (by omega), length_cons]
      congr 1
      omega
    rw [front, back]
    simp

/-- Filling a block from its start leaves the untouched tail behind the copy. -/
theorem storeAll_zero (block values : List α) (inside : values.length ≤ block.length) :
    storeAll block 0 values = some (values ++ block.drop values.length) := by
  simpa using storeAll_inside block values 0 (by simpa using inside)

end Idrm.Lib
