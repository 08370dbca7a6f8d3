import Mathlib.Data.Nat.Digits.Lemmas
import Idrm.Lib.CString

/-!
# Decimal numbers in C strings

What `printf` writes for an integer and what `atoi` reads back. The digits are those
of `Nat.digits`, most significant first; `atoi` is `strtol`, which saturates at the
width of a `long`, cut to an `int`.
-/

namespace Idrm.Lib

open List

/-- The character of a digit. -/
def digitByte (digit : Nat) : UInt8 := UInt8.ofNat (48 + digit)

/-- Whether a byte is the character of a digit. -/
def isDigitByte (byte : UInt8) : Bool := 48 ≤ byte.toNat && byte.toNat ≤ 57

/-- The bytes `isspace` accepts. -/
def isSpaceByte (byte : UInt8) : Bool := byte = 32 || (9 ≤ byte.toNat && byte.toNat ≤ 13)

/-- A natural number in decimal. -/
def printNat (value : Nat) : List UInt8 :=
  if value = 0 then [digitByte 0] else (Nat.digits 10 value).reverse.map digitByte

/-- What `%d` and `%ld` write. -/
def printInt (value : Int) : List UInt8 :=
  if value < 0 then 45 :: printNat value.natAbs else printNat value.toNat

/-- The value of the digits at the front of a string. -/
def readNat (bytes : List UInt8) : Nat :=
  (bytes.takeWhile isDigitByte).foldl (fun value byte => value * 10 + (byte.toNat - 48)) 0

/-- The number at the front of a string: spaces, a sign, digits. -/
def readInt (bytes : List UInt8) : Int :=
  match bytes.dropWhile isSpaceByte with
  | 45 :: rest => -(readNat rest : Int)
  | 43 :: rest => readNat rest
  | rest => readNat rest

/-- `strtol` in base ten. -/
def strtol (string : CString) : Int64 := Int64.ofIntClamp (readInt string.bytes)

/-- `atoi` -/
def atoi (string : CString) : Int32 := (strtol string).toInt32

section Digits

theorem digitByte_toNat {digit : Nat} (bound : digit < 10) :
    (digitByte digit).toNat = 48 + digit := by
  rw [digitByte, UInt8.toNat_ofNat', Nat.mod_eq_of_lt (by omega)]

theorem isDigitByte_digitByte {digit : Nat} (bound : digit < 10) :
    isDigitByte (digitByte digit) = true := by
  rw [isDigitByte, digitByte_toNat bound]
  simp
  omega

/-- Reading written digits, most significant first. -/
theorem foldl_digitBytes {digits : List Nat} (bound : ∀ digit ∈ digits, digit < 10) :
    (digits.reverse.map digitByte).foldl (fun value byte => value * 10 + (byte.toNat - 48)) 0 =
      Nat.ofDigits 10 digits := by
  induction digits with
  | nil => rfl
  | cons digit rest ih =>
    have here := bound digit mem_cons_self
    have others := ih fun other member => bound other (mem_cons_of_mem _ member)
    rw [reverse_cons, map_append, foldl_append, others, Nat.ofDigits_cons]
    simp only [map_cons, map_nil, foldl_cons, foldl_nil, digitByte_toNat here]
    omega

/-- A printed number is its digits. -/
theorem printNat_digits (value : Nat) : ∃ digits : List Nat, (∀ digit ∈ digits, digit < 10) ∧
    printNat value = digits.reverse.map digitByte ∧ digits ≠ [] ∧
    Nat.ofDigits 10 digits = value := by
  unfold printNat
  split
  · rename_i zero
    exact ⟨[0], by simp, rfl, by simp, zero.symm⟩
  · rename_i positive
    refine ⟨Nat.digits 10 value, fun digit member => Nat.digits_lt_base (by decide) member, rfl, ?_,
      Nat.ofDigits_digits 10 value⟩
    exact Nat.digits_ne_nil_iff_ne_zero.mpr positive

/-- Every character of a printed number is a digit. -/
theorem mem_printNat {value : Nat} {byte : UInt8} (member : byte ∈ printNat value) :
    isDigitByte byte = true := by
  obtain ⟨digits, bound, printed, -, -⟩ := printNat_digits value
  rw [printed] at member
  obtain ⟨digit, digitMember, rfl⟩ := mem_map.mp member
  exact isDigitByte_digitByte (bound digit (mem_reverse.mp digitMember))

theorem printNat_ne_nil (value : Nat) : printNat value ≠ [] := by
  obtain ⟨digits, -, printed, filled, -⟩ := printNat_digits value
  rw [printed]
  simpa using filled

/-- The width of a printed number. -/
theorem printNat_length_le {value width : Nat} (positive : 0 < width) (bound : value < 10 ^ width) :
    (printNat value).length ≤ width := by
  unfold printNat
  split
  · exact positive
  · rw [length_map, length_reverse]
    exact (Nat.digits_length_le_iff (by decide) value).mpr bound

@[simp] theorem readNat_printNat (value : Nat) : readNat (printNat value) = value := by
  have all : (printNat value).takeWhile isDigitByte = printNat value :=
    takeWhile_eq_self_iff.mpr fun byte member => mem_printNat member
  obtain ⟨digits, bound, printed, -, total⟩ := printNat_digits value
  rw [readNat, all, printed, foldl_digitBytes bound, total]

/-- A digit is no sign and no space. -/
theorem digit_plain {byte : UInt8} (digit : isDigitByte byte = true) :
    isSpaceByte byte = false ∧ byte ≠ 45 ∧ byte ≠ 43 ∧ byte ≠ 0 := by
  simp only [isDigitByte, Bool.and_eq_true, decide_eq_true_eq] at digit
  refine ⟨?_, ?_, ?_, ?_⟩
  · have notSpace : byte ≠ 32 := by
      rintro rfl
      exact absurd digit.1 (by decide)
    simp [isSpaceByte, notSpace]
    omega
  · rintro rfl
    exact absurd digit.1 (by decide)
  · rintro rfl
    exact absurd digit.1 (by decide)
  · rintro rfl
    exact absurd digit.1 (by decide)

@[simp] theorem readInt_printInt (value : Int) : readInt (printInt value) = value := by
  unfold printInt
  split
  · rename_i negative
    have plain : (45 :: printNat value.natAbs).dropWhile isSpaceByte = 45 ::
      printNat value.natAbs := rfl
    rw [readInt, plain]
    simp only [readNat_printNat]
    omega
  · rename_i natural
    obtain ⟨first, rest, printed⟩ := exists_cons_of_ne_nil (printNat_ne_nil value.toNat)
    obtain ⟨space, minus, plus, -⟩ := digit_plain (mem_printNat (printed ▸ mem_cons_self))
    have plain : (printNat value.toNat).dropWhile isSpaceByte = printNat value.toNat := by
      rw [printed, dropWhile_cons_of_neg (by simp [space])]
    have unsigned : readInt (printNat value.toNat) = readNat (printNat value.toNat) := by
      rw [readInt, plain, printed]
      split
      · rename_i same
        exact absurd (List.cons.inj same).1 minus
      · rename_i same
        exact absurd (List.cons.inj same).1 plus
      · rfl
    rw [unsigned, readNat_printNat]
    omega

/-- Printed numbers are C strings. -/
theorem zero_not_mem_printInt (value : Int) : (0 : UInt8) ∉ printInt value := by
  have digits : ∀ number, (0 : UInt8) ∉ printNat number := fun number member =>
    (digit_plain (mem_printNat member)).2.2.2 rfl
  unfold printInt
  split
  · rintro (_ | ⟨_, member⟩)
    exact digits _ member
  · exact digits _

/-- The string `sprintf` leaves for a number. -/
def decimal (value : Int) : CString := ⟨printInt value, zero_not_mem_printInt value⟩

/-- `atoi` reads an `int` back. -/
theorem atoi_decimal {value : Int} (least : -2 ^ 31 ≤ value) (most : value < 2 ^ 31) :
    atoi (decimal value) = Int32.ofInt value := by
  have clamped : (Int64.ofIntClamp value).toInt = value :=
    Int64.toInt_ofIntClamp (Int.le_trans (by decide) least)
      (Int.le_trans (Int.le_of_lt most) (by decide))
  rw [atoi, strtol, decimal, readInt_printInt,
    ← Int64.ofInt_toInt (Int64.ofIntClamp value), clamped]
  exact Int64.toInt32_ofInt

/-- A `long` is read back as it was written. -/
theorem strtol_decimal (value : Int64) : strtol (decimal value.toInt) = value := by
  rw [strtol, decimal, readInt_printInt, Int64.ofIntClamp_toInt]

end Digits

end Idrm.Lib
