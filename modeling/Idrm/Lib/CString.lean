import Mathlib.Data.List.TakeWhile

/-!
# C strings

The content of a NUL-terminated string is a byte list without NUL. `CString`
carries that fact, so `strlen` is the list length and two strings compare equal
exactly when their contents do.
-/

namespace Idrm.Lib

open List

/-- The bytes before the terminator of a C string. -/
structure CString where
  bytes : List UInt8
  nulFree : (0 : UInt8) ∉ bytes
deriving DecidableEq

namespace CString

@[ext] theorem ext {left right : CString} (bytes : left.bytes = right.bytes) : left = right := by
  cases left
  cases right
  cases bytes
  rfl

/-- The empty string. -/
def empty : CString := ⟨[], not_mem_nil⟩

/-- The string that starts at the front of a buffer. -/
def ofBytes (buffer : List UInt8) : CString where
  bytes := buffer.takeWhile (· ≠ 0)
  nulFree := by
    intro member
    have kept := mem_takeWhile_imp member
    simp at kept

/-- A buffer without NUL is a string as a whole. -/
theorem ofBytes_nulFree {buffer : List UInt8} (nulFree : (0 : UInt8) ∉ buffer) :
    ofBytes buffer = ⟨buffer, nulFree⟩ := by
  ext1
  refine takeWhile_eq_self_iff.mpr fun byte member => ?_
  have different : byte ≠ 0 := by
    rintro rfl
    exact nulFree member
  simpa using different

/-- What lies behind the end of a string is no part of it. -/
theorem ofBytes_append {front back : List UInt8}
    (ends : (0 : UInt8) ∉ front → back.takeWhile (· ≠ 0) = []) :
    ofBytes (front ++ back) = ofBytes front := by
  ext1
  show (front ++ back).takeWhile (· ≠ 0) = front.takeWhile (· ≠ 0)
  rw [takeWhile_append]
  split
  · rename_i whole
    have noNul : (0 : UInt8) ∉ front := by
      intro member
      have kept := takeWhile_eq_self_iff.mp ((List.takeWhile_prefix _).eq_of_length whole) 0 member
      simp at kept
    rw [ends noNul, append_nil]
    exact ((List.takeWhile_prefix _).eq_of_length whole).symm
  · rfl

/-- One string behind the other. -/
def append (front back : CString) : CString where
  bytes := front.bytes ++ back.bytes
  nulFree := fun member => (mem_append.mp member).elim front.nulFree back.nulFree

instance : Append CString := ⟨append⟩

@[simp] theorem append_bytes (front back : CString) :
    (front ++ back).bytes = front.bytes ++ back.bytes := rfl

/-- What `snprintf` leaves of a text in a buffer. -/
def snprintf (size : Nat) (text : CString) : CString where
  bytes := text.bytes.take (size - 1)
  nulFree := fun member => text.nulFree (mem_of_mem_take member)

/-- A text that fits is left whole. -/
theorem snprintf_of_lt {size : Nat} {text : CString} (fits : text.bytes.length < size) :
    snprintf size text = text := by
  ext1
  exact take_of_length_le (by omega)

/-- The string from an offset on. -/
def drop (offset : Nat) (string : CString) : CString where
  bytes := string.bytes.drop offset
  nulFree := fun member => string.nulFree (mem_of_mem_drop member)

/-- The string together with its terminator, as it lies in memory. -/
def terminated (string : CString) : List UInt8 := string.bytes ++ [0]

/-- A terminated string starts the buffer it lies in. -/
theorem ofBytes_terminated (string : CString) (rest : List UInt8) :
    ofBytes (string.terminated ++ rest) = string := by
  have passes : ∀ byte ∈ string.bytes, decide (byte ≠ 0) = true := fun byte member =>
    decide_eq_true fun zero => string.nulFree (zero ▸ member)
  ext1
  simp only [ofBytes, terminated, append_assoc]
  rw [takeWhile_append_of_pos passes]
  simp

/-- The string at the front of a buffer and what lies behind its terminator. Without a
terminator `strlen` reads outside. -/
def read (buffer : List UInt8) : Option (CString × List UInt8) :=
  match buffer.dropWhile (· ≠ 0) with
  | [] => none
  | _ :: rest => some (ofBytes buffer, rest)

/-- What is read is what lies there. -/
theorem read_eq_some_iff {buffer rest : List UInt8} {string : CString} :
    read buffer = some (string, rest) ↔ buffer = string.terminated ++ rest := by
  have passes : ∀ byte ∈ string.bytes, decide (byte ≠ 0) = true := fun byte member =>
    decide_eq_true fun zero => string.nulFree (zero ▸ member)
  constructor
  · intro isRead
    have whole := takeWhile_append_dropWhile (p := fun byte : UInt8 => decide (byte ≠ 0))
      (l := buffer)
    unfold read at isRead
    split at isRead
    · cases isRead
    · rename_i first behind tail
      obtain ⟨rfl, rfl⟩ := Prod.mk.inj (Option.some.inj isRead)
      have zero : first = 0 := by
        have fails := List.head?_dropWhile_not (fun byte : UInt8 => decide (byte ≠ 0)) buffer
        rw [tail] at fails
        simpa using fails
      rw [tail, zero] at whole
      calc buffer = buffer.takeWhile (fun byte => decide (byte ≠ 0)) ++ 0 :: behind := whole.symm
        _ = (ofBytes buffer).terminated ++ behind := by simp [terminated, ofBytes]
  · rintro rfl
    have tail : (string.terminated ++ rest).dropWhile (· ≠ 0) = 0 :: rest := by
      rw [terminated, append_assoc, dropWhile_append_of_pos passes]
      rfl
    rw [read, tail, ofBytes_terminated]

end CString
end Idrm.Lib
