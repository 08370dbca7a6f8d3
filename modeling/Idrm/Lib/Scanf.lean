import Mathlib.Data.List.DropRight
import Idrm.Lib.Decimal

/-!
# Scanned and trimmed text

`scan` is `sscanf` for formats of blanks, literal characters and scansets: the words it assigns,
up to the first directive that does not match. A scanset takes as much as it can and at least one
character. `strip` and `trimEnd` take the blanks off a text.
-/

namespace Idrm.Lib

open List

/-- One item of a `scanf` format. -/
inductive Directive where
  | blank
  | char (byte : UInt8)
  | scanset (accepts : UInt8 → Bool)

/-- `%[...]` -/
def Directive.among (members : List UInt8) : Directive := .scanset fun byte => members.contains byte

/-- `%[^...]` -/
def Directive.except (members : List UInt8) : Directive :=
  .scanset fun byte => !members.contains byte

/-- The words that `sscanf` assigns. -/
def scan : List Directive → List UInt8 → List (List UInt8)
  | [], _ => []
  | .blank :: rest, text => scan rest (text.dropWhile isSpaceByte)
  | .char byte :: rest, text =>
    match text with
    | [] => []
    | first :: tail => if first = byte then scan rest tail else []
  | .scanset accepts :: rest, text =>
    match text.takeWhile accepts with
    | [] => []
    | first :: word => (first :: word) :: scan rest (text.dropWhile accepts)

variable {accepts : UInt8 → Bool} {word rest text : List UInt8} {format : List Directive}

/-- A part of a text that a predicate takes as a whole. -/
structure Taken (accepts : UInt8 → Bool) (word rest : List UInt8) : Prop where
  inside : ∀ byte ∈ word, accepts byte = true
  boundary : ∀ byte ∈ rest.head?, accepts byte = false

theorem Taken.dropWhile (taken : Taken accepts word rest) :
    (word ++ rest).dropWhile accepts = rest := by
  rw [dropWhile_append_of_pos taken.inside]
  cases rest with
  | nil => rfl
  | cons first tail => rw [dropWhile_cons_of_neg (by simp [taken.boundary first rfl])]

theorem Taken.takeWhile (taken : Taken accepts word rest) :
    (word ++ rest).takeWhile accepts = word := by
  rw [takeWhile_append_of_pos taken.inside]
  cases rest with
  | nil => rw [takeWhile_nil, append_nil]
  | cons first tail => rw [takeWhile_cons_of_neg (by simp [taken.boundary first rfl]), append_nil]

theorem Taken.nothing (refused : ∀ byte ∈ text.head?, accepts byte = false) :
    Taken accepts [] text :=
  ⟨forall_mem_nil _, refused⟩

/-- A scanset takes what it accepts. -/
theorem scan_scanset (taken : Taken accepts word rest) (filled : word ≠ []) :
    scan (.scanset accepts :: format) (word ++ rest) = word :: scan format rest := by
  obtain ⟨first, tail, rfl⟩ := exists_cons_of_ne_nil filled
  rw [scan, taken.takeWhile, taken.dropWhile]

/-- A blank of the format passes over nothing where there is none. -/
theorem scan_blank (solid : ∀ byte ∈ text.head?, isSpaceByte byte = false) :
    scan (.blank :: format) text = scan format text := by
  have same : text.dropWhile isSpaceByte = text := (Taken.nothing solid).dropWhile
  rw [scan, same]

theorem scan_blank_space (text : List UInt8) :
    scan (.blank :: format) (32 :: text) = scan (.blank :: format) text := rfl

theorem scan_char (byte : UInt8) (text : List UInt8) : scan (.char byte :: format)
    (byte :: text) = scan format text := by
  rw [scan, if_pos rfl]

theorem scan_char_other {byte : UInt8} (other : ∀ first ∈ text.head?, first ≠ byte) :
    scan (.char byte :: format) text = [] := by
  cases text with
  | nil => rfl
  | cons first tail => rw [scan, if_neg (other first rfl)]

/-! ## Trimming -/

/-- A text without the blanks at its end. -/
def trimEnd (text : List UInt8) : List UInt8 := text.rdropWhile isSpaceByte

/-- A text without the blanks around it. -/
def strip (text : List UInt8) : List UInt8 := trimEnd (text.dropWhile isSpaceByte)

/-- A text that begins and ends with something else than a blank. -/
structure Solid (text : List UInt8) : Prop where
  first : ∀ byte ∈ text.head?, isSpaceByte byte = false
  last : ∀ byte ∈ text.getLast?, isSpaceByte byte = false

theorem solid_iff (text : List UInt8) : text.head?.all (!isSpaceByte ·) = true ∧
    text.getLast?.all (!isSpaceByte ·) = true ↔ Solid text := by
  simp only [Option.all_eq_true, Bool.not_eq_true']
  exact ⟨fun ⟨first, last⟩ => ⟨first, last⟩, fun solid => ⟨solid.first, solid.last⟩⟩

instance (text : List UInt8) : Decidable (Solid text) := decidable_of_iff _ (solid_iff text)

theorem trimEnd_of_last (last : ∀ byte ∈ text.getLast?, isSpaceByte byte = false) :
    trimEnd text = text := by
  refine rdropWhile_eq_self_iff.mpr fun filled => ?_
  rw [last _ (List.getLast?_eq_getLast_of_ne_nil filled)]
  exact Bool.false_ne_true

/-- Blanks behind a text do not matter. -/
theorem trimEnd_append {blanks : List UInt8} (blank : ∀ byte ∈ blanks, isSpaceByte byte = true)
    (text : List UInt8) : trimEnd (text ++ blanks) = trimEnd text := by
  induction blanks using List.reverseRecOn with
  | nil => rw [append_nil]
  | append_singleton front byte ih =>
    rw [← append_assoc, trimEnd,
      rdropWhile_concat_pos _ _ _ (blank byte (mem_append_right _ mem_cons_self))]
    exact ih fun other member => blank other (mem_append_left _ member)

/-- A solid text is stripped of the blanks around it. -/
theorem Solid.strip {blanks : List UInt8} (solid : Solid text) (filled : text ≠ [])
    (blank : ∀ byte ∈ blanks, isSpaceByte byte = true) : strip (text ++ blanks) = text := by
  obtain ⟨first, tail, rfl⟩ := exists_cons_of_ne_nil filled
  have begins : isSpaceByte first = false := solid.first first rfl
  rw [Lib.strip, cons_append, dropWhile_cons_of_neg (by simp [begins]), ← cons_append,
    trimEnd_append blank, trimEnd_of_last solid.last]

end Idrm.Lib
