import Mathlib.Data.List.Basic

/-!
# Windows onto a text

A part of a text of at most some size, from an offset on. A text is put together again from the
windows at the multiples of the size, whoever hands them out and whatever that leaves behind.
-/

namespace Idrm.Lib

open List

section Window

variable {α : Type} {text more : List α} {offset size : Nat}

/-- The part of a text from an offset on, of at most a size. -/
def window (offset size : Nat) (text : List α) : List α := (text.drop offset).take size

@[simp] theorem window_length :
    (window offset size text).length = min size (text.length - offset) := by
  rw [window, length_take, length_drop]

@[simp] theorem window_nil : window offset size ([] : List α) = [] := by
  rw [window, drop_nil, take_nil]

/-- What is added to a text shows up in the room that is left. -/
theorem window_append : window offset size (text ++ more) = window offset size text ++
      window (offset - text.length) (size - (text.length - offset)) more := by
  simp only [window]
  rw [drop_append, take_append, length_drop]

/-- A full window stays as it is. -/
theorem window_full (full : offset + size ≤ text.length) :
    window offset size (text ++ more) = window offset size text := by
  have noRoom : size - (text.length - offset) = 0 := by omega
  rw [window_append, noRoom, window, window, take_zero, append_nil]

/-- A window of a window. -/
theorem take_window {fewer : Nat} (inside : fewer ≤ size) :
    (window offset size text).take fewer = window offset fewer text := by
  rw [window, window, take_take, Nat.min_eq_left inside]

end Window

section Fetch

variable {α σ : Type}

/-- Ask for one block after the other, up to one with nothing behind it. -/
def fetchBlocks (ask : Nat → σ → Option ((List α × Bool) × σ)) : Nat → Nat → σ → Option (List α × σ)
  | 0, _, _ => none
  | fuel + 1, index, state =>
    (ask index state).bind fun ((block, more), state) =>
      if more then (fetchBlocks ask fuel (index + 1) state).map fun (rest, state) =>
        (block ++ rest, state)
      else some (block, state)

variable {ask : Nat → σ → Option ((List α × Bool) × σ)} {inv : σ → Prop}
  {size : Nat} {text : List α}

/-- The blocks behind an index are the rest of the text. -/
theorem fetchBlocks_from (serves : ∀ index state, inv state → size * index < text.length ∨
      index = 0 → ∃ after, ask index state = some ((window (size * index) size text,
      decide (size * (index + 1) < text.length)), after) ∧ inv after) {fuel index : Nat} {state : σ}
    (start : inv state)
    (inside : size * index < text.length ∨ index = 0) (enough : text.length ≤ size * (index + fuel))
    (fuelled : 0 < fuel) :
    ∃ after, fetchBlocks ask fuel index state = some (text.drop (size * index), after) ∧
    inv after := by
  induction fuel generalizing index state with
  | zero => cases fuelled
  | succ fuel ih =>
    obtain ⟨next, asked, kept⟩ := serves index state start inside
    rw [fetchBlocks, asked, Option.bind_some]
    by_cases more : size * (index + 1) < text.length
    · have stillFuelled : 0 < fuel := by
        rcases Nat.eq_zero_or_pos fuel with rfl | positive
        · exact absurd more (Nat.not_lt.mpr enough)
        · exact positive
      obtain ⟨after, fetched, keptAfter⟩ := ih kept (.inl more)
        (by rw [Nat.add_right_comm index 1 fuel]; exact enough) stillFuelled
      refine ⟨after, ?_, keptAfter⟩
      have rest : text.drop (size * (index + 1)) = (text.drop (size * index)).drop size := by
        rw [drop_drop, Nat.mul_add, Nat.mul_one]
      simp only [decide_eq_true more, if_true, fetched, Option.map_some, rest, window,
        take_append_drop]
    · refine ⟨next, ?_, kept⟩
      have whole : window (size * index) size text = text.drop (size * index) := by
        rw [window, take_of_length_le]
        rw [length_drop, Nat.mul_add] at *
        omega
      simp only [decide_eq_false more, Bool.false_eq_true, if_false, whole]

/-- The blocks of a text are the text. -/
theorem fetchBlocks_text (serves : ∀ index state, inv state → size * index < text.length ∨
      index = 0 → ∃ after, ask index state = some ((window (size * index) size text,
      decide (size * (index + 1) < text.length)), after) ∧ inv after) {state : σ}
    (start : inv state) {fuel : Nat} (enough : text.length ≤ size * fuel) (fuelled : 0 < fuel) :
    ∃ after, fetchBlocks ask fuel 0 state = some (text, after) ∧ inv after := by
  rw [← Nat.zero_add fuel] at enough
  simpa using fetchBlocks_from serves start (.inr rfl) enough fuelled

end Fetch

end Idrm.Lib
