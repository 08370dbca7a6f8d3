import Mathlib.Data.List.DropRight

/-!
# Histories

A component that keeps what it did, in order, can be held to rules about any moment of
its past. `Throughout` says that a rule held at every moment; `countSince` counts what
was done since the last of some marks, which is what a counter with resets should hold.
-/

namespace Idrm.Lib

open List

variable {α : Type}

/-- A rule held after each of the things done. -/
def Throughout (holds : List α → Prop) (history : List α) : Prop :=
  ∀ past, past <+: history → holds past

variable {holds : List α → Prop}

theorem Throughout.nil (initially : holds []) : Throughout holds [] := by
  intro past before
  rw [prefix_nil.mp before]
  exact initially

theorem Throughout.snoc {history : List α} {done : α}
    (throughout : Throughout holds history) (now : holds (history ++ [done])) :
    Throughout holds (history ++ [done]) := by
  intro past before
  rcases prefix_concat_iff.mp before with whole | earlier
  · rw [whole]
    exact now
  · exact throughout past earlier

theorem Throughout.now {history : List α} (throughout : Throughout holds history) :
    holds history :=
  throughout history (prefix_refl history)

/-- How often something was done since the last mark. -/
def countSince (mark counts : α → Bool) (history : List α) : Nat :=
  (history.rtakeWhile fun done => !mark done).countP counts

section Count

variable {mark counts : α → Bool} {history : List α} {done : α}

theorem countSince_mark (marked : mark done = true) :
    countSince mark counts (history ++ [done]) = 0 := by
  rw [countSince, rtakeWhile_concat_neg _ _ _ (by simp [marked]), countP_nil]

theorem countSince_snoc (unmarked : mark done = false) :
    countSince mark counts (history ++ [done]) =
      countSince mark counts history + if counts done then 1 else 0 := by
  rw [countSince, rtakeWhile_concat_pos _ _ _ (by simp [unmarked]), countP_append, countSince,
    countP_singleton]

/-- Behind a mark without another one, everything counts. -/
theorem countSince_behind {front middle : List α} (marked : mark done = true)
    (clear : ∀ other ∈ middle, mark other = false) :
    countSince mark counts (front ++ done :: middle) = middle.countP counts := by
  induction middle using List.reverseRecOn with
  | nil => exact countSince_mark marked
  | append_singleton earlier last ih =>
    have before := ih fun other member => clear other (mem_append_left _ member)
    rw [← cons_append, ← append_assoc, countSince_snoc (clear last (by simp)), before,
      countP_append, countP_singleton]

end Count

end Idrm.Lib
