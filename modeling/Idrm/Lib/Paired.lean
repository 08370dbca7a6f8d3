import Mathlib.Data.Set.Insert
import Mathlib.Logic.Function.Basic

/-!
# Pointers both ways

Objects of two kinds refer to each other: each has at most one partner, and is its partner's
partner. `Paired` is that for the two pointer maps; the second of a pair is the younger one.
-/

namespace Idrm.Lib

open Function

/-- Two pointer maps that agree. -/
structure Paired (forth back : Nat → Option Nat) : Prop where
  each : ∀ first second, forth first = some second ↔ back second = some first
  younger : ∀ first second, forth first = some second → first < second

variable {forth back : Nat → Option Nat} {first second : Nat}

/-- Objects without a partner are paired. -/
theorem Paired.link (paired : Paired forth back)
    (single : forth first = none) (free : back second = none) (later : first < second) :
    Paired (update forth first (some second)) (update back second (some first)) where
  each one two := by
    by_cases sameFirst : one = first
    · subst sameFirst
      by_cases sameSecond : two = second
      · subst sameSecond
        simp
      · have other : back two ≠ some one := fun linked => by
          rw [← paired.each, single] at linked
          cases linked
        simp [update_of_ne sameSecond, other, Ne.symm sameSecond]
    · by_cases sameSecond : two = second
      · subst sameSecond
        have other : forth one ≠ some two := fun linked => by
          rw [paired.each, free] at linked
          cases linked
        simp [update_of_ne sameFirst, other, Ne.symm sameFirst]
      · rw [update_of_ne sameFirst, update_of_ne sameSecond, paired.each]
  younger one two linked := by
    by_cases same : one = first
    · subst same
      rw [update_self] at linked
      cases linked
      exact later
    · rw [update_of_ne same] at linked
      exact paired.younger one two linked

/-- A pair is taken apart. -/
theorem Paired.unlink (paired : Paired forth back) (linked : forth first = some second) :
    Paired (update forth first none) (update back second none) where
  each one two := by
    by_cases sameFirst : one = first
    · subst sameFirst
      by_cases sameSecond : two = second
      · subst sameSecond
        simp
      · have other : back two ≠ some one := fun isBack => by
          rw [← paired.each, linked] at isBack
          exact sameSecond (Option.some.inj isBack).symm
        simp [update_of_ne sameSecond, other]
    · by_cases sameSecond : two = second
      · subst sameSecond
        have other : forth one ≠ some two := fun isForth => by
          rw [paired.each, (paired.each _ _).mp linked] at isForth
          exact sameFirst (Option.some.inj isForth).symm
        simp [update_of_ne sameFirst, other]
      · rw [update_of_ne sameFirst, update_of_ne sameSecond, paired.each]
  younger one two isForth := by
    by_cases same : one = first
    · subst same
      rw [update_self] at isForth
      cases isForth
    · rw [update_of_ne same] at isForth
      exact paired.younger one two isForth

end Idrm.Lib
