import Mathlib.Data.Set.Insert
import Mathlib.Logic.Function.Basic

/-!
# Promises that are kept once

A promise that was made is owed at one address, or was kept once. It is made at an address, may
be handed on to another, and leaves its address when it is kept.
-/

namespace Idrm.Lib

open Function Option List

section Promises

variable {N X : Type} [DecidableEq N]

/-- What a promise was kept with. -/
def keptWith (kept : List (N × X)) (promise : N) : List X :=
  (kept.filter (·.1 = promise)).map (·.2)

/-- A promise is owed at one address, or was kept once. -/
inductive Promise (owed : Nat → Option N) (kept : List (N × X)) (promise : N) : Prop
  | owed (address : Nat) : (∀ other, owed other = some promise ↔ other = address) →
      keptWith kept promise = [] → Promise owed kept promise
  | kept (value : X) : (∀ other, owed other ≠ some promise) → keptWith kept promise = [value] →
      Promise owed kept promise

/-- Whatever was promised is owed or kept, and nothing else. -/
structure Promises (made : Set N) (owed : Nat → Option N) (kept : List (N × X)) : Prop where
  promised : ∀ promise ∈ made, Promise owed kept promise
  others : ∀ promise ∉ made, (∀ address, owed address ≠ some promise) ∧ keptWith kept promise = []

variable {made : Set N} {owed : Nat → Option N} {kept : List (N × X)} {address fresh : Nat}
  {promise other : N}

omit [DecidableEq N] in
theorem update_none_iff {place : Nat} :
    update owed address none place = some other ↔ place ≠ address ∧ owed place = some other := by
  by_cases same : place = address
  · rw [same, update_self]
    exact ⟨fun owes => absurd owes.symm (some_ne_none _), fun both => absurd rfl both.1⟩
  · rw [update_of_ne same]
    exact ⟨fun here => ⟨same, here⟩, And.right⟩

theorem keptWith_append (kept : List (N × X)) (promise : N) (value : X) (other : N) :
    keptWith (kept ++ [(promise, value)]) other =
      keptWith kept other ++ if promise = other then [value] else [] := by
  by_cases same : promise = other
  · simp [keptWith, same]
  · simp [keptWith, same]

theorem Promises.start : Promises ∅ (fun _ => none : Nat → Option N) ([] : List (N × X)) :=
  ⟨fun promise member => absurd member (Set.notMem_empty promise),
    fun promise _ => ⟨fun _ => some_ne_none promise |>.symm, rfl⟩⟩

/-- Only what was promised is owed. -/
theorem Promises.made_of_owed (promises : Promises made owed kept)
    (here : owed address = some promise) : promise ∈ made := by
  by_contra unmade
  exact (promises.others promise unmade).1 address here

/-- A promise is kept where it is owed. -/
theorem Promises.keep (promises : Promises made owed kept) (here : owed address = some promise)
    (value : X) : Promises made (update owed address none) (kept ++ [(promise, value)]) := by
  have isMade := promises.made_of_owed here
  refine ⟨fun other member => ?_, fun other unmade => ?_⟩
  · rcases promises.promised other member with ⟨place, only, unkept⟩ | ⟨before, none, once⟩
    · by_cases same : promise = other
      · subst same
        refine .kept value (fun elsewhere owes => ?_) ?_
        · obtain ⟨left, owes⟩ := update_none_iff.mp owes
          exact left (((only elsewhere).mp owes).trans ((only address).mp here).symm)
        · rw [keptWith_append, unkept, if_pos rfl, nil_append]
      · refine .owed place (fun elsewhere => ?_) ?_
        · rw [update_none_iff, only]
          refine ⟨And.right, fun isPlace => ⟨fun isAddress => same ?_, isPlace⟩⟩
          have owes := (only elsewhere).mpr isPlace
          rw [isAddress] at owes
          exact some.inj (here.symm.trans owes)
        · rw [keptWith_append, unkept, if_neg same, nil_append]
    · have different : promise ≠ other := fun same => none address (same ▸ here)
      refine .kept before (fun elsewhere owes => none elsewhere (update_none_iff.mp owes).2) ?_
      rw [keptWith_append, once, if_neg different, append_nil]
  · obtain ⟨none, unkept⟩ := promises.others other unmade
    have different : promise ≠ other := fun same => unmade (same ▸ isMade)
    refine ⟨fun elsewhere owes => none elsewhere (update_none_iff.mp owes).2, ?_⟩
    rw [keptWith_append, unkept, if_neg different, nil_append]

/-- A promise is made, at an address where nothing is owed. -/
theorem Promises.make (promises : Promises made owed kept)
    (free : owed fresh = none) (new : promise ∉ made) :
    Promises (insert promise made) (update owed fresh (some promise)) kept := by
  obtain ⟨none, unkept⟩ := promises.others promise new
  have elsewhere {other : N} (different : other ≠ promise) (place : Nat) :
      update owed fresh (some promise) place = some other ↔ owed place = some other := by
    by_cases same : place = fresh
    · rw [same, update_self, free]
      exact ⟨fun isOther => absurd (some.inj isOther).symm different,
        fun owes => absurd owes.symm (some_ne_none _)⟩
    · rw [update_of_ne same]
  refine ⟨fun other member => ?_, fun other unmade => ?_⟩
  · by_cases same : other = promise
    · subst same
      refine .owed fresh (fun place => ?_) unkept
      by_cases isFresh : place = fresh
      · rw [isFresh, update_self]
        exact ⟨fun _ => rfl, fun _ => rfl⟩
      · rw [update_of_ne isFresh]
        exact ⟨fun owes => absurd owes (none place), fun isHere => absurd isHere isFresh⟩
    · rcases promises.promised other (member.resolve_left same) with ⟨place, only, unkept⟩ |
        ⟨value, none, once⟩
      · exact .owed place (fun place => (elsewhere same place).trans (only place)) unkept
      · exact .kept value (fun place owes => none place ((elsewhere same place).mp owes)) once
  · have different : other ≠ promise := fun same => unmade (.inl same)
    obtain ⟨none, unkept⟩ := promises.others other fun member => unmade (.inr member)
    exact ⟨fun place owes => none place ((elsewhere different place).mp owes), unkept⟩

/-- A promise is handed on to an address where nothing is owed. -/
theorem Promises.hand (promises : Promises made owed kept)
    (here : owed address = some promise) (free : owed fresh = none) :
    Promises made (update (update owed fresh (some promise)) address none) kept := by
  have apart : fresh ≠ address := fun same => some_ne_none _ ((same ▸ here).symm.trans free)
  have at_fresh : update (update owed fresh (some promise)) address none fresh = some promise := by
    rw [update_of_ne apart, update_self]
  have elsewhere {place : Nat} (other : place ≠ fresh) :
      update (update owed fresh (some promise)) address none place =
        update owed address none place := by
    by_cases same : place = address
    · rw [same, update_self, update_self]
    · rw [update_of_ne same, update_of_ne same, update_of_ne other]
  refine ⟨fun other member => ?_, fun other unmade => ?_⟩
  · by_cases same : promise = other
    · subst same
      rcases promises.promised promise member with ⟨place, only, unkept⟩ | ⟨value, none, -⟩
      · refine .owed fresh (fun place => ?_) unkept
        by_cases isFresh : place = fresh
        · rw [isFresh, at_fresh]
          exact ⟨fun _ => rfl, fun _ => rfl⟩
        · rw [elsewhere isFresh, update_none_iff, only]
          refine ⟨fun both => absurd (both.2.trans ((only address).mp here).symm) both.1,
            fun isHere => absurd isHere isFresh⟩
      · exact absurd here (none address)
    · have others (place : Nat) :
          update (update owed fresh (some promise)) address none place = some other ↔
          owed place = some other := by
        by_cases isFresh : place = fresh
        · rw [isFresh, at_fresh, free]
          exact ⟨fun owes => absurd (some.inj owes) same,
            fun owes => absurd owes.symm (some_ne_none _)⟩
        · rw [elsewhere isFresh, update_none_iff]
          refine ⟨And.right, fun owes => ⟨fun isAddress => same ?_, owes⟩⟩
          rw [isAddress] at owes
          exact some.inj (here.symm.trans owes)
      rcases promises.promised other member with ⟨place, only, unkept⟩ | ⟨value, none, once⟩
      · exact .owed place (fun place => (others place).trans (only place)) unkept
      · exact .kept value (fun place owes => none place ((others place).mp owes)) once
  · obtain ⟨none, unkept⟩ := promises.others other unmade
    refine ⟨fun place owes => ?_, unkept⟩
    by_cases isFresh : place = fresh
    · rw [isFresh, at_fresh] at owes
      exact unmade (some.inj owes ▸ promises.made_of_owed here)
    · rw [elsewhere isFresh] at owes
      exact none place (update_none_iff.mp owes).2

end Promises

end Idrm.Lib
