import Mathlib.Logic.Relation

/-!
# What every run comes to

A step relation may leave a choice in every state. `Inevitably` says that no choice
matters: no run stops before it has come to a goal, and none goes on without it.
`Inevitably.rounds` is the induction rule for transfers that advance round by round.
-/

namespace Idrm.Lib

variable {σ : Type} {step : σ → σ → Prop} {goal middle : σ → Prop} {state : σ}

/-- Every run from a state comes to a goal. -/
inductive Inevitably (step : σ → σ → Prop) (goal : σ → Prop) : σ → Prop
  | here {state : σ} : goal state → Inevitably step goal state
  | after {state : σ} : (∃ next, step state next) →
      (∀ next, step state next → Inevitably step goal next) → Inevitably step goal state

theorem Inevitably.trans (first : Inevitably step middle state)
    (second : ∀ state, middle state → Inevitably step goal state) : Inevitably step goal state := by
  induction first with
  | here holds => exact second _ holds
  | after some_next _ ih => exact .after some_next ih

/-- Where every round comes to the next one, the last one is come to. -/
theorem Inevitably.rounds {round : Nat → σ → Prop} {last : Nat} (advances : ∀ index < last,
      ∀ state, round index state → Inevitably step (round (index + 1)) state)
    (holds : round 0 state) : Inevitably step (round last) state := by
  induction last with
  | zero => exact .here holds
  | succ before ih =>
    have earlier := ih fun index bound => advances index (Nat.lt_succ_of_lt bound)
    exact earlier.trans (advances before (Nat.lt_succ_self before))

/-- Where a run has only one way to go on, the next state decides. -/
theorem inevitably_next {after : σ} (only : ∀ next, step state next ↔ next = after)
    (apart : ¬ goal state) : Inevitably step goal state ↔ Inevitably step goal after := by
  refine ⟨fun inevitable => ?_,
    fun inevitable => .after ⟨after, (only after).mpr rfl⟩ fun next stepped => ?_⟩
  · cases inevitable with
    | here reached => exact absurd reached apart
    | after _ later => exact later after ((only after).mpr rfl)
  · exact (only next).mp stepped ▸ inevitable

/-- No goal is inevitable where a run can always go on without it. -/
theorem not_inevitably {stays : σ → Prop} (apart : ∀ state, stays state → ¬ goal state)
    (goesOn : ∀ state, stays state → ∃ next, step state next ∧ stays next) (holds : stays state) :
    ¬ Inevitably step goal state := by
  intro inevitable
  induction inevitable with
  | here reached => exact apart _ holds reached
  | after _ _ ih =>
    obtain ⟨next, stepped, kept⟩ := goesOn _ holds
    exact ih next stepped kept

/-- What is inevitable is reached by some run. -/
theorem Inevitably.reached (inevitable : Inevitably step goal state) :
    ∃ final, Relation.ReflTransGen step state final ∧ goal final := by
  induction inevitable with
  | here holds => exact ⟨_, .refl, holds⟩
  | after some_next _ ih =>
    obtain ⟨next, steps⟩ := some_next
    obtain ⟨final, reaches, holds⟩ := ih next steps
    exact ⟨final, .head steps reaches, holds⟩

end Idrm.Lib
