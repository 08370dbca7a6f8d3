import Mathlib.Data.List.Induction

/-!
# Runs of partial state machines

A component takes one call at a time; a call that trips an assertion has no
result. `runAll` performs a sequence of calls, and `runAll_safe` is the invariant
rule: what the start satisfies and every call both survives and keeps, holds after
every sequence of calls. The invariant may speak about the calls performed so far.
-/

namespace Idrm.Lib

open Option List

variable {σ ε : Type}

/-- Perform a sequence of calls, stopping at the first one that faults. -/
def runAll (perform : ε → σ → Option σ) : List ε → σ → Option σ
  | [], state => some state
  | event :: rest, state => (perform event state).bind (runAll perform rest)

theorem runAll_append (perform : ε → σ → Option σ) (front back : List ε) (state : σ) :
    runAll perform (front ++ back) state =
      (runAll perform front state).bind (runAll perform back) := by
  induction front generalizing state with
  | nil => rfl
  | cons event rest ih =>
    simp only [cons_append, runAll, bind_assoc]
    congr 1
    funext next
    exact ih next

theorem runAll_concat (perform : ε → σ → Option σ) (front : List ε) (event : ε) (state : σ) : runAll
      perform (front ++ [event]) state = (runAll perform front state).bind (perform event) := by
  rw [runAll_append]
  congr 1
  funext next
  simp [runAll]

/-- The invariant rule, for runs whose calls are all admitted. -/
theorem runAll_safe {perform : ε → σ → Option σ} (invariant : List ε → σ → Prop)
    (admitted : List ε → Prop) {start : σ} (initially : invariant [] start)
    (shorter : ∀ past event, admitted (past ++ [event]) → admitted past)
    (keeps : ∀ past event state, admitted (past ++ [event]) → invariant past state →
      ∃ next, perform event state = some next ∧ invariant (past ++ [event]) next)
    (events : List ε) (legal : admitted events) :
    ∃ final, runAll perform events start = some final ∧ invariant events final := by
  induction events using List.reverseRecOn with
  | nil => exact ⟨start, rfl, initially⟩
  | append_singleton past event ih =>
    obtain ⟨state, ran, holds⟩ := ih (shorter past event legal)
    obtain ⟨next, performed, kept⟩ := keeps past event state legal holds
    exact ⟨next, by rw [runAll_concat, ran, bind_some, performed], kept⟩

/-- What every call keeps, holds after a run that has a result. -/
theorem runAll_keeps {perform : ε → σ → Option σ} {invariant : σ → Prop}
    (step : ∀ {event state next}, invariant state →
      perform event state = some next → invariant next)
    {events : List ε} {start final : σ} (ran : runAll perform events start = some final)
    (initially : invariant start) : invariant final := by
  induction events generalizing start with
  | nil =>
    obtain rfl := some.inj ran
    exact initially
  | cons event rest ih =>
    obtain ⟨next, performed, later⟩ := bind_eq_some_iff.mp ran
    exact ih later (step initially performed)

/-- The calls a sequence gets to perform, each with the state before it; nothing is
performed behind one that faults. -/
def visited (perform : ε → σ → Option σ) : List ε → σ → List (σ × ε)
  | [], _ => []
  | event :: rest, state =>
    (state, event) :: ((perform event state).map (visited perform rest)).getD []

theorem visited_single (perform : ε → σ → Option σ) (event : ε) (state : σ) :
    visited perform [event] state = [(state, event)] := by
  rw [visited]
  cases perform event state with
  | none => rfl
  | some next => rfl

theorem mem_visited {perform : ε → σ → Option σ} {events : List ε} {start : σ} {visit : σ × ε}
    (member : visit ∈ visited perform events start) : visit.2 ∈ events := by
  induction events generalizing start with
  | nil => cases member
  | cons event rest ih =>
    rcases mem_cons.mp member with rfl | later
    · exact mem_cons_self
    cases performed : perform event start with
    | none =>
      rw [performed] at later
      cases later
    | some next =>
      rw [performed] at later
      exact mem_cons_of_mem _ (ih later)

/-- A run whose calls all meet a condition on the state before them. -/
inductive RunsUnder (perform : ε → σ → Option σ) (condition : σ → ε → Prop) : σ → List ε → σ → Prop
  | done (state : σ) : RunsUnder perform condition state [] state
  | call {state next final : σ} {event : ε} {rest : List ε} : condition state event →
      perform event state = some next → RunsUnder perform condition next rest final →
      RunsUnder perform condition state (event :: rest) final

/-- A run whose calls meet a condition is one under every weaker condition. -/
theorem RunsUnder.mono {perform : ε → σ → Option σ} {condition weaker : σ → ε → Prop}
    {start final : σ} {events : List ε} (runs : RunsUnder perform condition start events final)
    (weakens : ∀ {state event}, condition state event → weaker state event) :
    RunsUnder perform weaker start events final := by
  induction runs with
  | done state => exact .done state
  | call meets performed _ ih => exact .call (weakens meets) performed ih

/-- A run with a result is one under a condition that all its calls meet. -/
theorem runsUnder_of_visited {perform : ε → σ → Option σ} {condition : σ → ε → Prop}
    {events : List ε} {start final : σ} (ran : runAll perform events start = some final)
    (meets : ∀ visit ∈ visited perform events start, condition visit.1 visit.2) :
    RunsUnder perform condition start events final := by
  induction events generalizing start with
  | nil =>
    obtain rfl := some.inj ran
    exact .done start
  | cons event rest ih =>
    obtain ⟨next, performed, later⟩ := bind_eq_some_iff.mp ran
    rw [visited, performed, map_some, getD_some] at meets
    obtain ⟨here, behind⟩ := forall_mem_cons.mp meets
    exact .call here performed (ih later behind)

/-- It has its result. -/
theorem RunsUnder.ran {perform : ε → σ → Option σ} {condition : σ → ε → Prop}
    {start final : σ} {events : List ε} (runs : RunsUnder perform condition start events final) :
    runAll perform events start = some final := by
  induction runs with
  | done state => rfl
  | call meets performed _ ih => exact bind_eq_some_iff.mpr ⟨_, performed, ih⟩

/-- What every call that meets the condition keeps, holds after the run. -/
theorem RunsUnder.keeps {perform : ε → σ → Option σ} {condition : σ → ε → Prop}
    {invariant : σ → Prop} (step : ∀ {state next event}, invariant state → condition state event →
      perform event state = some next → invariant next)
    {start final : σ} {events : List ε} (runs : RunsUnder perform condition start events final)
    (initially : invariant start) : invariant final := by
  induction runs with
  | done state => exact initially
  | call meets performed _ ih => exact ih (step initially meets performed)

/-- What each call that meets a condition keeps, and no other one, holds after a run exactly if it
held before and every call met the condition. -/
theorem runAll_iff_visited {perform : ε → σ → Option σ} (invariant holds : σ → Prop)
    {condition : σ → ε → Prop}
    (step : ∀ {state next event}, invariant state → perform event state = some next →
      invariant next ∧ (holds next ↔ holds state ∧ condition state event))
    {events : List ε} {start final : σ}
    (ran : runAll perform events start = some final) (initially : invariant start) : holds final ↔
    holds start ∧ ∀ visit ∈ visited perform events start, condition visit.1 visit.2 := by
  induction events generalizing start with
  | nil =>
    obtain rfl := some.inj ran
    exact (and_iff_left fun _ member => absurd member not_mem_nil).symm
  | cons event rest ih =>
    obtain ⟨next, performed, later⟩ := bind_eq_some_iff.mp ran
    obtain ⟨kept, holds_iff⟩ := step initially performed
    rw [visited, performed, map_some, getD_some, forall_mem_cons, ← and_assoc, ← holds_iff]
    exact ih later kept

/-- A walk over a list keeps what every step keeps; the invariant may speak about the items
that are still to come. -/
theorem foldlM_walk {α : Type} {step : σ → α → Option σ} (invariant : List α → σ → Prop)
    (keeps : ∀ {item rest state next}, invariant (item :: rest) state →
      step state item = some next → invariant rest next)
    {items : List α} {state final : σ} (walked : items.foldlM step state = some final)
    (initially : invariant items state) : invariant [] final := by
  induction items generalizing state with
  | nil =>
    obtain rfl := some.inj walked
    exact initially
  | cons item rest ih =>
    rw [foldlM_cons] at walked
    obtain ⟨next, stepped, walked⟩ := bind_eq_some_iff.mp walked
    exact ih walked (keeps initially stepped)

/-- A walk whose steps all have a result has one. -/
theorem foldlM_total {α : Type} {step : σ → α → Option σ} (invariant : List α → σ → Prop)
    (steps : ∀ {item rest state}, invariant (item :: rest) state →
      ∃ next, step state item = some next ∧ invariant rest next)
    {items : List α} {state : σ} (initially : invariant items state) :
    ∃ final, items.foldlM step state = some final ∧ invariant [] final := by
  induction items generalizing state with
  | nil => exact ⟨state, rfl, initially⟩
  | cons item rest ih =>
    obtain ⟨next, stepped, kept⟩ := steps initially
    obtain ⟨final, walked, holds⟩ := ih kept
    exact ⟨final, by rw [foldlM_cons, stepped]; exact walked, holds⟩

end Idrm.Lib
