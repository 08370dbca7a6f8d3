import Mathlib.Data.List.Basic

/-!
# Renewing a keyed list

A list of entries with keys is renewed from a list of wanted keys: for each of them the first entry
with the key is pulled out of the old list, and one is made where there is none. What is pulled
has the keys that were wanted, in their order; where no key is wanted twice, it is the old entry
of every key that had one.
-/

namespace Idrm.Lib

open List

variable {κ ρ α : Type} [DecidableEq κ] (key : α → κ) (make : κ → ρ → α)

/-- The first entry with the wanted key, and the list without it; or a new one. -/
def pull (wanted : κ × ρ) (old : List α) : α × List α :=
  match old.find? (key · = wanted.1) with
  | none => (make wanted.1 wanted.2, old)
  | some entry => (entry, old.eraseP (key · = wanted.1))

/-- What is pulled for several keys, and what is left. -/
def pulls : List (κ × ρ) → List α → List α × List α
  | [], old => ([], old)
  | wanted :: rest, old =>
    ((pull key make wanted old).1 :: (pulls rest (pull key make wanted old).2).1,
      (pulls rest (pull key make wanted old).2).2)

variable {key make} {wanted : κ × ρ} {old : List α}

theorem pull_key (makes : ∀ name value, key (make name value) = name) :
    key (pull key make wanted old).1 = wanted.1 := by
  unfold pull
  split
  · exact makes _ _
  · rename_i entry found
    simpa using List.find?_some found

theorem pull_eq : (pull key make wanted old).1 = (old.find? (key · = wanted.1)).getD
      (make wanted.1 wanted.2) := by
  unfold pull
  split
  · rename_i missing
    rw [missing]
    rfl
  · rename_i entry found
    rw [found]
    rfl

/-- An entry of another key stays where it is. -/
theorem find?_eraseP_other {name other : κ} (apart : name ≠ other) :
    (old.eraseP (key · = other)).find? (key · = name) = old.find? (key · = name) := by
  induction old with
  | nil => rfl
  | cons entry rest ih =>
    by_cases same : key entry = other
    · rw [eraseP_cons_of_pos (by simpa using same), List.find?_cons_of_neg]
      simpa [same] using Ne.symm apart
    · rw [eraseP_cons_of_neg (by simpa using same), List.find?_cons, List.find?_cons, ih]

theorem pull_find?_other {name : κ} (apart : name ≠ wanted.1) :
    (pull key make wanted old).2.find? (key · = name) = old.find? (key · = name) := by
  unfold pull
  split
  · rfl
  · exact find?_eraseP_other apart

/-- An entry is pulled out where its key is there, and the list keeps its length where it is not. -/
theorem pull_length : (pull key make wanted old).2.length = if wanted.1 ∈ old.map key then
    old.length - 1 else old.length := by
  unfold pull
  split
  · rename_i missing
    rw [if_neg]
    rintro there
    obtain ⟨entry, member, same⟩ := mem_map.mp there
    exact absurd same (by simpa using List.find?_eq_none.mp missing entry member)
  · rename_i entry found
    have same : key entry = wanted.1 := by simpa using List.find?_some found
    have member := mem_of_find?_eq_some found
    rw [if_pos (same ▸ mem_map_of_mem member), length_eraseP_of_mem member (by simpa using same)]

/-- What is pulled and what is left have the old keys and the wanted one. -/
theorem mem_pull_keys (makes : ∀ name value, key (make name value) = name) {name : κ} :
    name ∈ ((pull key make wanted old).1 :: (pull key make wanted old).2).map key ↔
    name = wanted.1 ∨ name ∈ old.map key := by
  have there : ∀ entries : List α, name ∈ entries.map key ↔
      (entries.find? (key · = name)).isSome = true := by
    intro entries
    rw [List.find?_isSome, mem_map]
    simp only [decide_eq_true_eq]
  rw [map_cons, mem_cons, pull_key makes]
  by_cases same : name = wanted.1
  · exact iff_of_true (.inl same) (.inl same)
  · rw [or_iff_right same, or_iff_right same, there, there, pull_find?_other same]

/-- The keys pulled are the keys wanted. -/
theorem pulls_keys (makes : ∀ name value, key (make name value) = name) (all : List (κ × ρ)) :
    (pulls key make all old).1.map key = all.map (·.1) := by
  induction all generalizing old with
  | nil => rfl
  | cons wanted rest ih =>
    rw [pulls, map_cons, map_cons, pull_key makes, ih]

/-- Where no key is wanted twice, each pull sees the old list. -/
theorem pulls_of_nodup {all : List (κ × ρ)} (distinct : (all.map (·.1)).Nodup) :
    (pulls key make all old).1 = all.map fun wanted => (old.find? (key · = wanted.1)).getD
      (make wanted.1 wanted.2) := by
  induction all generalizing old with
  | nil => rfl
  | cons wanted rest ih =>
    rw [map_cons, nodup_cons] at distinct
    obtain ⟨fresh, distinct⟩ := distinct
    rw [pulls, map_cons, pull_eq, ih distinct]
    refine congrArg _ (map_congr_left fun other member => ?_)
    have apart : other.1 ≠ wanted.1 := fun same => fresh (same ▸ mem_map_of_mem member)
    rw [pull_find?_other apart]

end Idrm.Lib
