import Mathlib.Data.List.Basic
import Mathlib.Logic.Function.Basic

/-!
# Keyed lists

A list stands for a heap when its entries carry their addresses. Finding, changing and
removing the entry at an address does so in place, if no other entry has the address
(`OnlyAt`). Seen as a map from addresses (`entryAt`), each of these is an update.
-/

namespace Idrm.Lib

open Function List

variable {T : Type} {key : T → Nat} {front back : List T} {entry : T} {address : Nat}

/-- The entry between two parts of a list is the only one at its address. -/
structure OnlyAt (key : T → Nat) (address : Nat) (front : List T) (entry : T)
    (back : List T) : Prop where
  here : key entry = address
  front : ∀ other ∈ front, key other ≠ address
  back : ∀ other ∈ back, key other ≠ address

namespace OnlyAt

theorem find (only : OnlyAt key address front entry back) :
    (front ++ entry :: back).find? (fun other => key other = address) = some entry := by
  rw [List.find?_append,
    List.find?_eq_none.mpr fun other member => by simpa using only.front other member,
    List.find?_cons_of_pos (by simpa using only.here)]
  rfl

theorem filter (only : OnlyAt key address front entry back) :
    (front ++ entry :: back).filter (fun other => key other ≠ address) = front ++ back := by
  rw [filter_append, filter_cons_of_neg (by simpa using only.here),
    filter_eq_self.mpr fun other member => by simpa using only.front other member,
    filter_eq_self.mpr fun other member => by simpa using only.back other member]

theorem map (only : OnlyAt key address front entry back) (change : T → T) :
    (front ++ entry :: back).map (fun other => if key other = address then change other
      else other) = front ++ change entry :: back := by
  have unchanged : ∀ {part : List T}, (∀ other ∈ part, key other ≠ address) →
      part.map (fun other => if key other = address then change other else other) = part := by
    intro part different
    have same : ∀ other ∈ part, (if key other = address then change other else other) = other :=
      fun other member => if_neg (different other member)
    rw [map_congr_left same, map_id']
  rw [map_append, map_cons, if_pos only.here, unchanged only.front, unchanged only.back]

end OnlyAt

/-! ## A keyed list as a map -/

/-- What is at an address. -/
def entryAt (key : T → Nat) (entries : List T) (address : Nat) : Option T :=
  entries.find? fun other => key other = address

variable {entries : List T}

theorem entryAt_map (key : T → Nat) (entries : List T) (address : Nat) (change : T → T)
    (keeps : ∀ other, key other = address → key (change other) = address) :
    entryAt key (entries.map fun other => if key other = address then change other else other) =
      update (entryAt key entries) address ((entryAt key entries address).map change) := by
  funext place
  have sameKey :
      ∀ other, key (if key other = address then change other else other) = key other := by
    intro other
    split
    · rename_i here
      rw [keeps other here, here]
    · rfl
  unfold entryAt
  rw [List.find?_map]
  simp only [Function.comp_def, sameKey]
  by_cases same : place = address
  · subst same
    rw [update_self]
    refine Option.map_congr fun other found => ?_
    exact if_pos (by simpa using List.find?_some found)
  · rw [update_of_ne same]
    cases found : entries.find? (fun other => key other = place) with
    | none => rfl
    | some other =>
      have here : key other = place := by simpa using List.find?_some found
      exact congrArg some (if_neg (here ▸ same))

theorem entryAt_filter (key : T → Nat) (entries : List T) (address : Nat) :
    entryAt key (entries.filter (key · ≠ address)) = update (entryAt key entries) address none := by
  funext place
  unfold entryAt
  rw [List.find?_filter]
  by_cases same : place = address
  · subst same
    rw [update_self]
    exact List.find?_eq_none.mpr fun other _ => by simp
  · rw [update_of_ne same]
    congr 1
    funext other
    by_cases here : key other = place
    · simp [here, same]
    · simp [here]

theorem entryAt_append (entry : T) (absent : entryAt key entries (key entry) = none) :
    entryAt key (entries ++ [entry]) = update (entryAt key entries) (key entry) (some entry) := by
  funext place
  by_cases same : place = key entry
  · subst same
    unfold entryAt at absent ⊢
    rw [update_self, List.find?_append, absent]
    simp
  · rw [update_of_ne same]
    unfold entryAt
    rw [List.find?_append, List.find?_cons_of_neg (by simpa using Ne.symm same)]
    simp

/-- An entry goes to the end of the list. -/
theorem entryAt_toEnd (key : T → Nat) (entries : List T) (address : Nat) :
    entryAt key (entries.filter (key · ≠ address) ++ entries.filter (key · = address)) =
      entryAt key entries := by
  funext place
  have front := congrFun (entryAt_filter key entries address) place
  unfold entryAt at front ⊢
  rw [List.find?_append, front]
  by_cases same : place = address
  · subst same
    rw [update_self, Option.none_or, List.find?_filter]
    congr 1
    funext other
    simp
  · have behind :
        (entries.filter (key · = address)).find? (fun other => key other = place) = none := by
      refine List.find?_eq_none.mpr fun other member here => same ?_
      have there := (mem_filter.mp member).2
      simp only [decide_eq_true_eq] at here there
      exact here.symm.trans there
    rw [update_of_ne same, behind, Option.or_none]

/-- Every entry is the one at its address. -/
def Addressed (key : T → Nat) (entries : List T) : Prop :=
  ∀ entry ∈ entries, entryAt key entries (key entry) = some entry

theorem Addressed.map (addressed : Addressed key entries) (address : Nat) (change : T → T)
    (keeps : ∀ other, key other = address → key (change other) = address) : Addressed key
      (entries.map fun other => if key other = address then change other else other) := by
  intro entry member
  obtain ⟨old, oldMember, rfl⟩ := mem_map.mp member
  have found := addressed old oldMember
  rw [entryAt_map key entries address change keeps]
  split
  · rename_i here
    rw [keeps old here, update_self, ← here, found]
    rfl
  · rename_i elsewhere
    rw [update_of_ne elsewhere, found]

theorem Addressed.filter (addressed : Addressed key entries) (address : Nat) :
    Addressed key (entries.filter (key · ≠ address)) := by
  intro entry member
  obtain ⟨oldMember, elsewhere⟩ := mem_filter.mp member
  rw [entryAt_filter, update_of_ne (by simpa using elsewhere), addressed entry oldMember]

theorem Addressed.append (addressed : Addressed key entries)
    (absent : entryAt key entries (key entry) = none) : Addressed key (entries ++ [entry]) := by
  intro other member
  rw [entryAt_append entry absent]
  rcases mem_append.mp member with old | new
  · have found := addressed other old
    have different : key other ≠ key entry := fun same => by
      rw [same, absent] at found
      cases found
    rw [update_of_ne different, found]
  · rw [mem_singleton.mp new, update_self]

theorem Addressed.toEnd (addressed : Addressed key entries) (address : Nat) :
    Addressed key (entries.filter (key · ≠ address) ++ entries.filter (key · = address)) := by
  intro entry member
  rw [entryAt_toEnd]
  refine addressed entry ?_
  rcases mem_append.mp member with front | behind
  · exact (mem_filter.mp front).1
  · exact (mem_filter.mp behind).1

end Idrm.Lib
