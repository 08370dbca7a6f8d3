import Mathlib.Data.List.Nodup

/-!
# Values on the shelves of their owners

A list of owners, each with the values it has; a value is found by its owner and its key.
Nearly every operation changes the values on one shelf and leaves the others where they
are (`Reshelved`). An owner is listed once and has one value at most under a key
(`Shelved`) as long as no operation puts a second one there, and then the shelves are a
map (`valueAt`).
-/

namespace Idrm.Lib

open List

/-- Owners, each with its values. -/
abbrev Shelves (P V : Type) := List (P × List V)

variable {P K V : Type} {key : V → K} {owner : P} {shelves next : Shelves P V}

/-- Every owner is listed once, and has one value at most under a key. -/
structure Shelved (key : V → K) (shelves : Shelves P V) : Prop where
  owners : (shelves.map Prod.fst).Nodup
  values : ∀ shelf ∈ shelves, (shelf.2.map key).Nodup

theorem shelved_nil : Shelved key ([] : Shelves P V) where
  owners := nodup_nil
  values := fun _ member => absurd member not_mem_nil

/-- The values on one shelf of an owner are others, and nothing else is. -/
def Reshelved (owner : P) (values changed : List V) (shelves next : Shelves P V) : Prop :=
  ∃ front back, shelves = front ++ (owner, values) :: back ∧
    next = front ++ (owner, changed) :: back

theorem Reshelved.cons {values changed : List V}
    (reshelved : Reshelved owner values changed shelves next)
    (shelf : P × List V) : Reshelved owner values changed (shelf :: shelves) (shelf :: next) := by
  obtain ⟨front, back, rfl, rfl⟩ := reshelved
  exact ⟨shelf :: front, back, rfl, rfl⟩

theorem Reshelved.head (owner : P) (values changed : List V) (rest : Shelves P V) :
    Reshelved owner values changed ((owner, values) :: rest) ((owner, changed) :: rest) :=
  ⟨[], rest, rfl, rfl⟩

theorem Reshelved.shelved {values changed : List V}
    (reshelved : Reshelved owner values changed shelves next)
    (shelved : Shelved key shelves) (single : (values.map key).Nodup → (changed.map key).Nodup) :
    Shelved key next := by
  obtain ⟨front, back, rfl, rfl⟩ := reshelved
  constructor
  · have owners := shelved.owners
    rw [map_append, map_cons] at owners ⊢
    exact owners
  · intro shelf member
    rcases mem_append.mp member with before | member
    · exact shelved.values shelf (mem_append_left _ before)
    rcases mem_cons.mp member with rfl | behind
    · exact single (shelved.values (owner, values) (mem_append_right _ mem_cons_self))
    · exact shelved.values shelf (mem_append_right _ (mem_cons_of_mem _ behind))

/-- A shelf of an owner that had none. -/
theorem Shelved.newOwner (shelved : Shelved key shelves) (unknown : owner ∉ shelves.map Prod.fst)
    (value : V) : Shelved key ((owner, [value]) :: shelves) := by
  constructor
  · rw [map_cons]
    exact nodup_cons.mpr ⟨unknown, shelved.owners⟩
  · intro shelf member
    rcases mem_cons.mp member with rfl | behind
    · exact nodup_singleton _
    · exact shelved.values shelf behind

/-! ## What belongs to others -/

section Others

variable [DecidableEq P]

/-- The shelves of all but one owner. -/
def othersOf (owner : P) (shelves : Shelves P V) : Shelves P V :=
  shelves.filter fun shelf => shelf.1 ≠ owner

theorem Reshelved.others {values changed : List V}
    (reshelved : Reshelved owner values changed shelves next) :
    othersOf owner next = othersOf owner shelves := by
  obtain ⟨front, back, rfl, rfl⟩ := reshelved
  unfold othersOf
  rw [filter_append, filter_append, filter_cons_of_neg (by simp),
    filter_cons_of_neg (by simp)]

theorem othersOf_newOwner (owner : P) (values : List V) (shelves : Shelves P V) :
    othersOf owner ((owner, values) :: shelves) = othersOf owner shelves :=
  filter_cons_of_neg (by simp)

end Others

/-! ## The map -/

section Map

variable [DecidableEq P] [DecidableEq K]

/-- The value of an owner under a key. -/
def valueAt (key : V → K) (owner : P) (place : K) (shelves : Shelves P V) : Option V :=
  (shelves.find? fun shelf => shelf.1 = owner).bind fun shelf => shelf.2.find? fun value =>
    key value = place

/-- The shelf of an owner is found where it is. -/
theorem find_shelf {front back : Shelves P V} {values : List V}
    (owners : ((front ++ (owner, values) :: back).map Prod.fst).Nodup) :
    (front ++ (owner, values) :: back).find? (fun shelf => shelf.1 = owner) =
      some (owner, values) := by
  have before : front.find? (fun shelf => shelf.1 = owner) = none := by
    refine List.find?_eq_none.mpr fun shelf member same => ?_
    rw [map_append, map_cons] at owners
    have apart := disjoint_of_nodup_append owners (mem_map_of_mem member)
    rw [decide_eq_true_eq.mp same] at apart
    exact apart mem_cons_self
  rw [List.find?_append, before, Option.none_or, List.find?_cons_of_pos (by simp)]

theorem Reshelved.valueAt_before {values changed : List V}
    (reshelved : Reshelved owner values changed shelves next)
    (shelved : Shelved key shelves) (place : K) :
    valueAt key owner place shelves = values.find? fun value => key value = place := by
  obtain ⟨front, back, rfl, rfl⟩ := reshelved
  rw [valueAt, find_shelf shelved.owners]
  rfl

theorem Reshelved.valueAt_behind {values changed : List V}
    (reshelved : Reshelved owner values changed shelves next) (shelved : Shelved key shelves)
    (place : K) : valueAt key owner place next = changed.find? fun value => key value = place := by
  obtain ⟨front, back, rfl, rfl⟩ := reshelved
  have owners := shelved.owners
  rw [map_append, map_cons] at owners
  rw [valueAt, find_shelf (by rw [map_append, map_cons]; exact owners)]
  rfl

/-- The map of one owner does not depend on the shelf of another. -/
theorem valueAt_others {other : P} (different : other ≠ owner)
    (same : othersOf owner next = othersOf owner shelves)
    (place : K) : valueAt key other place next = valueAt key other place shelves := by
  have kept : ∀ list : Shelves P V, list.find? (fun shelf => shelf.1 = other) =
      (othersOf owner list).find? (fun shelf => shelf.1 = other) := by
    intro list
    rw [othersOf, List.find?_filter]
    congr 1
    funext shelf
    by_cases here : shelf.1 = other
    · have elsewhere : shelf.1 ≠ owner := here ▸ different
      simp [here, different]
    · simp [here]
  rw [valueAt, valueAt, kept next, kept shelves, same]

/-- Without a value under a key, none of the values of the owner has it. -/
theorem valueAt_none
      (absent : ∀ shelf ∈ shelves, shelf.1 = owner → ∀ value ∈ shelf.2, key value ≠ place) :
    valueAt key owner place shelves = none := by
  unfold valueAt
  cases found : shelves.find? (fun shelf => shelf.1 = owner) with
  | none => rfl
  | some shelf =>
    have here := List.find?_some found
    rw [Option.bind_some]
    refine List.find?_eq_none.mpr fun value member => ?_
    simpa using absent shelf (mem_of_find?_eq_some found) (by simpa using here) value member

end Map

/-! ## Taking values out and putting them in -/

section Values

variable {value changed : V} {before after : List V} {place : K}

theorem nodup_taken (single : ((before ++ value :: after).map key).Nodup) :
    ((before ++ after).map key).Nodup :=
  single.sublist (((sublist_cons_self value after).append_left before).map key)

theorem map_changed (sameKey : key changed = key value) :
    (before ++ changed :: after).map key = (before ++ value :: after).map key := by
  rw [map_append, map_append, map_cons, map_cons, sameKey]

variable [DecidableEq K]

/-- Where keys differ, a value is found wherever it is. -/
theorem find_single (single : ((before ++ value :: after).map key).Nodup) :
    (before ++ value :: after).find? (fun other => key other = key value) = some value := by
  have ahead : before.find? (fun other => key other = key value) = none := by
    refine List.find?_eq_none.mpr fun other member same => ?_
    rw [map_append, map_cons] at single
    have apart := disjoint_of_nodup_append single (mem_map_of_mem member)
    rw [decide_eq_true_eq.mp same] at apart
    exact apart mem_cons_self
  rw [List.find?_append, ahead, Option.none_or, List.find?_cons_of_pos (by simp)]

/-- Nothing is left under the key of a value that was taken out. -/
theorem find_taken (single : ((before ++ value :: after).map key).Nodup) :
    (before ++ after).find? (fun other => key other = key value) = none := by
  rw [map_append, map_cons, nodup_middle, nodup_cons] at single
  refine List.find?_eq_none.mpr fun other member same => single.1 ?_
  rw [← map_append, ← decide_eq_true_eq.mp same]
  exact mem_map_of_mem member

theorem find_elsewhere (different : key value ≠ place) :
    (before ++ value :: after).find? (fun other => key other = place) =
      (before ++ after).find? (fun other => key other = place) := by
  rw [List.find?_append, List.find?_cons_of_neg (by simpa using different), ← List.find?_append]

end Values

/-! ## What an operation touches -/

section Touch

variable [DecidableEq P] [DecidableEq K]

/-- At most the value of an owner under one key is another. -/
structure Touches (key : V → K) (owner : P) (place : K) (shelves next : Shelves P V) : Prop where
  shelved : Shelved key next
  others : othersOf owner next = othersOf owner shelves
  elsewhere : ∀ {other}, other ≠ place →
    valueAt key owner other next = valueAt key owner other shelves

variable {value changed : V} {before after values : List V} {place : K} {last : Shelves P V}

theorem Shelved.touches (shelved : Shelved key shelves) (owner : P) (place : K) :
    Touches key owner place shelves shelves :=
  ⟨shelved, rfl, fun _ => rfl⟩

theorem Touches.trans (first : Touches key owner place shelves next)
    (second : Touches key owner place next last) : Touches key owner place shelves last where
  shelved := second.shelved
  others := second.others.trans first.others
  elsewhere := fun different => (second.elsewhere different).trans (first.elsewhere different)

/-- What another owner has, or the owner under another key, is what it was. -/
theorem Touches.frame (touches : Touches key owner place shelves next) {other : P} {elsewhere : K}
    (different : other = owner → elsewhere ≠ place) :
    valueAt key other elsewhere next = valueAt key other elsewhere shelves := by
  by_cases same : other = owner
  · subst same
    exact touches.elsewhere (different rfl)
  · exact valueAt_others same touches.others elsewhere

/-- A value is taken out. -/
theorem Reshelved.taken
      (reshelved : Reshelved owner (before ++ value :: after) (before ++ after) shelves next)
    (shelved : Shelved key shelves) : Touches key owner (key value) shelves next ∧
    valueAt key owner (key value) shelves = some value ∧
    valueAt key owner (key value) next = none := by
  have single : ((before ++ value :: after).map key).Nodup := by
    obtain ⟨front, back, rfl, rfl⟩ := reshelved
    exact shelved.values _ (mem_append_right _ mem_cons_self)
  refine ⟨⟨reshelved.shelved shelved nodup_taken, reshelved.others, ?_⟩, ?_, ?_⟩
  · intro other different
    rw [reshelved.valueAt_before shelved, reshelved.valueAt_behind shelved,
      find_elsewhere different.symm]
  · rw [reshelved.valueAt_before shelved, find_single single]
  · rw [reshelved.valueAt_behind shelved, find_taken single]

/-- A value is put in front of those of its owner. -/
theorem Reshelved.put (reshelved : Reshelved owner values (value :: values) shelves next)
    (shelved : Shelved key shelves) (absent : valueAt key owner (key value) shelves = none) :
    Touches key owner (key value) shelves next ∧
    valueAt key owner (key value) next = some value := by
  rw [reshelved.valueAt_before shelved, List.find?_eq_none] at absent
  have fresh : key value ∉ values.map key := by
    intro member
    obtain ⟨other, inside, same⟩ := mem_map.mp member
    exact absent other inside (decide_eq_true same)
  refine ⟨⟨reshelved.shelved shelved fun single => ?_, reshelved.others, ?_⟩, ?_⟩
  · rw [map_cons]
    exact nodup_cons.mpr ⟨fresh, single⟩
  · intro other different
    rw [reshelved.valueAt_before shelved, reshelved.valueAt_behind shelved,
      List.find?_cons_of_neg (by simpa using different.symm)]
  · rw [reshelved.valueAt_behind shelved, List.find?_cons_of_pos (by simp)]

/-- A value is put on the shelf of an owner that had none. -/
theorem Shelved.put (shelved : Shelved key shelves) (unknown : owner ∉ shelves.map Prod.fst)
    (value : V) : Touches key owner (key value) shelves ((owner, [value]) :: shelves) ∧
    valueAt key owner (key value) ((owner, [value]) :: shelves) = some value := by
  have here : ∀ place : K, valueAt key owner place ((owner, [value]) :: shelves) =
      [value].find? fun other => key other = place := by
    intro place
    rw [valueAt, List.find?_cons_of_pos (by simp)]
    rfl
  refine ⟨⟨shelved.newOwner unknown value, othersOf_newOwner owner _ shelves, ?_⟩, ?_⟩
  · intro other different
    rw [here, List.find?_cons_of_neg (by simpa using different.symm), List.find?_nil]
    refine (valueAt_none fun shelf member same => ?_).symm
    exact absurd (same ▸ mem_map_of_mem member) unknown
  · rw [here, List.find?_cons_of_pos (by simp)]

/-- A value is changed where it is, and keeps its key. -/
theorem Reshelved.replaced (reshelved : Reshelved owner (before ++ value :: after)
      (before ++ changed :: after) shelves next)
    (shelved : Shelved key shelves) (sameKey : key changed = key value) : Touches key owner
      (key value) shelves next ∧ valueAt key owner (key value) next = some changed := by
  have single : ((before ++ value :: after).map key).Nodup := by
    obtain ⟨front, back, rfl, rfl⟩ := reshelved
    exact shelved.values _ (mem_append_right _ mem_cons_self)
  refine ⟨⟨reshelved.shelved shelved fun _ => ?_, reshelved.others, ?_⟩, ?_⟩
  · rw [map_changed sameKey]
    exact single
  · intro other different
    rw [reshelved.valueAt_before shelved, reshelved.valueAt_behind shelved,
      find_elsewhere (by rw [sameKey]; exact different.symm), find_elsewhere different.symm]
  · rw [reshelved.valueAt_behind shelved, ← sameKey]
    exact find_single (by rw [map_changed sameKey]; exact single)

end Touch

/-! ## Clearing shelves -/

section Prune

variable (keep : V → Bool)

/-- The values that are kept, on the shelves that have any. -/
def pruned (shelves : Shelves P V) : Shelves P V :=
  (shelves.map fun shelf => (shelf.1, shelf.2.filter keep)).filter fun shelf => !shelf.2.isEmpty

theorem pruned_cons (shelf : P × List V) (shelves : Shelves P V) :
    pruned keep (shelf :: shelves) =
      if (shelf.2.filter keep).isEmpty then pruned keep shelves
      else (shelf.1, shelf.2.filter keep) :: pruned keep shelves := by
  unfold pruned
  rw [map_cons, filter_cons]
  cases (shelf.2.filter keep).isEmpty with
  | true => rfl
  | false => rfl

theorem Shelved.pruned (shelved : Shelved key shelves) : Shelved key (pruned keep shelves) := by
  constructor
  · have owners := shelved.owners
    have same : (shelves.map fun shelf => (shelf.1, shelf.2.filter keep)).map Prod.fst =
        shelves.map Prod.fst := by
      rw [map_map]
      rfl
    rw [← same] at owners
    exact owners.sublist (filter_sublist.map Prod.fst)
  · intro shelf member
    obtain ⟨origin, inside, rfl⟩ := mem_map.mp (mem_filter.mp member).1
    exact (shelved.values origin inside).sublist (filter_sublist.map key)

variable [DecidableEq P] [DecidableEq K] {value : V} {place : K}

/-- Where owners and keys differ, the map has what is on the shelves. -/
theorem Shelved.valueAt_iff (shelved : Shelved key shelves) :
    valueAt key owner place shelves = some value ↔
      ∃ values, (owner, values) ∈ shelves ∧ value ∈ values ∧ key value = place := by
  constructor
  · intro found
    obtain ⟨shelf, finds, there⟩ := Option.bind_eq_some_iff.mp found
    have same : shelf.1 = owner := by simpa using List.find?_some finds
    have here : key value = place := by simpa using List.find?_some there
    subst same
    exact ⟨shelf.2, mem_of_find?_eq_some finds, mem_of_find?_eq_some there, here⟩
  · rintro ⟨values, member, inside, rfl⟩
    obtain ⟨front, back, rfl⟩ := append_of_mem member
    obtain ⟨before, after, rfl⟩ := append_of_mem inside
    rw [valueAt, find_shelf shelved.owners]
    exact find_single (shelved.values _ member)

/-- What is left was there. -/
theorem Shelved.valueAt_pruned (shelved : Shelved key shelves)
    (left : valueAt key owner place (Idrm.Lib.pruned keep shelves) = some value) :
    valueAt key owner place shelves = some value := by
  obtain ⟨values, member, inside, here⟩ := (shelved.pruned keep).valueAt_iff.mp left
  obtain ⟨shelf, origin, same⟩ := mem_map.mp (mem_filter.mp member).1
  cases same
  exact shelved.valueAt_iff.mpr ⟨shelf.2, origin, (mem_filter.mp inside).1, here⟩

end Prune

end Idrm.Lib
