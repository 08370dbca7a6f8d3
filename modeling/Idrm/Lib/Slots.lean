import Mathlib.Data.List.Nodup
import Mathlib.Logic.Function.Basic

/-!
# Slot tables

A table keeps its entries in the slots of an array, some of which are empty. `content` is the
association list of its full slots in slot order; `lookup` of that list, seen as a map, is updated
by every change of one slot as long as no two entries have the same key. `probe` goes round the
array from some slot to the first one that is not taken.
-/

namespace Idrm.Lib

open Function List

/-! ## Association lists as maps -/

section Association

variable {κ ν : Type} {front back entries : List (κ × ν)} {key : κ} {value old : ν}

/-- Every key occurs once. -/
def DistinctKeys (entries : List (κ × ν)) : Prop := (entries.map Prod.fst).Nodup

/-- An entry between others has a key of its own exactly if the key is neither before nor behind
it. -/
theorem distinctKeys_middle {entry : κ × ν} : DistinctKeys (front ++ entry :: back) ↔
    entry.1 ∉ (front ++ back).map Prod.fst ∧ DistinctKeys (front ++ back) := by
  unfold DistinctKeys
  rw [map_append, map_cons, nodup_middle, nodup_cons, ← map_append]

variable [DecidableEq κ]

/-- What an association list has under each key. -/
def lookups (entries : List (κ × ν)) (key : κ) : Option ν := entries.lookup key

theorem lookups_absent (absent : key ∉ entries.map Prod.fst) : lookups entries key = none := by
  refine lookup_eq_none_iff.mpr fun entry member => ?_
  have different : key ≠ entry.1 := fun same => absent (same ▸ mem_map_of_mem member)
  simpa using different

theorem lookups_isSome_iff : (lookups entries key).isSome ↔ key ∈ entries.map Prod.fst := by
  rw [lookups, lookup_isSome_iff]
  constructor
  · rintro ⟨entry, member, same⟩
    have here : key = entry.1 := by simpa using same
    exact here ▸ mem_map_of_mem member
  · intro member
    obtain ⟨entry, entryMember, rfl⟩ := mem_map.mp member
    exact ⟨entry, entryMember, by simp⟩

/-- An entry whose key is not before it decides about its key, and about no other one. -/
theorem lookups_middle (absent : key ∉ front.map Prod.fst) (value : ν) : lookups
      (front ++ (key, value) :: back) = update (lookups (front ++ back)) key (some value) := by
  funext other
  have nothing : front.lookup key = none := lookups_absent absent
  unfold lookups
  rw [lookup_append, lookup_cons]
  by_cases same : other = key
  · subst same
    rw [update_self, nothing, beq_self_eq_true]
    rfl
  · rw [update_of_ne same, lookup_append, beq_false_of_ne same]

/-- A new value under a key that the list has. -/
theorem DistinctKeys.lookups_replace (distinct : DistinctKeys (front ++ (key, old) :: back))
    (value : ν) : lookups (front ++ (key, value) :: back) =
      update (lookups (front ++ (key, old) :: back)) key (some value) := by
  have absent : key ∉ front.map Prod.fst := fun member =>
    (distinctKeys_middle.mp distinct).1 (map_append ▸ mem_append_left _ member)
  rw [lookups_middle absent, lookups_middle absent, update_idem]

/-- An entry is taken out. -/
theorem DistinctKeys.lookups_erase (distinct : DistinctKeys (front ++ (key, old) :: back)) :
    lookups (front ++ back) = update (lookups (front ++ (key, old) :: back)) key none := by
  have elsewhere := (distinctKeys_middle.mp distinct).1
  have absent : key ∉ front.map Prod.fst :=
    fun member => elsewhere (map_append ▸ mem_append_left _ member)
  rw [lookups_middle absent, update_idem]
  refine (update_eq_self_iff.mpr ?_).symm
  exact (lookups_absent elsewhere).symm

/-- With distinct keys an association list is the graph of its map. -/
theorem DistinctKeys.lookups_eq_some_iff (distinct : DistinctKeys entries) :
    lookups entries key = some value ↔ (key, value) ∈ entries := by
  constructor
  · intro found
    obtain ⟨front, back, same, -⟩ := lookup_eq_some_iff.mp found
    rw [same]
    exact mem_append_right _ mem_cons_self
  · intro member
    obtain ⟨front, back, rfl⟩ := append_of_mem member
    rw [lookups_middle fun inFront => (distinctKeys_middle.mp distinct).1
      (map_append ▸ mem_append_left _ inFront), update_self]

/-- The values of a list are assigned one after the other. -/
def assignAll (map : κ → Option ν) (pairs : List (κ × ν)) : κ → Option ν :=
  pairs.foldl (fun map pair => update map pair.1 (some pair.2)) map

theorem assignAll_append (map : κ → Option ν) (front back : List (κ × ν)) :
    assignAll map (front ++ back) = assignAll (assignAll map front) back := foldl_append

/-- Values that agree with a map leave the map on their keys and nothing else changed. -/
theorem assignAll_agree {map : κ → Option ν} {pairs : List (κ × ν)}
    (agree : ∀ pair ∈ pairs, map pair.1 = some pair.2) (start : κ → Option ν) (key : κ) :
    assignAll start pairs key = if key ∈ pairs.map Prod.fst then map key else start key := by
  induction pairs generalizing start with
  | nil => rfl
  | cons pair rest ih =>
    obtain ⟨here, others⟩ := forall_mem_cons.mp agree
    have later := ih others (update start pair.1 (some pair.2))
    rw [assignAll] at later ⊢
    rw [foldl_cons, later, map_cons]
    by_cases same : key = pair.1
    · subst same
      rw [update_self, ← here, ite_self, if_pos mem_cons_self]
    · rw [update_of_ne same]
      simp only [mem_cons, same, false_or]

/-- Assigning the graph of a map yields the map. -/
theorem assignAll_graph {map : κ → Option ν}
    {pairs : List (κ × ν)} (graph : ∀ key value, (key, value) ∈ pairs ↔ map key = some value) :
    assignAll (fun _ => none) pairs = map := by
  funext key
  rw [assignAll_agree fun pair member => (graph pair.1 pair.2).mp member]
  split
  · rfl
  · rename_i absent
    cases here : map key with
    | none => rfl
    | some value => exact absurd (mem_map_of_mem ((graph key value).mpr here)) absent

end Association

/-! ## Slots -/

section Slots

variable {σ κ ν : Type} {entry : σ → Option (κ × ν)} {front back : List σ} {slot : σ}

/-- The entries of a table in slot order. -/
def content (entry : σ → Option (κ × ν)) (slots : List σ) : List (κ × ν) := slots.filterMap entry

theorem content_append (entry : σ → Option (κ × ν)) (front back : List σ) :
    content entry (front ++ back) = content entry front ++ content entry back := filterMap_append

theorem content_full {pair : κ × ν} (full : entry slot = some pair) (front back : List σ) :
    content entry (front ++ slot :: back) = content entry front ++ pair :: content entry back := by
  rw [content_append]
  congr 1
  exact filterMap_cons_some full

theorem content_empty (empty : entry slot = none) (front back : List σ) :
    content entry (front ++ slot :: back) = content entry front ++ content entry back := by
  rw [content_append]
  congr 1
  exact filterMap_cons_none empty

theorem content_replicate (empty : entry slot = none) (count : Nat) :
    content entry (List.replicate count slot) = [] := by
  refine filterMap_eq_nil_iff.mpr fun other member => ?_
  rw [eq_of_mem_replicate member, empty]

/-- Looking for the slot with a key is looking up the key in the content. -/
theorem lookups_content [DecidableEq κ] {holds : σ → Bool} {key : κ} {slots : List σ}
    (spec : ∀ slot ∈ slots, holds slot = true ↔ ∃ value, entry slot = some (key, value)) :
    lookups (content entry slots) key = (slots.find? holds).bind fun slot =>
      (entry slot).map Prod.snd := by
  induction slots with
  | nil => rfl
  | cons first rest ih =>
    have others := ih fun slot member => spec slot (mem_cons_of_mem _ member)
    have here := spec first mem_cons_self
    by_cases isHere : holds first = true
    · obtain ⟨value, full⟩ := here.mp isHere
      rw [content, filterMap_cons_some full, lookups, lookup_cons, beq_self_eq_true,
        List.find?_cons_of_pos isHere, Option.bind_some, full]
      rfl
    · rw [List.find?_cons_of_neg isHere, ← others]
      cases full : entry first with
      | none => rw [content, filterMap_cons_none full, content]
      | some pair =>
        obtain ⟨other, value⟩ := pair
        have different : key ≠ other := by
          rintro rfl
          exact isHere (here.mpr ⟨value, full⟩)
        rw [content, filterMap_cons_some full, lookups, lookup_cons, beq_false_of_ne different]
        rfl

/-- The slots around the one at an index. -/
theorem exists_around {slots : List σ} {index : Nat} (here : slots[index]? = some slot) :
    ∃ front back, slots = front ++ slot :: back ∧ front.length = index := by
  obtain ⟨inside, rfl⟩ := List.getElem?_eq_some_iff.mp here
  exact ⟨slots.take index, slots.drop (index + 1), by simp, length_take_of_le (Nat.le_of_lt inside)⟩

theorem set_around (front back : List σ) (slot fresh : σ) :
    (front ++ slot :: back).set front.length fresh = front ++ fresh :: back := by
  rw [set_append_right _ _ (Nat.le_refl _), Nat.sub_self, set_cons_zero]

theorem modify_around (front back : List σ) (slot : σ) (change : σ → σ) :
    (front ++ slot :: back).modify front.length change = front ++ change slot :: back := by
  rw [modify_eq_take_drop, take_left', drop_left']
  · rfl
  · rfl
  · rfl

/-- A table whose slots are not all full has an empty one. -/
theorem exists_empty {slots : List σ} (room : (content entry slots).length < slots.length) :
    ∃ slot ∈ slots, entry slot = none := by
  by_contra! full
  have each : ∀ slot ∈ slots, ∃ pair, entry slot = some pair := fun slot member =>
    Option.ne_none_iff_exists'.mp (full slot member)
  have all : (content entry slots).length = slots.length := by
    clear room full
    induction slots with
    | nil => rfl
    | cons first rest ih =>
      obtain ⟨pair, here⟩ := each first mem_cons_self
      have others := ih fun slot member => each slot (mem_cons_of_mem _ member)
      rw [content, filterMap_cons_some here, length_cons, length_cons, ← others]
      rfl
  omega

end Slots

/-! ## Looking for a free slot -/

section Probe

variable {σ : Type} {taken : σ → Bool} {slots : List σ}

/-- Go round the array from a slot on, up to a slot that is not taken. -/
def probe (taken : σ → Bool) (slots : List σ) : Nat → Nat → Option Nat
  | 0, _ => none
  | steps + 1, index =>
    match slots[index]? with
    | none => none
    | some slot =>
      if taken slot then probe taken slots steps (if index + 1 = slots.length then 0 else index + 1)
        else some index

/-- What is found is a slot that is not taken. -/
theorem probe_free {steps start index : Nat} (found : probe taken slots steps start = some index) :
    ∃ slot, slots[index]? = some slot ∧ taken slot = false := by
  induction steps generalizing start with
  | zero => cases found
  | succ steps ih =>
    rw [probe] at found
    split at found
    · cases found
    rename_i slot here
    split at found
    · exact ih found
    · rename_i free
      obtain rfl := Option.some.inj found
      exact ⟨slot, here, by simpa using free⟩

/-- The way from one slot to another around the array. -/
def distance (slots : List σ) (start stop : Nat) : Nat :=
  if start ≤ stop then stop - start else stop + slots.length - start

/-- A free slot is reached if there are steps enough. -/
theorem probe_of_distance {start stop : Nat}
    {slot : σ} (here : slots[stop]? = some slot) (free : taken slot = false)
    (inside : start < slots.length) {steps : Nat} (enough : distance slots start stop < steps) :
    ∃ index, probe taken slots steps start = some index := by
  have stopInside : stop < slots.length := (List.getElem?_eq_some_iff.mp here).1
  induction steps generalizing start with
  | zero => cases enough
  | succ steps ih =>
    obtain ⟨first, firstHere⟩ : ∃ first, slots[start]? = some first :=
      ⟨_, List.getElem?_eq_getElem inside⟩
    rw [probe, firstHere]
    by_cases isTaken : taken first = true
    · have elsewhere : start ≠ stop := by
        rintro rfl
        rw [here] at firstHere
        rw [← Option.some.inj firstHere, free] at isTaken
        cases isTaken
      simp only [isTaken, if_true]
      unfold distance at enough
      by_cases last : start + 1 = slots.length
      · rw [if_pos last]
        refine ih (by omega) ?_
        rw [if_neg (by omega)] at enough
        rw [distance, if_pos (Nat.zero_le _)]
        omega
      · rw [if_neg last]
        refine ih (by omega) ?_
        unfold distance
        split at enough
        · rw [if_pos (by omega)]
          omega
        · rw [if_neg (by omega)]
          omega
    · simp only [Bool.not_eq_true] at isTaken
      simp only [isTaken, Bool.false_eq_true, if_false]
      exact ⟨start, rfl⟩

/-- One round finds a free slot if there is one. -/
theorem probe_round (taken : σ → Bool) {slot : σ} (member : slot ∈ slots)
    (free : taken slot = false) {start : Nat} (inside : start < slots.length) :
    ∃ index, probe taken slots slots.length start = some index := by
  obtain ⟨stop, stopInside, here⟩ := mem_iff_getElem.mp member
  refine probe_of_distance (List.getElem?_eq_some_iff.mpr ⟨stopInside, here⟩) free inside ?_
  unfold distance
  split <;> omega

end Probe

end Idrm.Lib
