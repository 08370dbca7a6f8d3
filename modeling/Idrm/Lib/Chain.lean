import Mathlib.Data.List.Nodup
import Mathlib.Data.List.Perm.Subperm
import Mathlib.Data.Set.Insert
import Mathlib.Logic.Function.Basic

/-!
# Intrusive lists

The elements of a list live in a heap and carry the pointer to the next element themselves; a
list is the pointer to its first element. The operations follow the pointers, for as many
steps as they are given: a walk over a list that runs in a circle, and one that reads an
element which was freed, have no result.

`Segment` says which addresses a walk from one pointer to another goes through. On a list
without repetition `listRemove` and `listAdd` do what they do on a list of addresses, and
change nothing of an element but its pointer.
-/

namespace Idrm.Lib

open Function Option List

/-- Elements that carry a pointer to the next one. -/
class Chained (ν : Type) where
  next : ν → Option Nat
  setNext : Option Nat → ν → ν
  next_setNext : ∀ pointer node, next (setNext pointer node) = pointer
  setNext_setNext : ∀ first second node, setNext first (setNext second node) = setNext first node

attribute [simp] Chained.next_setNext Chained.setNext_setNext

open Chained

section Chain

variable {ν : Type} [Chained ν]

/-- The elements that are allocated, by their addresses. -/
abbrev Heap (ν : Type) := Nat → Option ν

/-- Write the pointer of an element. -/
def Heap.relink (address : Nat) (pointer : Option Nat) (heap : Heap ν) : Heap ν :=
  update heap address ((heap address).map (setNext pointer))

/-- The last element from one on. -/
def listTail (heap : Heap ν) : Nat → Nat → Option Nat
  | 0, _ => none
  | steps + 1, element => do
      match next (← heap element) with
      | none => some element
      | some later => listTail heap steps later

/-- What is before an element is made to point behind it: another element, or the list. -/
def Heap.bypass (previous pointer head : Option Nat) (heap : Heap ν) : Option Nat × Heap ν :=
  match previous with
  | none => (pointer, heap)
  | some previous => (head, heap.relink previous pointer)

/-- The walk of `listRemove`, from an element on. -/
def removeFrom (item : Nat) (head : Option Nat) (heap : Heap ν) :
    Nat → Option Nat → Option Nat → Option (Option Nat × Heap ν)
  | _, _, none => some (head, heap)
  | 0, _, some _ => none
  | steps + 1, previous, some element => do
      let pointer := next (← heap element)
      if element = item then
        let (head, heap) := heap.bypass previous pointer head
        some (head, heap.relink element none)
      else removeFrom item head heap steps (some element) pointer

/-- Remove an element, if it is in the list. -/
def listRemove (steps item : Nat) (head : Option Nat) (heap : Heap ν) :
    Option (Option Nat × Heap ν) :=
  removeFrom item head heap steps none head

/-- Add an element at the end; it is removed first. -/
def listAdd (steps item : Nat) (head : Option Nat) (heap : Heap ν) :
    Option (Option Nat × Heap ν) := do
  let (head, heap) ← listRemove steps item head heap
  let _ ← heap item
  let heap := heap.relink item none
  match head with
  | none => some (some item, heap)
  | some first => do
      let last ← listTail heap steps first
      some (head, heap.relink last (some item))

/-- The first element with a property. -/
def listFind (has : ν → Bool) (heap : Heap ν) : Nat → Option Nat → Option (Option Nat)
  | _, none => some none
  | 0, some _ => none
  | steps + 1, some element => do
      let node ← heap element
      if has node then some (some element) else listFind has heap steps (next node)

/-- A change of every element. -/
def listEach (change : ν → ν) : Nat → Option Nat → Heap ν → Option (Heap ν)
  | _, none, heap => some heap
  | 0, some _, _ => none
  | steps + 1, some element, heap => do
      let node ← heap element
      listEach change steps (next node) (update heap element (some (change node)))

/-! ## Segments -/

/-- The addresses on the way from one pointer to another. -/
def Segment (heap : Heap ν) : Option Nat → List Nat → Option Nat → Prop
  | start, [], stop => start = stop
  | start, address :: rest, stop => start = some address ∧ ∃ node, heap address = some node ∧
      Segment heap (next node) rest stop

/-- A whole list. -/
abbrev Linked (heap : Heap ν) (head : Option Nat) (items : List Nat) : Prop :=
  Segment heap head items none

variable {heap after : Heap ν} {start stop head : Option Nat} {items front back : List Nat}
  {item steps : Nat}

theorem Segment.append_iff : Segment heap start (front ++ back) stop ↔
    ∃ middle, Segment heap start front middle ∧ Segment heap middle back stop := by
  induction front generalizing start with
  | nil => exact ⟨fun segment => ⟨start, rfl, segment⟩, fun ⟨_, same, segment⟩ => same ▸ segment⟩
  | cons address front ih =>
    constructor
    · rintro ⟨first, node, here, segment⟩
      obtain ⟨middle, one, two⟩ := ih.mp segment
      exact ⟨middle, ⟨first, node, here, one⟩, two⟩
    · rintro ⟨middle, ⟨first, node, here, one⟩, two⟩
      exact ⟨first, node, here, ih.mpr ⟨middle, one, two⟩⟩

/-- What is at other addresses does not matter. -/
theorem Segment.frame (segment : Segment heap start items stop)
    (same : ∀ address ∈ items, (after address).map next = (heap address).map next) :
    Segment after start items stop := by
  induction items generalizing start with
  | nil => exact segment
  | cons address items ih =>
    obtain ⟨first, node, here, rest⟩ := segment
    have there := same address mem_cons_self
    rw [here] at there
    obtain ⟨node', here', pointer⟩ := map_eq_some_iff.mp there
    refine ⟨first, node', here', ?_⟩
    rw [pointer]
    exact ih rest fun other member => same other (mem_cons_of_mem _ member)

variable {address : Nat}

theorem Segment.allocated (segment : Segment heap start items stop) (member : address ∈ items) :
    ∃ node, heap address = some node := by
  induction items generalizing start with
  | nil => cases member
  | cons first items ih =>
    obtain ⟨-, node, here, rest⟩ := segment
    rcases mem_cons.mp member with rfl | member
    · exact ⟨node, here⟩
    · exact ih rest member

/-- The last element of a segment points to its end. -/
theorem Segment.last (segment : Segment heap start (front ++ [item]) stop) :
    Segment heap start front (some item) ∧ ∃ node, heap item = some node ∧ next node = stop := by
  obtain ⟨middle, one, first, node, here, rest⟩ := Segment.append_iff.mp segment
  exact ⟨first ▸ one, node, here, rest⟩

@[simp] theorem Heap.relink_other (pointer : Option Nat)
    {address other : Nat} (different : other ≠ address) (heap : Heap ν) :
    heap.relink address pointer other = heap other := update_of_ne different ..

@[simp] theorem Heap.relink_self (address : Nat) (pointer : Option Nat) (heap : Heap ν) :
    heap.relink address pointer address = (heap address).map (setNext pointer) := update_self ..

theorem Segment.relink (segment : Segment heap start items stop) (elsewhere : address ∉ items)
    (pointer : Option Nat) : Segment (heap.relink address pointer) start items stop := by
  refine segment.frame fun other member => ?_
  have different : other ≠ address := fun same => elsewhere (same ▸ member)
  rw [Heap.relink_other pointer different]

variable {node : ν}

/-- The element that a segment ends at belongs to the longer segment behind it. -/
theorem Segment.concat (segment : Segment heap start items (some item))
    (here : heap item = some node) : Segment heap start (items ++ [item]) (next node) :=
  Segment.append_iff.mpr ⟨some item, segment, rfl, node, here, rfl⟩

/-- The last element of a segment is made to point elsewhere. -/
theorem Segment.redirect (segment : Segment heap start (front ++ [item]) stop)
    (once : item ∉ front) (pointer : Option Nat) :
    Segment (heap.relink item pointer) start (front ++ [item]) pointer := by
  obtain ⟨before, node, here, -⟩ := segment.last
  refine Segment.append_iff.mpr ⟨some item, before.relink once pointer, rfl, setNext pointer node,
    ?_, next_setNext _ _⟩
  rw [Heap.relink_self, here, map_some]

/-- A heap with other pointers, and nothing else different. -/
def Relinked (before after : Heap ν) : Prop :=
  ∀ address, (after address).map (setNext none) = (before address).map (setNext none)

theorem Relinked.refl (heap : Heap ν) : Relinked heap heap := fun _ => rfl

theorem Relinked.trans {first second third : Heap ν}
    (one : Relinked first second) (two : Relinked second third) :
    Relinked first third := fun address => (two address).trans (one address)

theorem relinked_relink (address : Nat) (pointer : Option Nat) (heap : Heap ν) :
    Relinked heap (heap.relink address pointer) := by
  intro other
  by_cases same : other = address
  · subst same
    rw [Heap.relink_self]
    cases heap other with
    | none => rfl
    | some node => simp
  · rw [Heap.relink_other pointer same]

/-- An element is where it was, with another pointer at most. -/
theorem Relinked.some (relinked : Relinked heap after) (here : heap address = some node) :
    ∃ node', after address = Option.some node' ∧ setNext none node' = setNext none node := by
  have same := relinked address
  rw [here] at same
  obtain ⟨node', here', equal⟩ := map_eq_some_iff.mp same
  exact ⟨node', here', equal⟩

/-- Two walks to the end of a list are the same. -/
theorem Linked.unique {start : Option Nat} {others : List Nat} (linked : Linked heap start items)
    (again : Linked heap start others) : items = others := by
  induction items generalizing start others with
  | nil =>
    obtain rfl : start = none := linked
    cases others with
    | nil => rfl
    | cons address rest => cases again.1
  | cons address items ih =>
    obtain ⟨rfl, node, here, rest⟩ := linked
    cases others with
    | nil => cases (again : some address = none)
    | cons other others =>
      obtain ⟨first, node', here', rest'⟩ := again
      cases first
      obtain rfl := some.inj (here.symm.trans here')
      rw [ih rest rest']

/-- A list goes on behind any part of it that was walked. -/
theorem Segment.rest {start stop : Option Nat} (segment : Segment heap start front stop)
    (linked : Linked heap start items) : ∃ rest, Linked heap stop rest := by
  induction front generalizing start items with
  | nil =>
    obtain rfl : start = stop := segment
    exact ⟨items, linked⟩
  | cons address front ih =>
    obtain ⟨rfl, node, here, segment⟩ := segment
    cases items with
    | nil => cases (linked : some address = none)
    | cons other items =>
      obtain ⟨first, node', here', linked⟩ := linked
      cases first
      obtain rfl := some.inj (here.symm.trans here')
      exact ih segment linked

/-- A list that leads back to where it starts has no end. -/
theorem Segment.no_end {start : Option Nat} {rest : List Nat}
    (circle : Segment heap start (address :: rest) start) : ¬ Linked heap start items := by
  intro linked
  have around : Linked heap start (address :: rest ++ items) :=
    Segment.append_iff.mpr ⟨start, circle, linked⟩
  have same := congrArg List.length (Linked.unique linked around)
  rw [length_append, length_cons] at same
  omega

/-! ## The operations -/

theorem listTail_eq {first : Nat} (linked : Linked heap (some first) (front ++ [item]))
    (enough : front.length < steps) : listTail heap steps first = some item := by
  induction steps generalizing first front with
  | zero => exact absurd enough (Nat.not_lt_zero _)
  | succ steps ih =>
    cases front with
    | nil =>
      obtain ⟨isFirst, node, here, pointer⟩ := linked
      cases isFirst
      have last : next node = none := pointer
      simp [listTail, here, last]
    | cons address front =>
      obtain ⟨isFirst, node, here, rest⟩ := linked
      cases isFirst
      obtain ⟨later, pointer⟩ : ∃ later, next node = some later := by
        cases front with
        | nil => exact ⟨_, rest.1⟩
        | cons other front => exact ⟨_, rest.1⟩
      rw [pointer] at rest
      have fewer : front.length < steps := by simpa using enough
      simp [listTail, here, pointer, ih rest fewer]

theorem removeFrom_absent {element : Option Nat} (previous : Option Nat)
    (linked : Linked heap element items) (absent : item ∉ items) (enough : items.length ≤ steps) :
    removeFrom item head heap steps previous element = some (head, heap) := by
  induction items generalizing element previous steps with
  | nil =>
    obtain rfl : element = none := linked
    simp [removeFrom]
  | cons address items ih =>
    obtain ⟨rfl, node, here, rest⟩ := linked
    have other : address ≠ item := fun same => absent (same ▸ mem_cons_self)
    cases steps with
    | zero => exact absurd enough (by simp)
    | succ steps =>
      have later := ih (some address) rest
        (fun member => absent (mem_cons_of_mem _ member)) (by simpa using enough)
      simp [removeFrom, here, other, later]

/-- A walk remembers the last element that it went past. -/
theorem lastOr_cons (first : Nat) (front : List Nat) (previous : Option Nat) :
    (first :: front).getLast?.or previous = front.getLast?.or (some first) := by
  cases front with
  | nil => rfl
  | cons second front => simp [List.getLast?_cons]

theorem removeFrom_found {element : Option Nat}
    (previous : Option Nat) (linked : Linked heap element (front ++ item :: back))
    (first : item ∉ front) (here : heap item = some node) (enough : front.length < steps) :
    removeFrom item head heap steps previous element =
      some ((heap.bypass (front.getLast?.or previous) (next node) head).1,
      (heap.bypass (front.getLast?.or previous) (next node) head).2.relink item none) := by
  induction front generalizing element previous steps with
  | nil =>
    obtain ⟨rfl, -, -, -⟩ := linked
    cases steps with
    | zero => exact absurd enough (Nat.not_lt_zero _)
    | succ steps => simp [removeFrom, here]
  | cons address front ih =>
    obtain ⟨rfl, other, there, rest⟩ := linked
    have different : address ≠ item := fun same => first (same ▸ mem_cons_self)
    cases steps with
    | zero => exact absurd enough (Nat.not_lt_zero _)
    | succ steps =>
      have later := ih (some address) rest
        (fun member => first (mem_cons_of_mem _ member)) (by simpa using enough)
      rw [lastOr_cons]
      simp [removeFrom, there, different, later]

/-- An element that is bypassed is out of the list. -/
theorem bypass_linked (linked : Linked heap head (front ++ item :: back))
    (distinct : (front ++ item :: back).Nodup)
    (here : heap item = some node) : Linked (heap.bypass front.getLast? (next node) head).2
      (heap.bypass front.getLast? (next node) head).1 (front ++ back) := by
  obtain ⟨middle, one, first, node', here', rest⟩ := Segment.append_iff.mp linked
  obtain rfl := some.inj (here.symm.trans here')
  rcases eq_nil_or_concat front with rfl | ⟨before, last, rfl⟩
  · exact rest
  · rw [concat_eq_append] at one distinct ⊢
    have apart := nodup_append.mp distinct
    have notBack : last ∉ back := fun member =>
      apart.2.2 last (mem_append_right _ mem_cons_self) last (mem_cons_of_mem _ member) rfl
    have notBefore : last ∉ before := by
      have inner := nodup_append.mp apart.1
      exact fun member => inner.2.2 last member last mem_cons_self rfl
    simp only [List.getLast?_concat, Heap.bypass]
    exact Segment.append_iff.mpr ⟨next node, one.redirect notBefore _, rest.relink notBack _⟩

theorem relinked_bypass (previous pointer head : Option Nat) (heap : Heap ν) :
    Relinked heap (heap.bypass previous pointer head).2 := by
  cases previous with
  | none => exact .refl heap
  | some previous => exact relinked_relink _ _ _

/-- `listRemove` removes the element, wherever it is. -/
theorem listRemove_spec (linked : Linked heap head items)
    (distinct : items.Nodup) (enough : items.length ≤ steps) (item : Nat) : ∃ head' after,
    listRemove steps item head heap = some (head', after) ∧ Linked after head' (items.erase item) ∧
    Relinked heap after := by
  by_cases member : item ∈ items
  · obtain ⟨front, back, rfl⟩ := append_of_mem member
    have first : item ∉ front := fun inFront =>
      (nodup_append.mp distinct).2.2 item inFront item mem_cons_self rfl
    obtain ⟨node, here⟩ := linked.allocated member
    have fewer : front.length < steps := by
      simp at enough
      omega
    refine ⟨_, _, (removeFrom_found none linked first here fewer).trans (by rw [or_none]), ?_, ?_⟩
    · have out := bypass_linked linked distinct here
      rw [erase_append_right _ first, erase_cons_head]
      have gone : item ∉ front ++ back := by
        have apart := nodup_middle.mp distinct
        exact (nodup_cons.mp apart).1
      exact out.relink gone none
    · exact (relinked_bypass _ _ _ heap).trans (relinked_relink _ _ _)
  · rw [erase_of_not_mem member]
    exact ⟨head, heap, removeFrom_absent none linked member enough, linked, .refl heap⟩

/-- `listAdd` puts the element at the end, wherever it was. -/
theorem listAdd_spec (linked : Linked heap head items)
    (distinct : items.Nodup) (enough : items.length ≤ steps) (here : heap item = some node) :
    ∃ head' after, listAdd steps item head heap = some (head', after) ∧
    Linked after head' (items.erase item ++ [item]) ∧ Relinked heap after := by
  obtain ⟨head', removed, removes, rest, relinked⟩ := listRemove_spec linked distinct enough item
  obtain ⟨node', there, -⟩ := relinked.some here
  have gone : item ∉ items.erase item := distinct.not_mem_erase
  have cut : Linked (removed.relink item none) head' (items.erase item) := rest.relink gone none
  have alone : removed.relink item none item = some (setNext none node') := by
    rw [Heap.relink_self, there, map_some]
  rcases eq_nil_or_concat (items.erase item) with empty | ⟨before, last, whole⟩
  · rw [empty] at cut
    obtain rfl : head' = none := cut
    refine ⟨some item, removed.relink item none, by simp [listAdd, removes, there], ?_,
      relinked.trans (relinked_relink _ _ _)⟩
    rw [empty]
    exact ⟨rfl, _, alone, next_setNext _ _⟩
  · rw [concat_eq_append] at whole
    rw [whole] at cut gone ⊢
    obtain ⟨first, rfl⟩ : ∃ first, head' = some first := by
      cases before with
      | nil => exact ⟨_, cut.1⟩
      | cons address before => exact ⟨_, cut.1⟩
    have short : before.length < steps := by
      have sizes := congrArg List.length whole
      have fewer := length_erase_le (a := item) (l := items)
      simp at sizes
      omega
    have tail := listTail_eq cut short
    have different : item ≠ last := fun same => gone (by simp [same])
    have once : last ∉ before := by
      have distinct' : (before ++ [last]).Nodup := whole ▸ distinct.erase item
      exact fun member => (nodup_append.mp distinct').2.2 last member last mem_cons_self rfl
    refine ⟨some first, (removed.relink item none).relink last
      (some item), by simp [listAdd, removes, there, tail], ?_,
      (relinked.trans (relinked_relink _ _ _)).trans (relinked_relink _ _ _)⟩
    refine Segment.append_iff.mpr ⟨some item, cut.redirect once _, rfl, setNext none node', ?_,
      next_setNext _ _⟩
    rw [Heap.relink_other _ different, alone]

/-- What is found is in the list, and has the property. -/
theorem listFind_spec (has : ν → Bool) (linked : Linked heap head items)
    (enough : items.length ≤ steps) : ∃ found, listFind has heap steps head = some found ∧
    ∀ address ∈ found, address ∈ items ∧ ∃ node, heap address = some node ∧ has node = true := by
  induction items generalizing head steps with
  | nil =>
    obtain rfl : head = none := linked
    exact ⟨none, by simp [listFind], fun _ member => absurd member (by simp)⟩
  | cons address items ih =>
    obtain ⟨rfl, node, here, rest⟩ := linked
    cases steps with
    | zero => exact absurd enough (by simp)
    | succ steps =>
      by_cases holds : has node = true
      · refine ⟨some address, by simp [listFind, here, holds], fun other member => ?_⟩
        cases member
        exact ⟨mem_cons_self, node, here, holds⟩
      · obtain ⟨found, finds, inList⟩ := ih rest (by simpa using enough)
        refine ⟨found, by simp [listFind, here, holds, finds], fun other member => ?_⟩
        exact ⟨mem_cons_of_mem _ (inList other member).1, (inList other member).2⟩

/-- Every element is changed once. -/
theorem listEach_eq (change : ν → ν) (linked : Linked heap head items)
    (distinct : items.Nodup) (enough : items.length ≤ steps) :
    listEach change steps head heap = some fun address => if address ∈ items then
    (heap address).map change else heap address := by
  induction items generalizing head heap steps with
  | nil =>
    obtain rfl : head = none := linked
    simp [listEach]
  | cons first items ih =>
    obtain ⟨rfl, node, here, rest⟩ := linked
    obtain ⟨notAgain, distinct⟩ := nodup_cons.mp distinct
    cases steps with
    | zero => exact absurd enough (by simp)
    | succ steps =>
      have still : Linked (update heap first (some (change node))) (next node) items := by
        refine rest.frame fun address member => ?_
        have different : address ≠ first := fun same => notAgain (same ▸ member)
        rw [update_of_ne different]
      have later := ih still distinct (by simpa using enough)
      simp only [listEach, here, bind_eq_bind, bind_some, later]
      congr 1
      funext address
      by_cases same : address = first
      · subst same
        simp [notAgain, here]
      · simp [same]

/-! ## What is in a list -/

/-- A list holds every allocated element once, but for those in `limbo`, which are in no list.
Addresses are given out in order, up to `bound`. -/
structure Listed (limbo : Set Nat) (items : List Nat) (heap : Heap ν) (head : Option Nat)
    (bound : Nat) : Prop where
  linked : Linked heap head items
  distinct : items.Nodup
  live : ∀ address, (heap address).isSome ↔ address ∈ items ∨ address ∈ limbo
  apart : ∀ address ∈ limbo, address ∉ items
  bounded : ∀ address, (heap address).isSome → address < bound

variable {limbo : Set Nat} {bound : Nat}

theorem Listed.length_le (listed : Listed limbo items heap head bound) : items.length ≤ bound := by
  have inside : items ⊆ List.range bound := fun address member =>
    mem_range.mpr (listed.bounded address ((listed.live address).mpr (.inl member)))
  have shorter := (listed.distinct.subperm inside).length_le
  rwa [length_range] at shorter

theorem Relinked.isSome (relinked : Relinked heap after) (address : Nat) :
    (after address).isSome ↔ (heap address).isSome := by
  have same := congrArg Option.isSome (relinked address)
  simpa using same

/-- An allocated element is added, or goes to the end. -/
theorem Listed.add (listed : Listed limbo items heap head bound) (live : (heap item).isSome) :
    ∃ head' after, listAdd bound item head heap = some (head', after) ∧ Listed (limbo \ {item})
    (items.erase item ++ [item]) after head' bound ∧ Relinked heap after := by
  obtain ⟨node, here⟩ := isSome_iff_exists.mp live
  obtain ⟨head', after, adds, linked, relinked⟩ :=
    listAdd_spec listed.linked listed.distinct listed.length_le here
  refine ⟨head', after, adds, ⟨linked, ?_, fun address => ?_, fun address member => ?_,
    fun address alive => ?_⟩, relinked⟩
  · refine nodup_append.mpr ⟨listed.distinct.erase item, nodup_singleton item, ?_⟩
    intro address member last isLast same
    rw [mem_singleton.mp isLast] at same
    exact listed.distinct.not_mem_erase (same ▸ member)
  · rw [relinked.isSome, listed.live]
    by_cases same : address = item
    · subst same
      have either := (listed.live address).mp live
      simp [either]
    · simp [same, mem_erase_of_ne same]
  · have outside := listed.apart address member.1
    have different : address ≠ item := member.2
    simp [different, mem_erase_of_ne different, outside]
  · exact listed.bounded address ((relinked.isSome address).mp alive)

/-- An element is taken out, wherever it was. -/
theorem Listed.taken (listed : Listed limbo items heap head bound)
    (live : (heap item).isSome) {head' : Option Nat}
    (linked : Linked after head' (items.erase item)) (relinked : Relinked heap after) :
    Listed (insert item limbo) (items.erase item) after head' bound := by
  refine ⟨linked, listed.distinct.erase item, fun address => ?_, fun address member => ?_,
    fun address alive => ?_⟩
  · rw [relinked.isSome, listed.live]
    by_cases same : address = item
    · subst same
      have either := (listed.live address).mp live
      simp [either]
    · simp [same, mem_erase_of_ne same]
  · rcases member with rfl | inLimbo
    · exact listed.distinct.not_mem_erase
    · exact fun inItems => listed.apart address inLimbo (mem_of_mem_erase inItems)
  · exact listed.bounded address ((relinked.isSome address).mp alive)

theorem Listed.remove (listed : Listed limbo items heap head bound) (live : (heap item).isSome) :
    ∃ head' after, listRemove bound item head heap = some (head', after) ∧
      Listed (insert item limbo) (items.erase item) after head' bound ∧ Relinked heap after := by
  obtain ⟨head', after, removes, linked, relinked⟩ :=
    listRemove_spec listed.linked listed.distinct listed.length_le item
  exact ⟨head', after, removes, listed.taken live linked relinked, relinked⟩

/-- An element in no list goes to the front. -/
theorem Listed.push (listed : Listed limbo items heap head bound) (inLimbo : item ∈ limbo) :
    Listed (limbo \ {item}) (item :: items) (heap.relink item head) (some item) bound := by
  have outside := listed.apart item inLimbo
  obtain ⟨node, here⟩ := isSome_iff_exists.mp ((listed.live item).mpr (.inr inLimbo))
  have relinked := relinked_relink item head heap
  refine ⟨⟨rfl, setNext head node, ?_, ?_⟩, nodup_cons.mpr ⟨outside, listed.distinct⟩,
    fun address => ?_, fun address member => ?_, fun address alive => ?_⟩
  · rw [Heap.relink_self, here, map_some]
  · rw [next_setNext]
    exact listed.linked.relink outside head
  · rw [relinked.isSome, listed.live]
    by_cases same : address = item
    · subst same
      simp [inLimbo]
    · simp [same]
  · have different : address ≠ item := member.2
    simp [different, listed.apart address member.1]
  · exact listed.bounded address ((relinked.isSome address).mp alive)

/-- An element in no list is freed. -/
theorem Listed.free (listed : Listed limbo items heap head bound) (inLimbo : item ∈ limbo) :
    Listed (limbo \ {item}) items (update heap item none) head bound := by
  have outside := listed.apart item inLimbo
  refine ⟨?_, listed.distinct, fun address => ?_,
    fun address member => listed.apart address member.1, fun address alive => ?_⟩
  · refine listed.linked.frame fun address member => ?_
    have different : address ≠ item := fun same => outside (same ▸ member)
    rw [update_of_ne different]
  · by_cases same : address = item
    · subst same
      simp [outside]
    · rw [update_of_ne same, listed.live]
      simp [same]
  · by_cases same : address = item
    · subst same
      simp at alive
    · rw [update_of_ne same] at alive
      exact listed.bounded address alive

/-- A new element is in no list yet. -/
theorem Listed.alloc (listed : Listed limbo items heap head bound) (node : ν) :
    Listed (insert bound limbo) items (update heap bound (some node)) head (bound + 1) := by
  have fresh : ¬(heap bound).isSome := fun alive => Nat.lt_irrefl bound (listed.bounded bound alive)
  have outside : bound ∉ items := fun member => fresh ((listed.live bound).mpr (.inl member))
  refine ⟨?_, listed.distinct, fun address => ?_, fun address member => ?_, fun address alive => ?_⟩
  · refine listed.linked.frame fun address member => ?_
    have different : address ≠ bound := fun same => outside (same ▸ member)
    rw [update_of_ne different]
  · by_cases same : address = bound
    · subst same
      simp
    · rw [update_of_ne same, listed.live]
      simp [same]
  · rcases member with rfl | inLimbo
    · exact outside
    · exact listed.apart address inLimbo
  · by_cases same : address = bound
    · subst same
      exact Nat.lt_succ_self _
    · rw [update_of_ne same] at alive
      exact Nat.lt_succ_of_lt (listed.bounded address alive)

/-- Members other than the pointer may change. -/
theorem Listed.same (listed : Listed limbo items heap head bound)
    (pointers : ∀ address, (after address).map next = (heap address).map next) :
    Listed limbo items after head bound := by
  have alive : ∀ address, (after address).isSome ↔ (heap address).isSome := by
    intro address
    have same := congrArg Option.isSome (pointers address)
    simpa using same
  refine ⟨listed.linked.frame fun address _ => pointers address, listed.distinct, fun address => ?_,
    listed.apart, fun address live => listed.bounded address ((alive address).mp live)⟩
  rw [alive, listed.live]

/-- A member other than the pointer is written. -/
theorem Listed.write (listed : Listed limbo items heap head bound)
    {old : ν} (here : heap item = some old) (node : ν) (pointer : next node = next old) :
    Listed limbo items (update heap item (some node)) head bound := by
  refine listed.same fun address => ?_
  by_cases same : address = item
  · subst same
    rw [update_self, here, map_some, map_some, pointer]
  · rw [update_of_ne same]

theorem Listed.mono (listed : Listed limbo items heap head bound) {more : Nat}
    (least : bound ≤ more) : Listed limbo items heap head more :=
  ⟨listed.linked, listed.distinct, listed.live, listed.apart,
    fun address alive => Nat.lt_of_lt_of_le (listed.bounded address alive) least⟩

end Chain

end Idrm.Lib
