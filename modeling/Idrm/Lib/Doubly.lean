import Idrm.Lib.Chain

/-!
# Intrusive lists in both directions

The elements carry a pointer to the element before them as well. `Doubly` says which addresses
a list goes through and that every element points back to the one it was reached from; the
operations at the ends of the list keep it.
-/

namespace Idrm.Lib

open Function List

/-- Elements that carry a pointer to the next one and one to the previous one. -/
class DoublyChained (ν : Type) extends Chained ν where
  prev : ν → Option Nat
  setPrev : Option Nat → ν → ν
  prev_setPrev : ∀ pointer node, prev (setPrev pointer node) = pointer
  next_setPrev : ∀ pointer node, next (setPrev pointer node) = next node
  prev_setNext : ∀ pointer node, prev (setNext pointer node) = prev node

attribute [simp] DoublyChained.prev_setPrev DoublyChained.next_setPrev DoublyChained.prev_setNext

open Chained DoublyChained

section Doubly

variable {ν : Type} [DoublyChained ν]

/-- Write the pointer of an element to the one before it. -/
def Heap.backlink (address : Nat) (pointer : Option Nat) (heap : Heap ν) : Heap ν :=
  update heap address ((heap address).map (setPrev pointer))

/-- The addresses from a pointer to the end of a list, behind an element; the last one is the
tail. -/
def Doubly (heap : Heap ν) : Option Nat → Option Nat → List Nat → Option Nat → Prop
  | previous, start, [], tail => start = none ∧ tail = previous
  | previous, start, address :: rest, tail => start = some address ∧
      ∃ node, heap address = some node ∧ prev node = previous ∧
      Doubly heap (some address) (next node) rest tail

variable {heap after : Heap ν} {previous start tail : Option Nat} {items front : List Nat}
  {item last : Nat}

/-- What is at other addresses does not matter. -/
theorem Doubly.frame (doubly : Doubly heap previous start items tail)
    (same : ∀ address ∈ items, after address = heap address) :
    Doubly after previous start items tail := by
  induction items generalizing previous start with
  | nil => exact doubly
  | cons address items ih =>
    obtain ⟨first, node, here, back, rest⟩ := doubly
    refine ⟨first, node, (same address mem_cons_self).trans here, back, ?_⟩
    exact ih rest fun other member => same other (mem_cons_of_mem _ member)

theorem Doubly.allocated (doubly : Doubly heap previous start items tail) {address : Nat}
    (member : address ∈ items) : ∃ node, heap address = some node := by
  induction items generalizing previous start with
  | nil => cases member
  | cons first items ih =>
    obtain ⟨-, node, here, -, rest⟩ := doubly
    rcases mem_cons.mp member with rfl | member
    · exact ⟨node, here⟩
    · exact ih rest member

theorem Doubly.tail_eq (doubly : Doubly heap previous start items tail) :
    tail = items.getLast?.or previous := by
  induction items generalizing previous start with
  | nil => exact doubly.2
  | cons first items ih =>
    obtain ⟨-, node, here, -, rest⟩ := doubly
    rw [ih rest, lastOr_cons]

theorem Doubly.start_eq (doubly : Doubly heap previous start items tail) : start = items.head? := by
  cases items with
  | nil => exact doubly.1
  | cons first items => exact doubly.1

/-- An element at the end: the last one points to it, and it points back. -/
theorem Doubly.push (doubly : Doubly heap previous start (front ++ [last]) tail)
    (distinct : (front ++ [last]).Nodup) (fresh : item ∉ front ++ [last])
    {node : ν} (ends : next node = none) (back : prev node = some last) :
    Doubly (Heap.relink last (some item) (update heap item (some node))) previous start
      (front ++ [last, item]) (some item) := by
  induction front generalizing previous start with
  | nil =>
    obtain ⟨first, oldLast, here, backLast, -⟩ := doubly
    have apart : last ≠ item := fun same => fresh (same ▸ mem_cons_self)
    have there : update heap item (some node) last = some oldLast :=
      (update_of_ne apart ..).trans here
    refine ⟨first, setNext (some item) oldLast, ?_, ?_, ?_, node, ?_, back, ends, rfl⟩
    · rw [Heap.relink_self, there, Option.map_some]
    · rw [prev_setNext, backLast]
    · exact next_setNext _ _
    · rw [Heap.relink_other _ (Ne.symm apart), update_self]
  | cons address front ih =>
    obtain ⟨first, cell, here, backCell, rest⟩ := doubly
    have notLast : address ≠ last := by
      rintro rfl
      exact (nodup_cons.mp distinct).1 (mem_append_right _ mem_cons_self)
    have notItem : address ≠ item := fun same => fresh (same ▸ mem_cons_self)
    refine ⟨first, cell, ?_, backCell, ?_⟩
    · rw [Heap.relink_other _ notLast, update_of_ne notItem, here]
    · exact ih rest (nodup_cons.mp distinct).2 fun member => fresh (mem_cons_of_mem _ member)

/-- The only element of a list. -/
theorem doubly_single {node : ν} (here : heap item = some node) (ends : next node = none)
    (back : prev node = none) : Doubly heap none (some item) [item] (some item) :=
  ⟨rfl, node, here, back, ends, rfl⟩

/-- The first element goes: the second one points back to nothing. -/
theorem Doubly.pop {first second : Nat}
    (doubly : Doubly heap none start (first :: second :: items) tail)
    (once : second ∉ items) : ∃ node, heap first = some node ∧ next node = some second ∧
    Doubly (heap.backlink second none) none (some second) (second :: items) tail := by
  obtain ⟨-, node, here, -, points, other, there, -, rest⟩ := doubly
  refine ⟨node, here, points, rfl, setPrev none other, ?_, prev_setPrev _ _, ?_⟩
  · rw [Heap.backlink, update_self, there, Option.map_some]
  · rw [next_setPrev]
    refine rest.frame fun address member => ?_
    have different : address ≠ second := fun same => once (same ▸ member)
    exact update_of_ne different ..

end Doubly

end Idrm.Lib
