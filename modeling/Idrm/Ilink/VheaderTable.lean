import Idrm.Ilink.Vheader
import Mathlib.Data.List.Induction

/-!
# The node table of a variable header

`vheader_find_node` looks for the node in use for a key and, if it is asked to, takes the
first free slot for it; a full table grows. A slot that is unset keeps what it held, so
that a slot in use again must be set before it is read. Who owns the strings is not
modelled.
-/

namespace Idrm.Ilink

open Idrm.Lib List

/-- A slot as `memset` leaves it. -/
def VheaderNode.blank : VheaderNode := ⟨.empty, false, .unset⟩

/-- `ilink_vheader_t` with the number of slots it grows by. -/
structure VheaderTable extends IlinkVheader where
  increaseNum : Nat
deriving DecidableEq

/-- `vheader_init` -/
def vheaderInit (initialNum increase : UInt16) : VheaderTable where
  nodes := List.replicate initialNum.toNat .blank
  increaseNum := if increase ≠ 0 then increase.toNat else 5

/-- The node is in use for the key. -/
def VheaderNode.holds (key : CString) (node : VheaderNode) : Bool := node.used && node.key = key

/-- `vheader_find_node` without allocation. -/
def vheaderFindNode (key : CString) (vheader : VheaderTable) : Option Nat :=
  vheader.nodes.findIdx? (·.holds key)

/-- `vheader_find_node` with allocation: the node and the table, which may have grown. -/
def vheaderAllocNode (key : CString) (vheader : VheaderTable) : Nat × VheaderTable :=
  match vheaderFindNode key vheader with
  | some index => (index, vheader)
  | none =>
    match vheader.nodes.findIdx? (!·.used) with
    | some firstFree =>
      (firstFree, { vheader with
        nodes := vheader.nodes.modify firstFree fun node =>
          { node with used := true, key := key } })
    | none =>
      let incNum := if vheader.increaseNum ≠ 0 then vheader.increaseNum else 3
      (vheader.nodes.length, { vheader with
        nodes := vheader.nodes ++ ⟨key, true, .unset⟩ :: List.replicate (incNum - 1) .blank })

/-- A node gets a value. -/
def vheaderSetNode (index : Nat) (value : VheaderValue) (vheader : VheaderTable) : VheaderTable :=
  { vheader with nodes := vheader.nodes.modify index fun node => { node with value := value } }

/-- `vheader_set_node_i` -/
def vheaderSetNodeI (index : Nat) (value : UInt32) : VheaderTable → VheaderTable :=
  vheaderSetNode index (.iVal32 value)

/-- `vheader_set_node_str` -/
def vheaderSetNodeStr (index : Nat) (value : CString) : VheaderTable → VheaderTable :=
  vheaderSetNode index (.sVal value)

/-- `vheader_unset_node` -/
def vheaderUnsetNode (index : Nat) (vheader : VheaderTable) : VheaderTable :=
  { vheader with nodes := vheader.nodes.modify index fun node => { node with used := false } }

/-- `vheader_set_value_s`, or `vheader_find_node` with allocation and `vheader_set_node_str`. -/
def vheaderSetValueS (key value : CString) (vheader : VheaderTable) : VheaderTable :=
  let (index, vheader) := vheaderAllocNode key vheader
  vheaderSetNodeStr index value vheader

/-- `vheader_set_value_i`, or `vheader_find_node` with allocation and `vheader_set_node_i`. -/
def vheaderSetValueI (key : CString) (value : UInt32) (vheader : VheaderTable) : VheaderTable :=
  let (index, vheader) := vheaderAllocNode key vheader
  vheaderSetNodeI index value vheader

/-- What the node in use for a key holds. -/
def vheaderLookup (key : CString) (vheader : VheaderTable) : Option VheaderValue :=
  (vheaderFindNode key vheader).bind fun index => vheader.nodes[index]?.map (·.value)

/-! ## Slots -/

section Slots

variable {key other : CString} {value : VheaderValue} {vheader : VheaderTable}
  {front back nodes : List VheaderNode}
  {node new : VheaderNode}

/-- A node gets its key and its value in one. -/
def vheaderSetValue (key : CString) (value : VheaderValue)
    (vheader : VheaderTable) : VheaderTable :=
  vheaderSetNode (vheaderAllocNode key vheader).1 value (vheaderAllocNode key vheader).2

theorem vheaderSetValueS_eq (key value : CString) :
    vheaderSetValueS key value = vheaderSetValue key (.sVal value) := rfl

theorem vheaderSetValueI_eq (key : CString) (value : UInt32) :
    vheaderSetValueI key value = vheaderSetValue key (.iVal32 value) := rfl

theorem lookup_eq_find :
    vheaderLookup key vheader = (vheader.nodes.find? (·.holds key)).map (·.value) := by
  rw [vheaderLookup, vheaderFindNode]
  induction vheader.nodes with
  | nil => rfl
  | cons first rest ih =>
    rw [List.findIdx?_cons, List.find?_cons]
    split
    · rename_i found
      rw [found]
      rfl
    · rename_i missed
      rw [Bool.not_eq_true] at missed
      rw [missed, ← ih, Option.bind_map]
      rfl

theorem modify_middle (change : VheaderNode → VheaderNode) :
    (front ++ node :: back).modify front.length change = front ++ change node :: back := by
  induction front with
  | nil => rfl
  | cons first rest ih => exact congrArg (first :: ·) ih

theorem findIdx_split {test : VheaderNode → Bool}
    {index : Nat} (found : nodes.findIdx? test = some index) :
    ∃ front node back, nodes = front ++ node :: back ∧ front.length = index ∧ test node = true ∧
    ∀ other ∈ front, test other = false := by
  induction nodes generalizing index with
  | nil => cases found
  | cons first rest ih =>
    rw [List.findIdx?_cons] at found
    split at found
    · rename_i here
      obtain rfl := Option.some.inj found
      exact ⟨[], first, rest, rfl, rfl, here, fun _ member => absurd member not_mem_nil⟩
    · rename_i missed
      obtain ⟨later, foundLater, rfl⟩ := Option.map_eq_some_iff.mp found
      obtain ⟨front, node, back, rfl, rfl, passes, before⟩ := ih foundLater
      refine ⟨first :: front, node, back, rfl, rfl, passes, fun other member => ?_⟩
      rcases mem_cons.mp member with rfl | member
      · exact Bool.not_eq_true _ ▸ missed
      · exact before other member

/-- What setting a key does to the slots: in the table, grown by free slots where it was full,
one slot that is free or held the key now holds it with the value. A free slot is taken only
when no slot holds the key. -/
theorem vheaderSetValue_slots (key : CString) (value : VheaderValue) (vheader : VheaderTable) :
    ∃ spare front old back,
    (∀ node ∈ spare, node.used = false) ∧ vheader.nodes ++ spare = front ++ old :: back ∧
    (old.used = false ∧ (∀ other ∈ back, other.holds key = false) ∨ old.holds key = true) ∧
    (∀ other ∈ front, other.holds key = false) ∧
    (vheaderSetValue key value vheader).nodes = front ++ ⟨key, true, value⟩ :: back := by
  unfold vheaderSetValue vheaderAllocNode
  cases found : vheaderFindNode key vheader with
  | some index =>
    obtain ⟨front, node, back, split, rfl, passes, before⟩ := findIdx_split found
    refine ⟨[], front, node, back, fun _ member => absurd member not_mem_nil, by rw [append_nil,
      split], .inr passes, before, ?_⟩
    obtain ⟨used, same⟩ := (Bool.and_eq_true _ _).mp passes
    simp only [vheaderSetNode, split, modify_middle, used, of_decide_eq_true same]
  | none =>
    have missed : ∀ other ∈ vheader.nodes, other.holds key = false :=
      List.findIdx?_eq_none_iff.mp found
    cases free : vheader.nodes.findIdx? (!·.used) with
    | some firstFree =>
      obtain ⟨front, node, back, split, rfl, passes, -⟩ := findIdx_split free
      rw [split] at missed
      refine ⟨[], front, node, back, fun _ member => absurd member not_mem_nil, by rw [append_nil,
        split], .inl ⟨?_, fun other member => ?_⟩, fun other member => ?_, ?_⟩
      · rw [Bool.not_eq_true'] at passes
        exact passes
      · exact missed other (mem_append_right _ (mem_cons_of_mem _ member))
      · exact missed other (mem_append_left _ member)
      · simp only [vheaderSetNode, split, modify_middle]
    | none =>
      let incNum := if vheader.increaseNum ≠ 0 then vheader.increaseNum else 3
      have unused : ∀ count, ∀ node ∈ List.replicate count VheaderNode.blank,
          node.used = false := by
        intro count node member
        rw [eq_of_mem_replicate member]
        rfl
      refine ⟨VheaderNode.blank :: List.replicate (incNum - 1) VheaderNode.blank,
        vheader.nodes, VheaderNode.blank, List.replicate (incNum - 1) VheaderNode.blank, ?_, rfl,
        .inl ⟨rfl, fun other member => ?_⟩, missed, ?_⟩
      · exact fun node member => unused _ node (replicate_succ ▸ member)
      · rw [VheaderNode.holds, unused _ other member]
        rfl
      · simp only [vheaderSetNode, modify_middle, incNum]

/-- A key that was set holds the value, and the others what they held. -/
theorem lookup_setValue (key other : CString) (value : VheaderValue) (vheader : VheaderTable) :
    vheaderLookup other (vheaderSetValue key value vheader) =
      if other = key then some value else vheaderLookup other vheader := by
  obtain ⟨spare, front, old, back, unused, split, taken, before, after⟩ :=
    vheaderSetValue_slots key value vheader
  have spared :
      vheader.nodes.find? (·.holds other) = (vheader.nodes ++ spare).find? (·.holds other) := by
    have missed : spare.find? (·.holds other) = none := by
      refine List.find?_eq_none.mpr fun node member => ?_
      simp [VheaderNode.holds, unused node member]
    rw [List.find?_append, missed, Option.or_none]
  rw [lookup_eq_find, lookup_eq_find, spared, split, after, List.find?_append, List.find?_append]
  by_cases same : other = key
  · have missed : front.find? (·.holds key) = none := List.find?_eq_none.mpr fun node member => by
      simp [before node member]
    rw [if_pos same, same, missed]
    simp [VheaderNode.holds]
  · have oldMissed : old.holds other = false := by
      rcases taken with ⟨free, -⟩ | holds
      · rw [VheaderNode.holds, free]
        rfl
      · obtain ⟨-, held⟩ := (Bool.and_eq_true _ _).mp holds
        rw [VheaderNode.holds, of_decide_eq_true held]
        simp [Ne.symm same]
    have newMissed : (⟨key, true, value⟩ : VheaderNode).holds other = false := by
      simp [VheaderNode.holds, Ne.symm same]
    rw [if_neg same, List.find?_cons, List.find?_cons, oldMissed, newMissed]

end Slots

/-! ## Tables that are built -/

/-- The calls that build a table. -/
inductive VheaderEvent where
  | setValueS (key value : CString)
  | setValueI (key : CString) (value : UInt32)
  | unsetNode (index : Nat)

/-- One call. -/
def vheaderPerform (vheader : VheaderTable) : VheaderEvent → VheaderTable
  | .setValueS key value => vheaderSetValueS key value vheader
  | .setValueI key value => vheaderSetValueI key value vheader
  | .unsetNode index => vheaderUnsetNode index vheader

/-- Slots in use have distinct keys and are set. -/
structure WellFormed (nodes : List VheaderNode) : Prop where
  distinct : nodes.Pairwise fun one other => one.used = true → other.used = true →
    one.key ≠ other.key
  set : ∀ node ∈ nodes, node.used = true → node.value ≠ .unset

section WellFormed

variable {front back nodes spare : List VheaderNode} {old new : VheaderNode}
  {vheader : VheaderTable}

/-- The slots but one, and that one. -/
theorem wellFormed_middle : WellFormed (front ++ old :: back) ↔ WellFormed (front ++ back) ∧
    (old.used = true → old.value ≠ .unset ∧ ∀ other ∈ front ++ back, other.used = true →
      other.key ≠ old.key) := by
  have middle := @pairwise_middle _
    (fun one other : VheaderNode => one.used = true → other.used = true → one.key ≠ other.key)
    (fun different otherUsed oneUsed => (different oneUsed otherUsed).symm) old front back
  constructor
  · rintro ⟨distinct, set⟩
    obtain ⟨apart, distinct⟩ := pairwise_cons.mp (middle.mp distinct)
    refine ⟨⟨distinct, fun node member => set node ?_⟩,
      fun used => ⟨set old ?_ used, fun other member otherUsed => ?_⟩⟩
    · rcases mem_append.mp member with inFront | inBack
      · exact mem_append_left _ inFront
      · exact mem_append_right _ (mem_cons_of_mem _ inBack)
    · exact mem_append_right _ mem_cons_self
    · exact (apart other member used otherUsed).symm
  · rintro ⟨⟨distinct, set⟩, here⟩
    refine ⟨middle.mpr (pairwise_cons.mpr ⟨fun other member used otherUsed => ?_, distinct⟩),
      fun node member used => ?_⟩
    · exact ((here used).2 other member otherUsed).symm
    · rcases mem_append.mp member with inFront | inRest
      · exact set node (mem_append_left _ inFront) used
      · rcases mem_cons.mp inRest with rfl | inBack
        · exact (here used).1
        · exact set node (mem_append_right _ inBack) used

/-- Free slots change nothing. -/
theorem WellFormed.append (formed : WellFormed nodes) (unused : ∀ node ∈ spare, node.used = false) :
    WellFormed (nodes ++ spare) := by
  refine ⟨pairwise_append.mpr ⟨formed.distinct, ?_, ?_⟩, fun node member used => ?_⟩
  · refine pairwise_iff_forall_sublist.mpr fun sublist used => ?_
    rw [unused _ (sublist.subset mem_cons_self)] at used
    cases used
  · intro one _ other member _ used
    rw [unused other member] at used
    cases used
  · rcases mem_append.mp member with inNodes | inSpare
    · exact formed.set node inNodes used
    · rw [unused node inSpare] at used
      cases used

theorem WellFormed.init (initialNum increase : UInt16) :
    WellFormed (vheaderInit initialNum increase).nodes := by
  have formed : WellFormed [] := ⟨.nil, fun node member => absurd member not_mem_nil⟩
  refine formed.append fun node member => ?_
  rw [eq_of_mem_replicate member]
  rfl

theorem WellFormed.setValue {key : CString}
    {value : VheaderValue} (formed : WellFormed vheader.nodes)
    (set : value ≠ .unset) : WellFormed (vheaderSetValue key value vheader).nodes := by
  obtain ⟨spare, front, old, back, unused, split, taken, before, after⟩ :=
    vheaderSetValue_slots key value vheader
  obtain ⟨others, here⟩ := wellFormed_middle.mp (split ▸ formed.append unused)
  rw [after]
  refine wellFormed_middle.mpr ⟨others, fun _ => ⟨set, fun other member used same => ?_⟩⟩
  have holds : other.holds key = true := by simp [VheaderNode.holds, used, same]
  rcases mem_append.mp member with inFront | inBack
  · rw [before other inFront] at holds
    cases holds
  · rcases taken with ⟨-, behind⟩ | held
    · rw [behind other inBack] at holds
      cases holds
    · obtain ⟨oldUsed, oldKey⟩ := (Bool.and_eq_true _ _).mp held
      exact (here oldUsed).2 other member used (same.trans (of_decide_eq_true oldKey).symm)

theorem WellFormed.unsetNode {index : Nat} (formed : WellFormed vheader.nodes) :
    WellFormed (vheaderUnsetNode index vheader).nodes := by
  unfold vheaderUnsetNode
  rcases Nat.lt_or_ge index vheader.nodes.length with inside | outside
  · obtain ⟨front, node, back, split, rfl⟩ :
        ∃ front node back, vheader.nodes = front ++ node :: back ∧ front.length = index :=
      ⟨vheader.nodes.take index, vheader.nodes[index],
        vheader.nodes.drop (index + 1), by simp, by simp; omega⟩
    simp only [split, modify_middle]
    rw [split] at formed
    exact wellFormed_middle.mpr ⟨(wellFormed_middle.mp formed).1, fun used => nomatch used⟩
  · simp only [modify_eq_self outside]
    exact formed

theorem WellFormed.perform {event : VheaderEvent} (formed : WellFormed vheader.nodes) :
    WellFormed (vheaderPerform vheader event).nodes := by
  cases event with
  | setValueS key value => exact formed.setValue VheaderValue.noConfusion
  | setValueI key value => exact formed.setValue VheaderValue.noConfusion
  | unsetNode index => exact formed.unsetNode

/-- Every table that is built so is well formed. -/
theorem WellFormed.built (initialNum increase : UInt16) (events : List VheaderEvent) :
    WellFormed (events.foldl vheaderPerform (vheaderInit initialNum increase)).nodes := by
  induction events using List.reverseRecOn with
  | nil => exact .init initialNum increase
  | append_singleton past event ih =>
    rw [foldl_append]
    exact ih.perform

end WellFormed

end Idrm.Ilink
