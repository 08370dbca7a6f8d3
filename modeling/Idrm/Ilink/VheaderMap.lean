import Idrm.Ilink.VheaderReaders

/-!
# The table of a variable header as a map

Each call on a table sets a key, removes one, or does nothing to the keys. As long as the
16-bit number of slots does not overflow, the table is the map that the calls build:
a key is found with the value that it was last set to since it was last removed.
-/

namespace Idrm.Ilink

open Idrm.Lib List

/-! ## Calls -/

/-- The calls on a table. A node that `vheader_find_node` allocates is set at once. -/
inductive VheaderCall where
  | setValueS (key value : CString)
  | setValueI (key : CString) (value : UInt32)
  | findNode (key : CString)
  | allocNodeS (key value : CString)
  | allocNodeI (key : CString) (value : UInt32)
  | unsetNode (index : Nat)

/-- One call, as long as the number of slots is not looked at. -/
def vheaderCall (vheader : VheaderTable) : VheaderCall → VheaderTable
  | .setValueS key value => vheaderSetValueS key value vheader
  | .setValueI key value => vheaderSetValueI key value vheader
  | .findNode _ => vheader
  | .allocNodeS key value =>
    let (index, allocated) := vheaderAllocNode key vheader
    if (vheaderFindNode key vheader).isSome then allocated
      else vheaderSetNodeStr index value allocated
  | .allocNodeI key value =>
    let (index, allocated) := vheaderAllocNode key vheader
    if (vheaderFindNode key vheader).isSome then allocated
      else vheaderSetNodeI index value allocated
  | .unsetNode index => vheaderUnsetNode index vheader

/-- `num` has 16 bits, and slots from there on are not seen. -/
def vheaderSeen (vheader : VheaderTable) : VheaderTable :=
  { vheader with nodes := vheader.nodes.take (vheader.nodes.length % 65536) }

/-- One call. -/
def vheaderStep (vheader : VheaderTable) (call : VheaderCall) : VheaderTable :=
  vheaderSeen (vheaderCall vheader call)

/-- All calls on a new table. -/
def vheaderRun (initialNum increase : UInt16) (calls : List VheaderCall) : VheaderTable :=
  calls.foldl vheaderStep (vheaderInit initialNum increase)

/-- There are fewer than 65530 slots after every call. -/
def FewSlots (vheader : VheaderTable) : List VheaderCall → Prop
  | [] => vheader.nodes.length < 65530
  | call :: calls => vheader.nodes.length < 65530 ∧
      (vheaderCall vheader call).nodes.length < 65530 ∧ FewSlots (vheaderStep vheader call) calls

/-! ## Keys -/

/-- What a call does to the keys of a table. A slot that is unset may hold no key. -/
inductive VheaderEffect where
  | set (key : CString) (value : VheaderValue)
  | unset (key : Option CString)
  | nothing

/-- The key that is set or removed. -/
def VheaderEffect.key : VheaderEffect → Option CString
  | .set key _ => some key
  | .unset key => key
  | .nothing => none

/-- The value it has then. -/
def VheaderEffect.value : VheaderEffect → Option VheaderValue
  | .set _ value => some value
  | .unset _ => none
  | .nothing => none

/-- The key that a slot in use holds. -/
def heldKey (vheader : VheaderTable) (index : Nat) : Option CString :=
  (vheader.nodes[index]?.filter (·.used)).map (·.key)

/-- The effect of a call: a node is found by its key, and removed by its slot. -/
def vheaderEffect (vheader : VheaderTable) : VheaderCall → VheaderEffect
  | .setValueS key value => .set key (.sVal value)
  | .setValueI key value => .set key (.iVal32 value)
  | .findNode _ => .nothing
  | .allocNodeS key value => if (vheaderFindNode key vheader).isSome then .nothing
      else .set key (.sVal value)
  | .allocNodeI key value => if (vheaderFindNode key vheader).isSome then .nothing
      else .set key (.iVal32 value)
  | .unsetNode index => .unset (heldKey vheader index)

/-- The effects of calls, one after another. -/
def vheaderEffects : VheaderTable → List VheaderCall → List VheaderEffect
  | _, [] => []
  | vheader, call :: calls =>
    vheaderEffect vheader call :: vheaderEffects (vheaderStep vheader call) calls

/-- The value of the last set of a key since it was last removed. -/
def lastSet (key : CString) (effects : List VheaderEffect) : Option VheaderValue :=
  (effects.reverse.find? (·.key = some key)).bind (·.value)

theorem lastSet_concat (key : CString) (effects : List VheaderEffect) (effect : VheaderEffect) :
    lastSet key (effects ++ [effect]) = if effect.key = some key then effect.value
    else lastSet key effects := by
  rw [lastSet, reverse_append, reverse_singleton, singleton_append, List.find?_cons]
  by_cases concerns : effect.key = some key
  · simp [concerns]
  · simp [concerns, lastSet]

/-! ## One call -/

section Call

variable {vheader : VheaderTable} {key : CString} {nodes : List VheaderNode}

/-- Where keys are distinct, the slot that holds a key is found. -/
theorem find_holds {front back : List VheaderNode}
    {node : VheaderNode} (formed : WellFormed (front ++ node :: back)) (used : node.used = true) :
    (front ++ node :: back).find? (·.holds node.key) = some node ∧
    (front ++ { node with used := false } :: back).find? (·.holds node.key) = none := by
  obtain ⟨-, here⟩ := wellFormed_middle.mp formed
  have others : ∀ other ∈ front ++ back, other.holds node.key = false := by
    intro other member
    rw [VheaderNode.holds, Bool.and_eq_false_iff, decide_eq_false_iff_not]
    rcases Bool.eq_false_or_eq_true other.used with otherUsed | free
    · exact .inr ((here used).2 other member otherUsed)
    · exact .inl free
  have frontMissed : front.find? (·.holds node.key) = none :=
    List.find?_eq_none.mpr fun other member => by simp [others other (mem_append_left _ member)]
  have backMissed : back.find? (·.holds node.key) = none :=
    List.find?_eq_none.mpr fun other member => by simp [others other (mem_append_right _ member)]
  constructor
  · rw [List.find?_append, frontMissed, List.find?_cons_of_pos (by simp [VheaderNode.holds, used])]
    rfl
  · rw [List.find?_append, frontMissed,
      List.find?_cons_of_neg (by simp [VheaderNode.holds]), backMissed]
    rfl

/-- A slot that is unset takes the key it held out of the table, and no other. -/
theorem lookup_unsetNode (formed : WellFormed vheader.nodes) (index : Nat) :
    vheaderLookup key (vheaderUnsetNode index vheader) = if heldKey vheader index = some key then
    none else vheaderLookup key vheader := by
  unfold heldKey vheaderUnsetNode
  rw [lookup_eq_find, lookup_eq_find]
  rcases Nat.lt_or_ge index vheader.nodes.length with inside | outside
  · obtain ⟨front, node, back, split, rfl⟩ :
        ∃ front node back, vheader.nodes = front ++ node :: back ∧ front.length = index :=
      ⟨vheader.nodes.take index, vheader.nodes[index],
        vheader.nodes.drop (index + 1), by simp, by simp; omega⟩
    rw [split] at formed
    have here : (front ++ node :: back)[front.length]? = some node := by simp
    simp only [split, modify_middle, here]
    cases used : node.used with
    | false =>
      have same : { node with used := false } = node := by rw [← used]
      rw [same]
      simp [used]
    | true =>
      obtain ⟨found, missed⟩ := find_holds formed used
      by_cases isKey : node.key = key
      · subst isKey
        rw [missed]
        simp [used]
      · have notFree : ({ node with used := false } : VheaderNode).holds key = false := rfl
        have notThis : node.holds key = false := by simp [VheaderNode.holds, isKey]
        rw [List.find?_append, List.find?_append, List.find?_cons_of_neg (by simp [notFree]),
          List.find?_cons_of_neg (by simp [notThis])]
        simp [used, isKey]
  · rw [modify_eq_self outside, List.getElem?_eq_none outside]
    rfl

/-- Where a key is found, nothing is allocated. -/
theorem alloc_present (present : (vheaderFindNode key vheader).isSome = true) :
    ∃ index, vheaderAllocNode key vheader = (index, vheader) := by
  obtain ⟨index, found⟩ := Option.isSome_iff_exists.mp present
  exact ⟨index, by rw [vheaderAllocNode, found]⟩

/-- A call does to the map what its effect says, and keeps the keys apart. -/
theorem lookup_call (formed : WellFormed vheader.nodes) (call : VheaderCall) :
    WellFormed (vheaderCall vheader call).nodes ∧ ∀ key, vheaderLookup key
      (vheaderCall vheader call) = if (vheaderEffect vheader call).key = some key then
    (vheaderEffect vheader call).value else vheaderLookup key vheader := by
  have set : ∀ key value, value ≠ VheaderValue.unset →
      WellFormed (vheaderSetValue key value vheader).nodes ∧ ∀ other, vheaderLookup other
      (vheaderSetValue key value vheader) = if (VheaderEffect.set key value).key = some other then
      (VheaderEffect.set key value).value else vheaderLookup other vheader := by
    intro key value isSet
    refine ⟨formed.setValue isSet, fun other => ?_⟩
    rw [lookup_setValue]
    simp [VheaderEffect.key, VheaderEffect.value, eq_comm]
  have kept : WellFormed vheader.nodes ∧
      ∀ other, vheaderLookup other vheader = if VheaderEffect.nothing.key = some other then
      VheaderEffect.nothing.value else vheaderLookup other vheader :=
    ⟨formed, fun other => by simp [VheaderEffect.key]⟩
  cases call with
  | setValueS key value => exact set key (.sVal value) VheaderValue.noConfusion
  | setValueI key value => exact set key (.iVal32 value) VheaderValue.noConfusion
  | findNode key => exact kept
  | allocNodeS key value =>
    rw [vheaderCall, vheaderEffect]
    by_cases present : (vheaderFindNode key vheader).isSome = true
    · obtain ⟨index, found⟩ := alloc_present present
      simp only [found, if_pos present]
      exact kept
    · simp only [if_neg present]
      exact set key (.sVal value) VheaderValue.noConfusion
  | allocNodeI key value =>
    rw [vheaderCall, vheaderEffect]
    by_cases present : (vheaderFindNode key vheader).isSome = true
    · obtain ⟨index, found⟩ := alloc_present present
      simp only [found, if_pos present]
      exact kept
    · simp only [if_neg present]
      exact set key (.iVal32 value) VheaderValue.noConfusion
  | unsetNode index =>
    refine ⟨formed.unsetNode, fun key => ?_⟩
    rw [vheaderCall, lookup_unsetNode formed]
    rfl

theorem vheaderSeen_few (few : vheader.nodes.length < 65536) : vheaderSeen vheader = vheader := by
  rw [vheaderSeen, Nat.mod_eq_of_lt few, take_length]

end Call

/-! ## All calls -/

section Run

variable {initialNum increase : UInt16} {calls : List VheaderCall}

theorem vheaderEffects_concat (vheader : VheaderTable)
    (calls : List VheaderCall) (call : VheaderCall) : vheaderEffects vheader (calls ++ [call]) =
      vheaderEffects vheader calls ++ [vheaderEffect (calls.foldl vheaderStep vheader) call] := by
  induction calls generalizing vheader with
  | nil => rfl
  | cons first rest ih =>
    rw [cons_append, vheaderEffects, ih]
    rfl

theorem FewSlots.concat {vheader : VheaderTable}
    {call : VheaderCall} (few : FewSlots vheader (calls ++ [call])) : FewSlots vheader calls ∧
    (vheaderCall (calls.foldl vheaderStep vheader) call).nodes.length < 65530 := by
  induction calls generalizing vheader with
  | nil => exact ⟨few.1, few.2.1⟩
  | cons first rest ih =>
    obtain ⟨before, slots, later⟩ := few
    obtain ⟨fewLater, last⟩ := ih later
    exact ⟨⟨before, slots, fewLater⟩, last⟩

theorem vheaderRun_concat (initialNum increase : UInt16) (calls : List VheaderCall)
    (call : VheaderCall) : vheaderRun initialNum increase (calls ++ [call]) = vheaderStep
      (vheaderRun initialNum increase calls) call := by
  rw [vheaderRun, foldl_append]
  rfl

/-- The table that was built has distinct keys, and the last values of these. -/
theorem vheaderRun_map (few : FewSlots (vheaderInit initialNum increase) calls) :
    WellFormed (vheaderRun initialNum increase calls).nodes ∧
      ∀ key, vheaderLookup key (vheaderRun initialNum increase calls) =
        lastSet key (vheaderEffects (vheaderInit initialNum increase) calls) := by
  induction calls using List.reverseRecOn with
  | nil => exact ⟨.init initialNum increase, fun key => lookup_init key initialNum increase⟩
  | append_singleton past call ih =>
    obtain ⟨fewBefore, slots⟩ := few.concat
    obtain ⟨formed, lookup⟩ := ih fewBefore
    obtain ⟨formedAfter, effect⟩ := lookup_call formed call
    change (vheaderCall (vheaderRun initialNum increase past) call).nodes.length < 65530 at slots
    rw [vheaderRun_concat, vheaderStep, vheaderSeen_few (by omega)]
    refine ⟨formedAfter, fun key => ?_⟩
    rw [effect, vheaderEffects_concat, lastSet_concat, lookup]
    rfl

/-- With fewer than 65530 slots, after any calls on a new table: no two slots in use have the same
key, a key is found with the value of the last set since it was last removed, and a
further call changes no other key than the one it sets or removes. -/
theorem vheaderRun_finiteMap (few : FewSlots (vheaderInit initialNum increase) calls) :
    ((vheaderRun initialNum increase calls).nodes.Pairwise fun one other => one.used = true →
      other.used = true → one.key ≠ other.key) ∧
    (∀ key, vheaderLookup key (vheaderRun initialNum increase calls) =
      lastSet key (vheaderEffects (vheaderInit initialNum increase) calls)) ∧
    ∀ call, FewSlots (vheaderInit initialNum increase) (calls ++ [call]) →
    ∀ key, (vheaderEffect (vheaderRun initialNum increase calls) call).key ≠ some key →
    vheaderLookup key (vheaderRun initialNum increase (calls ++ [call])) = vheaderLookup key
      (vheaderRun initialNum increase calls) := by
  obtain ⟨formed, lookup⟩ := vheaderRun_map few
  refine ⟨formed.distinct, lookup, fun call fewAfter key other => ?_⟩
  have slots : (vheaderCall (vheaderRun initialNum increase calls) call).nodes.length < 65530 :=
    fewAfter.concat.2
  rw [vheaderRun_concat, vheaderStep, vheaderSeen_few (by omega),
    (lookup_call formed call).2 key, if_neg other]

/-- Two keys are set in a table of one slot, the first is removed, and a third takes its slot. -/
def reusedSlot : List VheaderCall :=
  [.setValueS (.ofBytes [0x61]) (.ofBytes [0x78]), .setValueI (.ofBytes [0x62]) 7, .unsetNode 0,
    .allocNodeI (.ofBytes [0x63]) 9]

theorem vheaderRun_finiteMap_reusedSlot : FewSlots (vheaderInit 1 2) reusedSlot ∧
    vheaderLookup (.ofBytes [0x62]) (vheaderRun 1 2 reusedSlot) =
      lastSet (.ofBytes [0x62]) (vheaderEffects (vheaderInit 1 2) reusedSlot) := by
  have few : FewSlots (vheaderInit 1 2) reusedSlot := by
    simp only [reusedSlot, FewSlots]
    decide
  exact ⟨few, (vheaderRun_finiteMap few).2.1 _⟩

end Run

end Idrm.Ilink
