import Mathlib.Data.List.Sort

/-!
# Lists in the order of a key

A list that is kept in the order of a key, with an entry put behind those of its own key,
holds entries of one key in the order of their arrival. What arrived is kept as a log; an
entry that arrived more than once stands where its last arrival put it.
-/

namespace Idrm.Lib

open List

variable {α κ : Type}

/-- The last arrival of an entry was before the last one of another. -/
def EarlierIn (log : List α) (one other : α) : Prop :=
  ∃ front back, log = front ++ one :: back ∧ one ∉ back ∧ other ∈ back

/-- Another entry arrives. -/
theorem EarlierIn.concat {log : List α} {one other last : α} (earlier : EarlierIn log one other)
    (different : one ≠ last) : EarlierIn (log ++ [last]) one other := by
  obtain ⟨front, back, rfl, absent, member⟩ := earlier
  refine ⟨front, back ++ [last], by simp, ?_, mem_append_left _ member⟩
  rw [mem_append, mem_singleton]
  rintro (again | same)
  · exact absent again
  · exact different same

/-- Everything else arrived before the entry that arrived last. -/
theorem earlierIn_last {log : List α} {one last : α} (arrived : one ∈ log)
    (different : one ≠ last) : EarlierIn (log ++ [last]) one last := by
  -- The last arrival is the first one of the reversed log.
  obtain ⟨back, front, split, absent⟩ := eq_append_cons_of_mem (mem_reverse.mpr arrived)
  have split : log = front.reverse ++ one :: back.reverse := by
    rw [← reverse_reverse log, split]
    simp
  refine ⟨front.reverse, back.reverse ++ [last], by simp [split], ?_, by simp⟩
  rw [mem_append, mem_reverse, mem_singleton]
  rintro (again | same)
  · exact absent again
  · exact different same

section Order

variable [LinearOrder κ] {key : α → κ} {log list : List α} {item : α}

/-- An entry stands before another: its key is smaller, or it is the same and arrived
earlier. -/
def Precedes (key : α → κ) (log : List α) (one other : α) : Prop :=
  key one < key other ∨ key one = key other ∧ EarlierIn log one other

/-- A list in the order of a key. -/
def InOrder (key : α → κ) (log list : List α) : Prop := list.Pairwise (Precedes key log)

theorem InOrder.nil : InOrder key log [] := List.Pairwise.nil

/-- Entries leave. -/
theorem InOrder.sublist {rest : List α} (ordered : InOrder key log list)
    (kept : rest.Sublist list) : InOrder key log rest := List.Pairwise.sublist kept ordered

/-- Only the keys of the entries matter. -/
theorem InOrder.congr {other : α → κ} (ordered : InOrder key log list)
    (same : ∀ item ∈ list, other item = key item) : InOrder other log list := by
  refine List.Pairwise.imp_of_mem ?_ ordered
  intro one two oneMember twoMember precedes
  unfold Precedes
  rw [same one oneMember, same two twoMember]
  exact precedes

/-- An entry arrives and is put before the first one of a greater key. -/
theorem InOrder.insert (ordered : InOrder key log list)
    (absent : item ∉ list) (arrived : ∀ other ∈ list, other ∈ log) : InOrder key (log ++ [item])
      (list.orderedInsert (fun one other => key one < key other) item) := by
  induction list with
  | nil => exact pairwise_singleton _ _
  | cons first rest ih =>
    obtain ⟨before, ordered⟩ := pairwise_cons.mp ordered
    have different : first ≠ item := fun same => absent (same ▸ mem_cons_self)
    have others : ∀ other ∈ rest, other ≠ item := fun other member same =>
      absent (same ▸ mem_cons_of_mem _ member)
    have later : ∀ one ∈ first :: rest, ∀ other, Precedes key log one other →
        Precedes key (log ++ [item]) one other := by
      intro one member other precedes
      refine precedes.imp id fun ⟨same, earlier⟩ => ⟨same, earlier.concat ?_⟩
      rintro rfl
      exact absent member
    have inductive_ := ih ordered (fun member => absent (mem_cons_of_mem _ member))
      fun other member => arrived other (mem_cons_of_mem _ member)
    rw [orderedInsert_cons]
    split
    · rename_i smaller
      have ahead : ∀ other ∈ first :: rest, Precedes key (log ++ [item]) item other := by
        intro other member
        left
        rcases mem_cons.mp member with rfl | member
        · exact smaller
        · rcases before other member with less | ⟨same, -⟩
          · exact smaller.trans less
          · exact smaller.trans_eq same
      refine pairwise_cons.mpr ⟨ahead, pairwise_cons.mpr ⟨?_, ?_⟩⟩
      · exact fun other member => later first mem_cons_self other (before other member)
      · refine List.Pairwise.imp_of_mem ?_ ordered
        exact fun one _ precedes => later _ (mem_cons_of_mem _ one) _ precedes
    · rename_i notSmaller
      refine pairwise_cons.mpr ⟨?_, inductive_⟩
      intro other member
      rcases (mem_orderedInsert _).mp member with rfl | member
      · rcases (not_lt.mp notSmaller).lt_or_eq with less | same
        · exact .inl less
        · exact .inr ⟨same, earlierIn_last (arrived first mem_cons_self) different⟩
      · exact later first mem_cons_self other (before other member)

/-- The first entry of some kind has the least key of that kind. -/
theorem InOrder.find_le {test : α → Bool}
    (ordered : InOrder key log list) (found : list.find? test = some item) :
    ∀ other ∈ list, test other = true → key item ≤ key other := by
  induction list with
  | nil => cases found
  | cons first rest ih =>
    obtain ⟨before, ordered⟩ := pairwise_cons.mp ordered
    intro other member passes
    rw [List.find?_cons] at found
    split at found
    · obtain rfl := Option.some.inj found
      rcases mem_cons.mp member with rfl | member
      · exact le_refl _
      · rcases before other member with less | ⟨same, -⟩
        · exact less.le
        · exact same.le
    · rename_i fails
      rcases mem_cons.mp member with rfl | member
      · rw [passes] at fails
        cases fails
      · exact ih ordered found other member passes

end Order

/-- The first entry that meets a condition is the same in every order, exactly if all that meet it
are one. -/
theorem find?_perm_iff {list : List α} {meets : α → Bool} :
    (∀ other : List α, other.Perm list → other.find? meets = list.find? meets) ↔
      ∀ one ∈ list, ∀ other ∈ list, meets one = true → meets other = true → one = other := by
  constructor
  · intro anyOrder
    have first : ∀ one ∈ list, meets one = true → list.find? meets = some one := by
      intro one member holds
      obtain ⟨front, back, rfl⟩ := append_of_mem member
      rw [← anyOrder (one :: (front ++ back)) perm_middle.symm]
      exact List.find?_cons_of_pos holds
    intro one oneMember other otherMember oneHolds otherHolds
    exact Option.some.inj
      ((first one oneMember oneHolds).symm.trans (first other otherMember otherHolds))
  · intro single other perm
    cases first : list.find? meets with
    | none =>
      refine List.find?_eq_none.mpr fun entry member => ?_
      exact List.find?_eq_none.mp first entry (perm.mem_iff.mp member)
    | some entry =>
      have holds := List.find?_some first
      have member := mem_of_find?_eq_some first
      cases again : other.find? meets with
      | none => exact absurd holds (List.find?_eq_none.mp again entry (perm.mem_iff.mpr member))
      | some found =>
        have inList := perm.mem_iff.mp (mem_of_find?_eq_some again)
        rw [single found inList entry member (List.find?_some again) holds]

end Idrm.Lib
