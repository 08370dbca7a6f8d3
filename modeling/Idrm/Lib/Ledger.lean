import Mathlib.Data.List.Perm.Basic
import Mathlib.Data.List.Nodup

/-!
# Ledgers

Items come in once, and each leaves to one of two places, or stays. `Balanced` says so of
four lists; `Balanced.settled` reads off that an item is in exactly one of the three places,
and in it once.
-/

namespace Idrm.Lib

open List

variable {α κ : Type} {key : α → κ} {stored present sent dropped rest : List α} {item : α}

/-- What came in is what is there, what was sent and what was dropped, with no key twice. -/
structure Balanced (key : α → κ) (stored present sent dropped : List α) : Prop where
  distinct : (stored.map key).Nodup
  places : stored.Perm (present ++ (sent ++ dropped))

theorem Balanced.start (distinct : (present.map key).Nodup) :
    Balanced key present present [] [] where
  distinct := distinct
  places := by rw [append_nil, append_nil]

theorem Balanced.keys (balanced : Balanced key stored present sent dropped) :
    (present.map key ++ (sent.map key ++ dropped.map key)).Nodup := by
  rw [← map_append, ← map_append]
  exact (balanced.places.map key).nodup_iff.mp balanced.distinct

theorem Balanced.present_distinct (balanced : Balanced key stored present sent dropped) :
    (present.map key).Nodup :=
  (nodup_append.mp balanced.keys).1

theorem Balanced.store (balanced : Balanced key stored present sent dropped)
    (fresh : ∀ other ∈ stored, key other ≠ key item) :
    Balanced key (stored ++ [item]) (present ++ [item]) sent dropped where
  distinct := by
    rw [map_append, nodup_append]
    refine ⟨balanced.distinct, nodup_singleton _, fun one first other second => ?_⟩
    obtain ⟨before, member, rfl⟩ := mem_map.mp first
    rw [map_singleton, mem_singleton] at second
    rw [second]
    exact fresh before member
  places := by
    refine (balanced.places.append_right [item]).trans ?_
    rw [append_assoc present, append_assoc present]
    exact perm_append_comm.append_left present

theorem Balanced.send (balanced : Balanced key stored present sent dropped)
    (taken : present.Perm (item :: rest)) : Balanced key stored rest (sent ++ [item]) dropped where
  distinct := balanced.distinct
  places := by
    refine (balanced.places.trans (taken.append_right _)).trans ?_
    rw [append_assoc, singleton_append, cons_append]
    exact (perm_middle.symm.trans (perm_middle.symm.append_left rest))

theorem Balanced.drop (balanced : Balanced key stored present sent dropped)
    (taken : present.Perm (item :: rest)) : Balanced key stored rest sent (dropped ++ [item]) where
  distinct := balanced.distinct
  places := by
    refine (balanced.places.trans (taken.append_right _)).trans ?_
    rw [cons_append, ← append_assoc sent, ← append_assoc rest (sent ++ dropped)]
    exact (perm_append_singleton item _).symm

/-- Where an item is: there, sent once or dropped, and in none of the other places. -/
def Settled [DecidableEq κ] (key : α → κ) (present sent dropped : List α) (item : α) : Prop :=
  (item ∈ present ∧ (sent.map key).count (key item) = 0 ∧ item ∉ dropped) ∨
  (item ∉ present ∧ (sent.map key).count (key item) = 1 ∧ item ∉ dropped) ∨
  (item ∉ present ∧ (sent.map key).count (key item) = 0 ∧ item ∈ dropped)

theorem Balanced.settled [DecidableEq κ] (balanced : Balanced key stored present sent dropped)
    (member : item ∈ stored) : Settled key present sent dropped item := by
  have keys := balanced.keys
  obtain ⟨_, leftDistinct, apart⟩ := nodup_append.mp keys
  obtain ⟨sentDistinct, _, leftApart⟩ := nodup_append.mp leftDistinct
  have notBoth {here there : List α} (disjoint : ∀ one ∈ here.map key, ∀ other ∈ there.map key,
      one ≠ other) (inHere : item ∈ here) : key item ∉ there.map key := by
    intro inThere
    exact disjoint _ (mem_map_of_mem inHere) _ inThere rfl
  have outside {places : List α} (absent : key item ∉ places.map key) : item ∉ places :=
    fun inside => absent (mem_map_of_mem inside)
  rcases mem_append.mp (balanced.places.subset member) with there | left
  · have elsewhere : key item ∉ (sent ++ dropped).map key := by
      rw [map_append]
      exact fun inside => apart _ (mem_map_of_mem there) _ inside rfl
    rw [map_append, mem_append, not_or] at elsewhere
    exact .inl ⟨there, count_eq_zero_of_not_mem elsewhere.1, outside elsewhere.2⟩
  have gone : item ∉ present := by
    intro there
    refine apart _ (mem_map_of_mem there) _ ?_ rfl
    rw [← map_append]
    exact mem_map_of_mem left
  rcases mem_append.mp left with wasSent | wasDropped
  · exact .inr (.inl ⟨gone, count_eq_one_of_mem sentDistinct (mem_map_of_mem wasSent),
      outside (notBoth leftApart wasSent)⟩)
  · refine .inr (.inr ⟨gone, count_eq_zero_of_not_mem fun inside => ?_, wasDropped⟩)
    exact leftApart _ inside _ (mem_map_of_mem wasDropped) rfl

end Idrm.Lib
