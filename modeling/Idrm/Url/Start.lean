import Mathlib.Data.List.Basic

/-!
# The start of a url

`check_url_start` compares a url with a leading part, segment by segment: one leading
slash of either and one trailing slash of the leading part do not matter. A match is
reported as the offset behind the part that matched, which is never zero.
-/

namespace Idrm.Url

open List

/-- The character `/`. -/
def slash : UInt8 := 0x2F

/-- A path without one leading slash. -/
def skipSlash (path : List UInt8) : List UInt8 :=
  if path.head? = some slash then path.tail else path

/-- A path without one trailing slash. -/
def stripSlash (path : List UInt8) : List UInt8 :=
  if path.getLast? = some slash then path.dropLast else path

/-- `check_url_start`; `url` has the `url_len` bytes, `leading` those before the NUL. -/
def checkUrlStart (url leading : List UInt8) : Nat :=
  let offset := if url.head? = some slash then 1 else 0
  let url := skipSlash url
  let stem := stripSlash (skipSlash leading)
  if stem = [] then 0
  else if url.length = stem.length then
    if url = stem then offset + stem.length else 0
  else if url.length < stem.length then 0
  else if url.take stem.length ≠ stem then 0
  else if url[stem.length]? ≠ some slash then 0
  else offset + stem.length + 1

theorem concat_prefix_iff {stem path : List UInt8} {byte : UInt8} :
    stem ++ [byte] <+: path ↔ path.take stem.length = stem ∧ path[stem.length]? = some byte := by
  constructor
  · rintro ⟨rest, rfl⟩
    simp
  · rintro ⟨front, next⟩
    obtain ⟨inside, rfl⟩ := List.getElem?_eq_some_iff.mp next
    refine ⟨path.drop (stem.length + 1), ?_⟩
    calc stem ++ [path[stem.length]] ++ path.drop (stem.length + 1)
        = path.take stem.length ++ (path[stem.length] :: path.drop (stem.length + 1)) := by
          rw [front, append_assoc, singleton_append]
      _ = path.take stem.length ++ path.drop stem.length := by rw [drop_eq_getElem_cons inside]
      _ = path := take_append_drop ..

/-- A url starts with a part exactly where it is the part or goes on with a slash. -/
theorem checkUrlStart_pos_iff {url leading : List UInt8}
    (stem : stripSlash (skipSlash leading) ≠ []) : checkUrlStart url leading ≠ 0 ↔
    skipSlash url = stripSlash (skipSlash leading) ∨
    stripSlash (skipSlash leading) ++ [slash] <+: skipSlash url := by
  have positive := length_pos_of_ne_nil stem
  rw [concat_prefix_iff]
  simp only [checkUrlStart]
  generalize stripSlash (skipSlash leading) = part at stem positive
  generalize skipSlash url = path
  rw [if_neg stem]
  split
  · rename_i sameLength
    have noMore : path[part.length]? = none := List.getElem?_eq_none (Nat.le_of_eq sameLength)
    split
    · rename_i same
      exact ⟨fun _ => .inl same, fun _ => by omega⟩
    · rename_i different
      refine ⟨fun nonzero => absurd rfl nonzero, ?_⟩
      rintro (same | ⟨_, next⟩)
      · exact absurd same different
      · rw [noMore] at next
        cases next
  rename_i otherLength
  have different : path ≠ part := fun same => otherLength (congrArg List.length same)
  split
  · rename_i shorter
    refine ⟨fun nonzero => absurd rfl nonzero, ?_⟩
    rintro (same | ⟨_, next⟩)
    · exact absurd same different
    · rw [List.getElem?_eq_none (Nat.le_of_lt shorter)] at next
      cases next
  split
  · rename_i otherFront
    refine ⟨fun nonzero => absurd rfl nonzero, ?_⟩
    rintro (same | ⟨front, _⟩)
    · exact absurd same different
    · exact absurd front otherFront
  rename_i front
  split
  · rename_i otherNext
    refine ⟨fun nonzero => absurd rfl nonzero, ?_⟩
    rintro (same | ⟨_, next⟩)
    · exact absurd same different
    · exact absurd next otherNext
  · rename_i next
    exact ⟨fun _ => .inr ⟨not_not.mp front, not_not.mp next⟩, fun _ => by omega⟩

/-- The offset behind a part and its slash. -/
theorem checkUrlStart_append {stem leading : List UInt8}
    (isStem : stripSlash (skipSlash leading) = stem)
    (nonempty : stem ≠ []) (plain : stem.head? ≠ some slash) (rest : List UInt8) :
    checkUrlStart (stem ++ slash :: rest) leading = stem.length + 1 := by
  have head : (stem ++ slash :: rest).head? ≠ some slash := by
    rwa [List.head?_append_of_ne_nil _ nonempty]
  simp only [checkUrlStart, isStem]
  rw [skipSlash, if_neg head, if_neg head, if_neg nonempty, if_neg (by simp), if_neg (by simp),
    if_neg (by simp), if_neg (by simp), Nat.zero_add]

/-- A url that begins otherwise does not start with a part. -/
theorem checkUrlStart_other {url leading : List UInt8} (stem : stripSlash (skipSlash leading) ≠ [])
    (different : (skipSlash url).head? ≠ (stripSlash (skipSlash leading)).head?) :
    checkUrlStart url leading = 0 := by
  by_contra nonzero
  rcases (checkUrlStart_pos_iff stem).mp nonzero with same | ⟨rest, starts⟩
  · exact different (congrArg List.head? same)
  · rw [← starts, append_assoc, List.head?_append_of_ne_nil _ stem] at different
    exact different rfl

/-! ## What goes on behind a url -/

/-- The path is the one of a resource, or goes on behind it and a slash with the rest. -/
def GoesOn (leading path rest : List UInt8) : Prop :=
  stripSlash (skipSlash leading) ≠ [] ∧
    (skipSlash path = stripSlash (skipSlash leading) ∧ rest = [] ∨
      skipSlash path = stripSlash (skipSlash leading) ++ slash :: rest)

section GoesOn

variable {leading path rest : List UInt8}

theorem drop_skipSlash (path : List UInt8) :
    path.drop (if path.head? = some slash then 1 else 0) = skipSlash path := by
  unfold skipSlash
  split
  · exact drop_one
  · exact drop_zero

/-- What `check_url_start` leaves behind its offset. -/
theorem GoesOn.drop (goesOn : GoesOn leading path rest) :
    path.drop (checkUrlStart path leading) = rest := by
  obtain ⟨nonempty, same | more⟩ := goesOn
  · obtain ⟨same, rfl⟩ := same
    simp only [checkUrlStart, same]
    rw [if_neg nonempty, if_pos trivial, if_pos trivial, ← drop_drop, drop_skipSlash,
      same, drop_length]
  · simp only [checkUrlStart, more]
    rw [if_neg nonempty, if_neg (by simp), if_neg (by simp), if_neg (by simp), if_neg (by simp),
      Nat.add_assoc, ← drop_drop, drop_skipSlash, more, ← drop_drop, drop_left]
    rfl

theorem length_skipSlash (path : List UInt8) :
    (if path.head? = some slash then 1 else 0) + (skipSlash path).length = path.length := by
  cases path with
  | nil => rfl
  | cons first rest =>
    unfold skipSlash
    split
    · rw [tail_cons, length_cons, Nat.add_comm]
    · rw [Nat.zero_add]

/-- The offset lies within the path. -/
theorem GoesOn.length_le (goesOn : GoesOn leading path rest) :
    checkUrlStart path leading ≤ path.length := by
  have whole := length_skipSlash path
  obtain ⟨nonempty, same | more⟩ := goesOn
  · obtain ⟨same, -⟩ := same
    rw [same] at whole
    simp only [checkUrlStart, same]
    rw [if_neg nonempty, if_pos trivial, if_pos trivial]
    exact Nat.le_of_eq whole
  · rw [more, length_append, length_cons] at whole
    simp only [checkUrlStart, more]
    rw [if_neg nonempty, if_neg (by simp), if_neg (by simp), if_neg (by simp), if_neg (by simp)]
    omega

theorem goesOn_iff : GoesOn leading path rest ↔
    checkUrlStart path leading ≠ 0 ∧ path.drop (checkUrlStart path leading) = rest := by
  by_cases nonempty : stripSlash (skipSlash leading) = []
  · refine iff_of_false (fun goesOn => goesOn.1 nonempty) fun found => found.1 ?_
    simp only [checkUrlStart, nonempty, if_true]
  · rw [checkUrlStart_pos_iff nonempty]
    constructor
    · intro goesOn
      refine ⟨?_, goesOn.drop⟩
      obtain ⟨-, ⟨same, -⟩ | more⟩ := goesOn
      · exact .inl same
      · exact .inr ⟨rest, by rw [more, append_assoc]; rfl⟩
    · rintro ⟨same | ⟨behind, more⟩, isRest⟩
      · have goesOn : GoesOn leading path [] := ⟨nonempty, .inl ⟨same, rfl⟩⟩
        rw [← isRest, goesOn.drop]
        exact goesOn
      · have goesOn : GoesOn leading path behind :=
          ⟨nonempty, .inr (by rw [← more, append_assoc]; rfl)⟩
        rw [← isRest, goesOn.drop]
        exact goesOn

end GoesOn

end Idrm.Url
