import Idrm.Coap.RequestHandler
import Idrm.Url.Start

/-!
# Two matchers of urls

`check_url_start` and `match_url` each compare a url with a prefix of whole segments, and trim
slashes in an order of their own. On a prefix that ends in a slash they agree.
-/

namespace Idrm.Url

open Idrm.Lib List

/-- A prefix of whole segments: a slash neither begins nor ends it. -/
structure Segments (stem : List UInt8) : Prop where
  nonempty : stem ≠ []
  first : stem.head? ≠ some slash
  last : stem.getLast? ≠ some slash

/-- A path is a prefix, or goes on behind it with a slash. -/
def StartsWith (stem path : List UInt8) : Prop := path = stem ∨ stem ++ [slash] <+: path

section Matchers

variable {stem : List UInt8}

theorem coap_skipSlash (path : List UInt8) : Coap.skipSlash path = skipSlash path := by
  cases path with
  | nil => rfl
  | cons first rest =>
    by_cases isSlash : first = slash
    · rw [isSlash]
      rfl
    · have other : (first :: rest).head? ≠ some slash := fun same => isSlash (Option.some.inj same)
      rw [skipSlash, if_neg other]
      unfold Coap.skipSlash
      split
      · rename_i same
        exact absurd (List.cons.inj same).1 isSlash
      · rfl

/-- One slash before the prefix and one behind it do not matter. -/
theorem Segments.stem_eq (segments : Segments stem) :
    stripSlash (skipSlash stem) = stem ∧ stripSlash (skipSlash (slash :: stem)) = stem ∧
    stripSlash (skipSlash (stem ++ [slash])) = stem ∧
    stripSlash (skipSlash (slash :: (stem ++ [slash]))) = stem := by
  obtain ⟨nonempty, first, last⟩ := segments
  have plain : stripSlash stem = stem := if_neg last
  have ended : stripSlash (stem ++ [slash]) = stem := by
    rw [stripSlash, List.getLast?_concat, if_pos rfl, dropLast_concat]
  have skipped : ∀ path, skipSlash (slash :: path) = path := fun path => if_pos rfl
  have kept : skipSlash (stem ++ [slash]) = stem ++ [slash] := by
    rw [skipSlash, List.head?_append_of_ne_nil _ nonempty, if_neg first]
  refine ⟨?_, ?_, ?_, ?_⟩
  · rw [skipSlash, if_neg first, plain]
  · rw [skipped, plain]
  · rw [kept, ended]
  · rw [skipped, ended]

theorem Segments.checkUrlStart_pos_iff (segments : Segments stem) (url : List UInt8) :
    0 < checkUrlStart url stem ↔ StartsWith stem (skipSlash url) := by
  have isStem := segments.stem_eq.1
  have found : checkUrlStart url stem ≠ 0 ↔
      StartsWith (stripSlash (skipSlash stem)) (skipSlash url) :=
    Url.checkUrlStart_pos_iff (isStem.symm ▸ segments.nonempty)
  rw [isStem] at found
  exact Nat.pos_iff_ne_zero.trans found

/-- `match_url` with a pattern that ends in a slash. -/
theorem Segments.matchUrl_iff (segments : Segments stem) {pattern : CString}
    (ends : skipSlash pattern.bytes = stem ++ [slash]) (url : CString) :
    Coap.matchUrl pattern url = true ↔ StartsWith stem (skipSlash url.bytes) := by
  rw [StartsWith, concat_prefix_iff]
  generalize isPath : skipSlash url.bytes = path
  generalize isLen :
    (if path.getLast? = some slash then path.length - 1 else path.length) = matchedLen
  have filled := length_pos_of_ne_nil segments.nonempty
  have start : (stem ++ [slash]).take stem.length = stem := take_left
  have evaluated : Coap.matchUrl pattern url = true ↔
      matchedLen ≠ 0 ∧ path.take stem.length = stem ∧
      (stem.length = matchedLen ∨ stem.length < matchedLen ∧ path[stem.length]? = some slash) := by
    unfold Coap.matchUrl Coap.sameStart
    simp only [coap_skipSlash, ends, isPath, List.getLast?_concat]
    rw [show (if path.getLast? = some (0x2F : UInt8) then path.length - 1 else path.length) =
      matchedLen from isLen]
    by_cases empty : matchedLen = 0
    · simp [empty]
    · have trimmed : (stem ++ [slash]).length - 1 = stem.length := by simp
      rw [if_neg empty, if_pos (by rfl), trimmed, start]
      simp only [Bool.and_eq_true, Bool.or_eq_true, decide_eq_true_eq, ne_eq, empty,
        not_false_eq_true, true_and, slash]
      exact and_congr_left' eq_comm
  rw [evaluated]
  by_cases ended : path.getLast? = some slash
  · rw [if_pos ended] at isLen
    have lastAt : path[path.length - 1]? = some slash := by rw [← List.getLast?_eq_getElem?, ended]
    constructor
    · rintro ⟨-, front, same | ⟨-, next⟩⟩
      · refine .inr ⟨front, ?_⟩
        rw [same, ← isLen]
        exact lastAt
      · exact .inr ⟨front, next⟩
    · rintro (rfl | ⟨front, next⟩)
      · exact absurd ended segments.last
      · have inside := (List.getElem?_eq_some_iff.mp next).1
        refine ⟨by omega, front, ?_⟩
        rcases Nat.lt_or_ge stem.length matchedLen with less | more
        · exact .inr ⟨less, next⟩
        · exact .inl (by omega)
  · rw [if_neg ended] at isLen
    constructor
    · rintro ⟨-, front, same | ⟨-, next⟩⟩
      · refine .inl ?_
        rw [← front, same, ← isLen, take_length]
      · exact .inr ⟨front, next⟩
    · rintro (rfl | ⟨front, next⟩)
      · exact ⟨by omega, take_length, .inl isLen⟩
      · have inside := (List.getElem?_eq_some_iff.mp next).1
        exact ⟨by omega, front, .inr ⟨by omega, next⟩⟩

/-- A leading part with the same prefix is found in the same places. -/
theorem checkUrlStart_congr {leading other : List UInt8}
    (same : stripSlash (skipSlash leading) = stripSlash (skipSlash other)) (url : List UInt8) :
    checkUrlStart url leading = checkUrlStart url other := by
  simp only [checkUrlStart, same]

/-- `check_url_start` finds a prefix of whole segments where a url is the prefix or goes on behind
it with a slash, splits the url right behind them, and does not mind slashes around the prefix;
`match_url` matches the prefix with a slash behind it in the same urls. -/
theorem urlMatchers_agree (segments : Segments stem) (url : CString) :
    (0 < checkUrlStart url.bytes stem ↔
      skipSlash url.bytes = stem ∨ stem ++ [slash] <+: skipSlash url.bytes) ∧ (∀ rest,
      (skipSlash url.bytes = stem ∧ rest = [] ∨ skipSlash url.bytes = stem ++ slash :: rest) →
      ∃ front, url.bytes = front ++ rest ∧ front.length = checkUrlStart url.bytes stem) ∧
    (∀ leading ∈ [slash :: stem, stem ++ [slash], slash :: (stem ++ [slash])],
      checkUrlStart url.bytes leading = checkUrlStart url.bytes stem) ∧ ∀ pattern : CString,
    (pattern.bytes = stem ++ [slash] ∨ pattern.bytes = slash :: (stem ++ [slash])) →
    (Coap.matchUrl pattern url = true ↔ 0 < checkUrlStart url.bytes stem) := by
  obtain ⟨isStem, before, behind, around⟩ := segments.stem_eq
  refine ⟨segments.checkUrlStart_pos_iff url.bytes, fun rest parts => ?_, fun leading member => ?_,
    fun pattern isPattern => ?_⟩
  · have goesOn : GoesOn stem url.bytes rest := by
      rw [GoesOn, isStem]
      exact ⟨segments.nonempty, parts⟩
    have dropped := goesOn.drop
    refine ⟨url.bytes.take (checkUrlStart url.bytes stem), ?_, length_take_of_le (goesOn.length_le)⟩
    calc url.bytes
        = url.bytes.take (checkUrlStart url.bytes stem) ++
          url.bytes.drop (checkUrlStart url.bytes stem) :=
          (take_append_drop ..).symm
      _ = url.bytes.take (checkUrlStart url.bytes stem) ++ rest := by rw [dropped]
  · apply checkUrlStart_congr
    rw [isStem]
    simp only [mem_cons, not_mem_nil, or_false] at member
    rcases member with rfl | rfl | rfl
    · exact before
    · exact behind
    · exact around
  · have ends : skipSlash pattern.bytes = stem ++ [slash] := by
      rcases isPattern with plain | slashed
      · rw [plain, skipSlash, List.head?_append_of_ne_nil _ segments.nonempty,
          if_neg segments.first]
      · rw [slashed]
        exact if_pos rfl
    exact (segments.matchUrl_iff ends url).trans (segments.checkUrlStart_pos_iff url.bytes).symm

end Matchers

/-- The prefix `"a"` in `"/a/b"`. -/
theorem urlMatchers_agree_sample :
    checkUrlStart [slash, 0x61, slash, 0x62] [0x61] = 3 ∧
      Coap.matchUrl ⟨[0x61, slash], by decide⟩ ⟨[slash, 0x61, slash, 0x62], by decide⟩ = true := by
  have segments : Segments [0x61] := ⟨by decide, by decide, by decide⟩
  have agree := (urlMatchers_agree segments ⟨[slash, 0x61, slash, 0x62], by decide⟩).2.2.2
    ⟨[0x61, slash], by decide⟩ (.inl rfl)
  exact ⟨by decide, agree.mpr (by decide)⟩

end Idrm.Url
