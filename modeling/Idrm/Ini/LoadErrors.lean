import Idrm.Ini.PlainLines

/-!
# Which syntax errors a load reports

`iniparser_load` counts syntax errors in the variable that also takes the result of
`dictionary_set`. A line that sets something forgets the errors before it: a file is rejected only
for errors behind its last section and its last setting.
-/

namespace Idrm.Ini

open Idrm.Lib List

/-- The status of a line; what earlier lines left in the buffers does not matter for it. -/
def lineStatus (line : CString) : LineStatus := (iniparserLine line ⟨.empty, .empty, .empty⟩).1

section Status

variable {line : CString} {buffers : LineBuffers}

/-- Whether a format assigns a key and a value. -/
def assignsBoth (format : List Directive) (line : CString) : Bool :=
  2 ≤ (scan format line.bytes).length

theorem scanLine_fst (format : List Directive) (line : CString) (buffers : LineBuffers) :
    (scanLine format line buffers).1 = assignsBoth format line := by
  unfold scanLine assignsBoth
  split
  · rename_i words
    rw [words]
    rfl
  · rename_i key words
    rw [words]
    rfl
  · rename_i key value others words
    rw [words]
    simp

theorem scanEither_fst (first second : List Directive) (line : CString) (buffers : LineBuffers) :
    (scanEither first second line buffers).1 =
      (assignsBoth first line || assignsBoth second line) := by
  unfold scanEither
  simp only [scanLine_fst]
  split
  · rename_i found
    rw [scanLine_fst, found, Bool.true_or]
  · rename_i missed
    rw [scanLine_fst, Bool.eq_false_of_not_eq_true missed, Bool.false_or]

/-- A line with a key is a setting if one of the formats fits. -/
theorem keyLine_fst (line : CString) (buffers : LineBuffers) : (keyLine line buffers).1 =
      if assignsBoth doubleQuotedFormat line || assignsBoth singleQuotedFormat line || assignsBoth
      plainFormat line || (assignsBoth commentedFormat line || assignsBoth bareFormat line) then
    .lineValue else .lineError := by
  unfold keyLine
  simp only [scanEither_fst, scanLine_fst]
  split
  · rename_i quoted
    rw [quoted, Bool.true_or, Bool.true_or]
    rfl
  rename_i notQuoted
  rw [Bool.eq_false_of_not_eq_true notQuoted, Bool.false_or]
  split
  · rename_i plain
    rw [plain, Bool.true_or]
    rfl
  rename_i notPlain
  rw [Bool.eq_false_of_not_eq_true notPlain, Bool.false_or]
  split <;> rfl

theorem iniparserLine_fst (line : CString) (buffers : LineBuffers) :
    (iniparserLine line buffers).1 = lineStatus line := by
  unfold lineStatus iniparserLine
  simp only
  split
  · rfl
  split
  · rfl
  split
  · rfl
  · rw [keyLine_fst, keyLine_fst]

/-- Blanks at the end of a line do not matter. -/
theorem strip_trimEnd (text : List UInt8) : strip (trimEnd text) = strip text := by
  have blank : ∀ byte ∈ text.rtakeWhile isSpaceByte, isSpaceByte byte = true :=
    fun byte member => mem_rtakeWhile_imp member
  have whole : trimEnd text ++ text.rtakeWhile isSpaceByte = text := rdropWhile_append_rtakeWhile
  have same : strip (trimEnd text ++ text.rtakeWhile isSpaceByte) = strip (trimEnd text) := by
    unfold strip
    rw [dropWhile_append]
    split
    · rename_i empty
      have nothing : (text.rtakeWhile isSpaceByte).dropWhile isSpaceByte = [] :=
        dropWhile_eq_nil_iff.mpr blank
      rw [nothing, List.isEmpty_iff.mp empty]
    · exact trimEnd_append blank _
  rw [← same, whole]

theorem lineStatus_trimEnd (line : CString) :
    lineStatus (CString.ofBytes (trimEnd line.bytes)) = lineStatus line := by
  have nulFree : (0 : UInt8) ∉ trimEnd line.bytes :=
    fun member => line.nulFree ((List.rdropWhile_prefix _ _).mem member)
  have same : strstrip (CString.ofBytes (trimEnd line.bytes)) = strstrip line := by
    rw [strstrip, CString.ofBytes_nulFree nulFree, strstrip]
    simp only [strip_trimEnd]
  unfold lineStatus iniparserLine
  rw [same]

end Status

/-! ## Lines one after the other -/

/-- What a line does to the count of errors. -/
def countError (errs : Nat) (line : CString) : Nat :=
  match lineStatus line with
  | .lineEmpty | .lineComment => errs
  | .lineSection | .lineValue => 0
  | .lineError => errs + 1

/-- A line that sets something. -/
def Sets (line : CString) : Prop := lineStatus line = .lineSection ∨ lineStatus line = .lineValue

/-- The count is not zero behind errors that no line makes forgotten. -/
theorem countError_ne_zero_iff (lines : List CString) (errs : Nat) :
    lines.foldl countError errs ≠ 0 ↔ (errs ≠ 0 ∧ ∀ line ∈ lines, ¬Sets line) ∨ ∃ front bad back,
    lines = front ++ bad :: back ∧ lineStatus bad = .lineError ∧ ∀ line ∈ back, ¬Sets line := by
  induction lines generalizing errs with
  | nil => simp
  | cons first rest ih =>
    rw [foldl_cons, ih, forall_mem_cons]
    have split : (∃ front bad back, first :: rest = front ++ bad :: back ∧
        lineStatus bad = .lineError ∧ ∀ line ∈ back, ¬Sets line) ↔
        (lineStatus first = .lineError ∧ ∀ line ∈ rest, ¬Sets line) ∨ ∃ front bad back,
        rest = front ++ bad :: back ∧ lineStatus bad = .lineError ∧ ∀ line ∈ back, ¬Sets line := by
      constructor
      · rintro ⟨front, bad, back, same, isBad, quiet⟩
        cases front with
        | nil =>
          obtain ⟨rfl, rfl⟩ := List.cons.inj same
          exact .inl ⟨isBad, quiet⟩
        | cons head tail =>
          obtain ⟨rfl, rfl⟩ := List.cons.inj same
          exact .inr ⟨tail, bad, back, rfl, isBad, quiet⟩
      · rintro (⟨isBad, quiet⟩ | ⟨front, bad, back, rfl, isBad, quiet⟩)
        · exact ⟨[], first, rest, rfl, isBad, quiet⟩
        · exact ⟨first :: front, bad, back, rfl, isBad, quiet⟩
    rw [split]
    cases status : lineStatus first <;> simp [countError, Sets, status]
    tauto

/-- A line as it stands in a file. -/
def terminatedLine (line : CString) : CString := line ++ newLine

/-- A line that fits into the buffer and is not continued. -/
structure OwnLine (line : CString) : Prop where
  oneLine : (10 : UInt8) ∉ line.bytes
  fits : line.bytes.length + 1 < asciiLineSz
  ends : ∀ byte ∈ (trimEnd line.bytes).getLast?, byte ≠ 92

variable {loading : Loading} {line : CString}

/-- A line leaves a sound dictionary and the count. -/
theorem loadLine_counts (sound : Sound loading.dict) (line : CString) :
    ∃ next, loadLine (CString.ofBytes (trimEnd line.bytes)) loading = some next ∧ next.kept = [] ∧
      Sound next.dict ∧ next.errs = countError loading.errs line := by
  have status := (iniparserLine_fst (CString.ofBytes (trimEnd line.bytes)) loading.buffers).trans
    (lineStatus_trimEnd line)
  unfold loadLine countError
  rw [← status]
  cases result : iniparserLine (CString.ofBytes (trimEnd line.bytes)) loading.buffers with
  | mk found buffers =>
    cases found with
    | lineError => exact ⟨_, rfl, rfl, sound, rfl⟩
    | lineEmpty => exact ⟨_, rfl, rfl, sound, rfl⟩
    | lineComment => exact ⟨_, rfl, rfl, sound, rfl⟩
    | lineSection =>
      obtain ⟨dict, done, leaves, -⟩ := dictionarySet_leaves sound buffers.sec none
      exact ⟨⟨[], buffers, dict, 0⟩, by simp only [done, Option.map_some], rfl, leaves.sound, rfl⟩
    | lineValue =>
      obtain ⟨dict, done, leaves, -⟩ :=
        dictionarySet_leaves sound (entryName buffers.sec buffers.key) (some buffers.value)
      exact ⟨⟨[], buffers, dict, 0⟩, by simp only [done, Option.map_some], rfl, leaves.sound, rfl⟩

/-- The lines of a file are counted. -/
theorem loadLoop_counts {lines : List CString} (own : ∀ line ∈ lines, OwnLine line)
    (fresh : loading.kept = []) (sound : Sound loading.dict) :
    ∃ dict, loadLoop loading (concat (lines.map terminatedLine)).bytes =
      some (if lines.foldl countError loading.errs = 0 then some dict else none) := by
  induction lines generalizing loading with
  | nil => exact ⟨loading.dict, loadLoop_nil loading⟩
  | cons line rest ih =>
    obtain ⟨here, later⟩ := forall_mem_cons.mp own
    have text : (concat ((line :: rest).map terminatedLine)).bytes =
        line.bytes ++ 10 :: (concat (rest.map terminatedLine)).bytes := by
      simp [concat, terminatedLine]
    rw [text, foldl_cons]
    by_cases filled : line.bytes = []
    · have quiet : countError loading.errs line = loading.errs := by
        have isEmpty : line = .empty := CString.ext filled
        rw [isEmpty]
        rfl
      rw [filled, nil_append, loadLoop_blank fresh, quiet]
      exact ih later fresh sound
    · obtain ⟨next, done, nextFresh, nextSound, counted⟩ := loadLine_counts sound line
      rw [loadLoop_line fresh here.oneLine filled here.fits here.ends, done,
        Option.bind_some, ← counted]
      exact ih later nextFresh nextSound

theorem ownLine_iff (line : CString) :
    (10 : UInt8) ∉ line.bytes ∧ line.bytes.length + 1 < asciiLineSz ∧
      (trimEnd line.bytes).getLast?.all (fun byte => byte ≠ 92) = true ↔ OwnLine line := by
  simp only [Option.all_eq_true, decide_eq_true_eq]
  exact ⟨fun ⟨oneLine, fits, ends⟩ => ⟨oneLine, fits, ends⟩,
    fun own => ⟨own.oneLine, own.fits, own.ends⟩⟩

instance (line : CString) : Decidable (OwnLine line) := decidable_of_iff _ (ownLine_iff line)

/-- A file of lines that fit is rejected exactly if a line with a syntax error has no section and no
setting behind it. -/
theorem iniparserLoad_null_iff (lines : List CString) (own : ∀ line ∈ lines, OwnLine line) :
    iniparserLoad (concat (lines.map terminatedLine)) = some none ↔ ∃ front bad back,
    lines = front ++ bad :: back ∧ lineStatus bad = .lineError ∧ ∀ line ∈ back, ¬Sets line := by
  obtain ⟨dict, loaded⟩ := loadLoop_counts own (rfl : loadStart.kept = []) (sound_new 0)
  have counted := countError_ne_zero_iff lines 0
  simp only [ne_eq, not_true_eq_false, false_and, false_or] at counted
  rw [iniparserLoad, loaded, ← counted]
  show some (if lines.foldl countError 0 = 0 then some dict else none) = some none ↔ _
  split <;> simp [*]

/-- The line `x` is no setting, and nothing is behind it. -/
theorem iniparserLoad_null_iff_x : iniparserLoad
      (concat ([.ofBytes [91, 115, 93], .ofBytes [120]].map terminatedLine)) = some none := by
  refine (iniparserLoad_null_iff [.ofBytes [91, 115, 93], .ofBytes [120]] ?_).mpr
    ⟨[.ofBytes [91, 115, 93]], .ofBytes [120], [], rfl, by decide, forall_mem_nil _⟩
  intro line member
  rcases mem_cons.mp member with rfl | last
  · decide
  · rw [mem_singleton.mp last]
    decide

end Idrm.Ini
