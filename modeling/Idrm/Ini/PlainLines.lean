import Idrm.Ini.Writer

/-!
# Lines that are read as they were written

A plain setting survives the way through a file: its section, key and value have no character that
the formats of `iniparser_line` stop at, no blanks around them, and fit into a line. `loadLoop_line`
is one round of the loop for a line that is neither too long nor continued.
-/

namespace Idrm.Ini

open Idrm.Lib Option
open List hiding all_eq_true

/-- The name of a section that a section line can carry. -/
structure PlainName (name : CString) : Prop where
  filled : name.bytes ≠ []
  solid : Solid name.bytes
  lower : ∀ byte ∈ name.bytes, toLowerByte byte = byte
  chars : ∀ byte ∈ name.bytes, byte ≠ 10 ∧ byte ≠ 58 ∧ byte ≠ 93
  short : name.bytes.length + 3 < asciiLineSz

/-- A key that a line can carry. -/
structure PlainKey (key : CString) : Prop where
  filled : key.bytes ≠ []
  solid : Solid key.bytes
  lower : ∀ byte ∈ key.bytes, toLowerByte byte = byte
  chars : ∀ byte ∈ key.bytes, byte ≠ 10 ∧ byte ≠ 61
  first : ∀ byte ∈ key.bytes.head?, byte ≠ 35 ∧ byte ≠ 59 ∧ byte ≠ 91

/-- A value that a line can carry. -/
structure PlainValue (value : CString) : Prop where
  solid : Solid value.bytes
  chars : ∀ byte ∈ value.bytes, byte ≠ 10 ∧ byte ≠ 59 ∧ byte ≠ 35
  first : ∀ byte ∈ value.bytes.head?, byte ≠ 34 ∧ byte ≠ 39
  last : ∀ byte ∈ value.bytes.getLast?, byte ≠ 92

theorem plainName_iff (name : CString) : name.bytes ≠ [] ∧
    Solid name.bytes ∧ name.bytes.all (fun byte => toLowerByte byte = byte) = true ∧
    name.bytes.all (fun byte => byte ≠ 10 ∧ byte ≠ 58 ∧ byte ≠ 93) = true ∧
    name.bytes.length + 3 < asciiLineSz ↔ PlainName name := by
  simp only [List.all_eq_true, decide_eq_true_eq]
  exact ⟨fun ⟨filled, solid, lower, chars, short⟩ => ⟨filled, solid, lower, chars, short⟩,
    fun plain => ⟨plain.filled, plain.solid, plain.lower, plain.chars, plain.short⟩⟩

theorem plainKey_iff (key : CString) :
    key.bytes ≠ [] ∧ Solid key.bytes ∧ key.bytes.all (fun byte => toLowerByte byte = byte) = true ∧
    key.bytes.all (fun byte => byte ≠ 10 ∧ byte ≠ 61) = true ∧
    key.bytes.head?.all (fun byte => byte ≠ 35 ∧ byte ≠ 59 ∧ byte ≠ 91) = true ↔ PlainKey key := by
  simp only [List.all_eq_true, all_eq_true, decide_eq_true_eq]
  exact ⟨fun ⟨filled, solid, lower, chars, first⟩ => ⟨filled, solid, lower, chars, first⟩,
    fun plain => ⟨plain.filled, plain.solid, plain.lower, plain.chars, plain.first⟩⟩

theorem plainValue_iff (value : CString) :
    Solid value.bytes ∧ value.bytes.all (fun byte => byte ≠ 10 ∧ byte ≠ 59 ∧ byte ≠ 35) = true ∧
      value.bytes.head?.all (fun byte => byte ≠ 34 ∧ byte ≠ 39) = true ∧
      value.bytes.getLast?.all (fun byte => byte ≠ 92) = true ↔ PlainValue value := by
  simp only [List.all_eq_true, all_eq_true, decide_eq_true_eq]
  exact ⟨fun ⟨solid, chars, first, last⟩ => ⟨solid, chars, first, last⟩,
    fun plain => ⟨plain.solid, plain.chars, plain.first, plain.last⟩⟩

instance (name : CString) : Decidable (PlainName name) := decidable_of_iff _ (plainName_iff name)
instance (key : CString) : Decidable (PlainKey key) := decidable_of_iff _ (plainKey_iff key)
instance (value : CString) : Decidable (PlainValue value) :=
  decidable_of_iff _ (plainValue_iff value)

/-- The line and the name of a setting fit into the buffers. -/
structure Fitting (sec key value : CString) : Prop where
  line : max 30 key.bytes.length + 3 + value.bytes.length + 1 < asciiLineSz
  name : sec.bytes.length + 1 + key.bytes.length ≤ asciiLineSz

/-- A setting that a file can carry. -/
structure PlainSetting (sec key value : CString) : Prop where
  plainName : PlainName sec
  plainKey : PlainKey key
  plainValue : PlainValue value
  fits : Fitting sec key value

/-! ## Plain text -/

variable {text : CString}

theorem ofBytes_bytes (text : CString) : CString.ofBytes text.bytes = text :=
  CString.ofBytes_nulFree text.nulFree

theorem strlwc_lower (lower : ∀ byte ∈ text.bytes, toLowerByte byte = byte) {len : Nat}
    (short : text.bytes.length < len) : strlwc text len = text := by
  have same : (text.bytes.take (len - 1)).map toLowerByte = text.bytes := by
    rw [take_of_length_le (by omega)]
    exact (map_congr_left lower).trans (List.map_id _)
  rw [strlwc, same, ofBytes_bytes]

theorem strstrip_solid (solid : Solid text.bytes) (filled : text.bytes ≠ []) :
    strstrip text = text := by
  have same : strip text.bytes = text.bytes := by
    have stripped : strip (text.bytes ++ []) = text.bytes := solid.strip filled (forall_mem_nil _)
    rwa [append_nil] at stripped
  rw [strstrip, same, ofBytes_bytes]

/-! ## One line of a file -/

section Lines

variable {loading : Loading} {line rest : List UInt8}

theorem upToNewline_line (oneLine : (10 : UInt8) ∉ line) (rest : List UInt8) :
    upToNewline (line ++ 10 :: rest) = line ++ [10] := by
  have taken : Taken (fun byte => decide (byte ≠ (10 : UInt8))) line (10 :: rest) := by
    refine ⟨fun byte member => decide_eq_true ?_, fun byte first => ?_⟩
    · rintro rfl
      exact oneLine member
    · obtain rfl := some.inj first
      rfl
  rw [upToNewline, taken.takeWhile, if_pos (by simp)]

/-- A line that fits is read whole. -/
theorem fgets_line (oneLine : (10 : UInt8) ∉ line) {size : Nat} (fits : line.length + 1 < size)
    (rest : List UInt8) : fgets size (line ++ 10 :: rest) = some (line ++ [10], rest, false) := by
  have window : (line ++ 10 :: rest).take (size - 1) = line ++ 10 ::
      rest.take (size - 1 - (line.length + 1)) := by
    rw [take_append, take_of_length_le (by omega : line.length ≤ size - 1)]
    congr 1
    obtain ⟨left, same⟩ : ∃ left, size - 1 - line.length = left + 1 :=
      ⟨size - 1 - line.length - 1, by omega⟩
    rw [same, take_succ_cons]
    congr 2
    omega
  unfold fgets
  rw [window, upToNewline_line oneLine]
  cases line with
  | nil => simp
  | cons first tail => simp

/-- A blank line. -/
theorem loadLoop_blank (fresh : loading.kept = []) (rest : List UInt8) :
    loadLoop loading (10 :: rest) = loadLoop loading rest := by
  have read : fgets (asciiLineSz - loading.kept.length)
      (10 :: rest) = some ([10], rest, false) := by
    rw [fresh]
    have blank : (10 : UInt8) ∉ ([] : List UInt8) := not_mem_nil
    exact fgets_line blank (by decide) rest
  rw [loadLoop_read read, fresh]
  rfl

/-- A line that is not continued. -/
theorem loadLoop_line (fresh : loading.kept = [])
    (oneLine : (10 : UInt8) ∉ line) (filled : line ≠ [])
    (fits : line.length + 1 < asciiLineSz) (ends : ∀ byte ∈ (trimEnd line).getLast?, byte ≠ 92)
    (rest : List UInt8) : loadLoop loading (line ++ 10 :: rest) =
      (loadLine (CString.ofBytes (trimEnd line)) loading).bind fun next => loadLoop next rest := by
  have read : fgets (asciiLineSz - loading.kept.length)
      (line ++ 10 :: rest) = some (line ++ [10], rest, false) := by
    rw [fresh]
    exact fgets_line oneLine fits rest
  have trimmed : trimEnd (line ++ [10]) = trimEnd line :=
    trimEnd_append (fun byte member => by rw [mem_singleton.mp member]; rfl) line
  have positive := length_pos_iff.mpr filled
  have complete : ¬(trimEnd line).getLast? = some 92 := fun last => ends 92 last rfl
  rw [loadLoop_read read, fresh, nil_append, trimmed, if_neg (by simp; omega), if_neg (by simp),
    if_neg complete]

end Lines

/-! ## Lines of sections -/

/-- A line with a name in brackets. -/
theorem iniparserLine_section {name : CString} (plain : PlainName name)
    (buffers : LineBuffers) {line : CString} (isLine : line.bytes = 91 :: name.bytes ++ [93]) :
    iniparserLine line buffers = (.lineSection, { buffers with sec := name }) := by
  have solid : Solid line.bytes := by
    refine ⟨fun byte first => ?_, fun byte last => ?_⟩
    · rw [isLine] at first
      obtain rfl := some.inj first
      rfl
    · rw [isLine, List.getLast?_append] at last
      obtain rfl := some.inj last
      rfl
  have stripped : strstrip line = line :=
    strstrip_solid solid (by rw [isLine]; exact cons_ne_nil _ _)
  have scanned : scan sectionFormat line.bytes = [name.bytes] := by
    have taken : Taken (fun byte => !([93] : List UInt8).contains byte) name.bytes [93] := by
      refine ⟨fun byte member => ?_, fun byte first => ?_⟩
      · simpa using (plain.chars byte member).2.2
      · obtain rfl := some.inj first
        rfl
    rw [isLine, sectionFormat, cons_append, scan_char]
    exact scan_scanset taken plain.filled
  have lowered : sectionName line buffers = name := by
    rw [sectionName, scanned]
    simp only
    rw [ofBytes_bytes, strstrip_solid plain.solid plain.filled]
    refine strlwc_lower plain.lower ?_
    rw [isLine, length_append, length_cons]
    omega
  unfold iniparserLine
  rw [stripped]
  simp only
  split
  · rename_i empty
    rw [isLine] at empty
    cases empty
  · rename_i first tail split
    have bracket : first = 91 := by
      rw [isLine] at split
      exact (List.cons.inj split).1.symm
    rw [if_neg (by rw [bracket]; decide),
      if_pos ⟨bracket, by rw [isLine, List.getLast?_append]; rfl⟩, lowered]

/-! ## Lines of keys -/

section KeyLine

variable {sec key value : CString}

/-- What stands before the equals sign. -/
def keyPart (key : CString) : List UInt8 := (padded key).bytes ++ [32]

/-- What stands behind the equals sign once the end is trimmed. -/
def valuePart (value : CString) : List UInt8 := if value.bytes = [] then [] else 32 :: value.bytes

/-- The line of a setting once its end is trimmed. -/
def keyLineText (key value : CString) : List UInt8 := keyPart key ++ 61 :: valuePart value

theorem mem_padded {byte : UInt8} (member : byte ∈ (padded key).bytes) :
    byte ∈ key.bytes ∨ byte = 32 := by
  rcases mem_append.mp member with inKey | blank
  · exact .inl inKey
  · exact .inr (eq_of_mem_replicate blank)

theorem mem_keyPart {byte : UInt8} (member : byte ∈ keyPart key) :
    byte ∈ key.bytes ∨ byte = 32 := by
  rcases mem_append.mp member with inPadded | blank
  · exact mem_padded inPadded
  · exact .inr (mem_singleton.mp blank)

/-- The key with the blanks behind it. -/
theorem keyPart_eq (key : CString) : ∃ blanks, keyPart key = key.bytes ++ blanks ∧ ∀ byte ∈ blanks,
    isSpaceByte byte = true := by
  refine ⟨List.replicate (30 - key.bytes.length) 32 ++ [32], by simp [keyPart, padded],
    fun byte member => ?_⟩
  rcases mem_append.mp member with pad | last
  · rw [eq_of_mem_replicate pad]
    rfl
  · rw [mem_singleton.mp last]
    rfl

theorem scan_keyPart (plain : PlainKey key) {format : List Directive} (rest : List UInt8) :
    scan (.except [61] :: format)
    (keyPart key ++ 61 :: rest) = keyPart key :: scan format (61 :: rest) := by
  have taken : Taken (fun byte => !([61] : List UInt8).contains byte) (keyPart key)
      (61 :: rest) := by
    refine ⟨fun byte member => ?_, fun byte first => ?_⟩
    · rcases mem_keyPart member with inKey | rfl
      · simpa using (plain.chars byte inKey).2
      · rfl
    · obtain rfl := some.inj first
      rfl
  exact scan_scanset taken (append_ne_nil_of_right_ne_nil _ (cons_ne_nil _ _))

/-- The common front of the formats takes the key; the rest of the format works on the value. -/
theorem scan_keyFormat (plainKey : PlainKey key) (plainValue : PlainValue value)
    (format : List Directive) :
    scan (keyFormat format) (keyLineText key value) = keyPart key :: scan format value.bytes := by
  rw [keyFormat, keyLineText, scan_keyPart plainKey,
    scan_blank (fun byte first => by obtain rfl := some.inj first; rfl), scan_char]
  congr 1
  unfold valuePart
  split
  · rename_i empty
    rw [empty, scan_blank fun byte first => by cases first]
  · rw [scan_blank_space, scan_blank plainValue.solid.first]

/-- The line of a setting ends with its value, or with the equals sign. -/
theorem keyLineText_last {byte : UInt8} (last : byte ∈ (keyLineText key value).getLast?) :
    byte = 61 ∨ byte ∈ value.bytes.getLast? := by
  unfold keyLineText valuePart at last
  split at last
  · rw [List.getLast?_append] at last
    exact .inl (some.inj last).symm
  · rename_i filled
    rw [List.getLast?_append_of_ne_nil _ (cons_ne_nil _ _),
      List.getLast?_cons_of_ne_nil (cons_ne_nil _ _), List.getLast?_cons_of_ne_nil filled] at last
    exact .inr last

theorem keyLineText_solid (plainKey : PlainKey key) (plainValue : PlainValue value) :
    Solid (keyLineText key value) := by
  obtain ⟨blanks, keyBlanks, -⟩ := keyPart_eq key
  refine ⟨fun byte first => ?_, fun byte last => ?_⟩
  · rw [keyLineText, keyBlanks, append_assoc,
      List.head?_append_of_ne_nil _ plainKey.filled] at first
    exact plainKey.solid.first byte first
  · rcases keyLineText_last last with rfl | inValue
    · rfl
    · exact plainValue.solid.last byte inValue

theorem padded_length (key : CString) : (padded key).bytes.length = max 30 key.bytes.length := by
  rw [padded, CString.append_bytes, length_append, length_replicate]
  omega

/-- What is written for a setting, without the blanks at its end. -/
theorem trimEnd_keyText (key : CString) (plainValue : PlainValue value) :
    trimEnd ((padded key).bytes ++ [32, 61, 32] ++ value.bytes) = keyLineText key value := by
  by_cases empty : value.bytes = []
  · have same :
        (padded key).bytes ++ [32, 61, 32] ++ value.bytes = keyLineText key value ++ [32] := by
      rw [keyLineText, valuePart, if_pos empty, empty, keyPart]
      simp
    rw [same, trimEnd_append (fun byte member => by rw [mem_singleton.mp member]; rfl),
      trimEnd_of_last]
    intro byte last
    rw [keyLineText, valuePart, if_pos empty, List.getLast?_append] at last
    obtain rfl := some.inj last
    rfl
  · have same : (padded key).bytes ++ [32, 61, 32] ++ value.bytes = keyLineText key value := by
      rw [keyLineText, valuePart, if_neg empty, keyPart]
      simp
    rw [same, trimEnd_of_last]
    intro byte last
    rw [← same, List.getLast?_append_of_ne_nil _ empty] at last
    exact plainValue.solid.last byte last

/-- The key is stripped and lowered to itself. -/
theorem lowerKey_eq (plain : PlainKey key)
    {line : CString} (longer : key.bytes.length < line.bytes.length) {buffers : LineBuffers}
    (scanned : buffers.key = CString.ofBytes (keyPart key)) :
    lowerKey line buffers = { buffers with key := key } := by
  have nulFree : (0 : UInt8) ∉ keyPart key := fun member =>
    (mem_keyPart member).elim key.nulFree fun zero => absurd zero (by decide)
  have stripped : strstrip (CString.ofBytes (keyPart key)) = key := by
    obtain ⟨blanks, split, blank⟩ := keyPart_eq key
    rw [strstrip, CString.ofBytes_nulFree nulFree]
    simp only
    rw [split, plain.solid.strip plain.filled blank, ofBytes_bytes]
  rw [lowerKey, scanned, stripped, strlwc_lower plain.lower longer]

/-- A value without quotes and comments is taken by the plain format, or is found to be missing. -/
theorem keyLine_eq (plainKey : PlainKey key) (plainValue : PlainValue value)
    (buffers : LineBuffers) {line : CString} (isLine : line.bytes = keyLineText key value) :
    keyLine line buffers = (.lineValue, { buffers with key := key, value := value }) := by
  have longer : key.bytes.length < line.bytes.length := by
    obtain ⟨blanks, split, -⟩ := keyPart_eq key
    rw [isLine, keyLineText, split, length_append, length_append, length_cons]
    omega
  have partly : ∀ {format : List Directive} (now : LineBuffers), scan format value.bytes = [] →
      scanLine (keyFormat format) line now =
      (false, { now with key := CString.ofBytes (keyPart key) }) := by
    intro format now nothing
    rw [scanLine, isLine, scan_keyFormat plainKey plainValue, nothing]
  have notQuoted : ∀ (now : LineBuffers), scanEither doubleQuotedFormat singleQuotedFormat line
      now = (false, { now with key := CString.ofBytes (keyPart key) }) := by
    intro now
    rw [scanEither, doubleQuotedFormat,
      partly now (scan_char_other fun byte first => (plainValue.first byte first).1)]
    exact partly _ (scan_char_other fun byte first => (plainValue.first byte first).2)
  unfold keyLine
  rw [notQuoted]
  simp only [Bool.false_eq_true, if_false]
  by_cases empty : value.bytes = []
  · have notPlain : scan [.except [59, 35]] value.bytes = [] := by
      rw [empty]
      rfl
    have noComment : scan [.among [59, 35]] value.bytes = [] := by
      rw [empty]
      rfl
    have bare : scan bareFormat line.bytes = [keyPart key, [61]] := by
      rw [isLine, keyLineText, valuePart, if_pos empty, bareFormat, scan_keyPart plainKey]
      rfl
    rw [plainFormat, partly _ notPlain]
    simp only [Bool.false_eq_true, if_false]
    rw [scanEither, commentedFormat, partly _ noComment]
    simp only [Bool.false_eq_true, if_false]
    rw [scanLine, bare]
    simp only [if_true]
    rw [lowerKey_eq plainKey longer rfl]
    have noValue : value = .empty := by
      ext1
      exact empty
    rw [noValue]
  · have taken : scan [.except [59, 35]] value.bytes = [value.bytes] := by
      have all : Taken (fun byte => !([59, 35] : List UInt8).contains byte) value.bytes [] := by
        refine ⟨fun byte member => ?_, fun byte first => by cases first⟩
        obtain ⟨-, semicolon, hash⟩ := plainValue.chars byte member
        simp [semicolon, hash]
      have scanned : scan [.except [59, 35]] (value.bytes ++ []) = value.bytes :: scan [] [] :=
        scan_scanset all empty
      rwa [append_nil] at scanned
    rw [scanLine, plainFormat, isLine, scan_keyFormat plainKey plainValue, taken]
    simp only [if_true]
    rw [lowerKey_eq plainKey longer rfl, ofBytes_bytes]
    simp only
    rw [strstrip_solid plainValue.solid empty]

/-- The line of a setting is read as the setting. -/
theorem iniparserLine_key (plainKey : PlainKey key) (plainValue : PlainValue value)
    (buffers : LineBuffers) {line : CString} (isLine : line.bytes = keyLineText key value) :
    iniparserLine line buffers = (.lineValue, { buffers with key := key, value := value }) := by
  have filled : line.bytes ≠ [] := by
    rw [isLine]
    exact append_ne_nil_of_right_ne_nil _ (cons_ne_nil _ _)
  have stripped : strstrip line = line := by
    refine strstrip_solid ?_ filled
    rw [isLine]
    exact keyLineText_solid plainKey plainValue
  unfold iniparserLine
  rw [stripped]
  simp only
  split
  · rename_i empty
    exact absurd empty filled
  · rename_i first tail split
    have begins : first ∈ key.bytes.head? := by
      obtain ⟨blanks, keyBlanks, -⟩ := keyPart_eq key
      have head : line.bytes.head? = some first := by rw [split]; rfl
      rwa [isLine, keyLineText, keyBlanks, append_assoc,
        List.head?_append_of_ne_nil _ plainKey.filled] at head
    obtain ⟨hash, semicolon, bracket⟩ := plainKey.first first begins
    rw [if_neg (by simp [hash, semicolon]), if_neg (by simp [bracket]),
      keyLine_eq plainKey plainValue buffers isLine]

end KeyLine

end Idrm.Ini
