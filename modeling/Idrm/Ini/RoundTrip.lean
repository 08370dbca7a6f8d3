import Idrm.Ini.PlainLines

/-!
# A dictionary written to a file and read again

`PlainMap` says which contents a file can carry: sections with plain names, and in each of them
plain settings. `iniparser_load` reads such a dictionary back from what `iniparser_dump_ini` writes
of it, whatever the order of its slots. The proof follows the file: one line, the lines of one
section, all sections.
-/

namespace Idrm.Ini

open Idrm.Lib Option List

/-- What a dictionary has under its keys. -/
abbrev Contents := CString → Option (Option CString)

/-- Contents that an ini file can carry. -/
def PlainMap (map : Contents) : Prop :=
  ∀ name val, map name = some val → val = none ∧ PlainName name ∨ ∃ sec key value,
    name = entryName sec key ∧ val = some value ∧ PlainSetting sec key value ∧ map sec = some none

/-! ## Names of entries -/

section Names

variable {sec other key : CString}

theorem entryName_bytes (sec key : CString) :
    (entryName sec key).bytes = sec.bytes ++ 58 :: key.bytes := by
  simp [entryName]

theorem PlainName.no_colon (plain : PlainName sec) : (58 : UInt8) ∉ sec.bytes :=
  fun member => (plain.chars 58 member).2.1 rfl

theorem entryName_ne (plain : PlainName other) (sec key : CString) : entryName sec key ≠ other := by
  rintro rfl
  exact plain.no_colon (by rw [entryName_bytes]; exact mem_append_right _ mem_cons_self)

/-- The section of an entry is what stands before its first colon. -/
theorem section_of_prefix (plain : PlainName sec) (otherPlain : PlainName other)
    (isPrefix : (entryName other .empty).bytes <+: (entryName sec key).bytes) : other = sec := by
  obtain ⟨rest, same⟩ := isPrefix
  have untilColon : ∀ {name : CString} {tail : List UInt8}, PlainName name →
      (name.bytes ++ 58 :: tail).takeWhile (fun byte => decide (byte ≠ 58)) = name.bytes := by
    intro name tail plainName
    refine Taken.takeWhile ⟨fun byte member => decide_eq_true ?_, fun byte first => ?_⟩
    · rintro rfl
      exact plainName.no_colon member
    · obtain rfl := some.inj first
      rfl
  rw [entryName_bytes, entryName_bytes, append_assoc, cons_append] at same
  have cut := congrArg (List.takeWhile fun byte : UInt8 => decide (byte ≠ 58)) same
  rw [untilColon otherPlain, untilColon plain] at cut
  exact CString.ext cut

theorem entryName_starts (sec key : CString) :
    (entryName sec .empty).bytes <+: (entryName sec key).bytes := by
  refine ⟨key.bytes, ?_⟩
  rw [entryName_bytes, entryName_bytes]
  simp [CString.empty]

theorem entryName_drop (sec key : CString) :
    (entryName sec key).drop (sec.bytes.length + 1) = key := by
  ext1
  show (entryName sec key).bytes.drop _ = _
  rw [entryName_bytes, drop_append, drop_of_length_le (Nat.le_succ _)]
  simp

end Names

/-! ## Reading one block -/

section Reading

variable {loading : Loading} {map : Contents} {sec key value : CString}

/-- The loop between two lines, with what has been read so far. -/
structure Reads (loading : Loading) (map : Contents) : Prop where
  fresh : loading.kept = []
  clean : loading.errs = 0
  leaves : Leaves loading.dict map

/-- The line of a section enters the section. -/
theorem Reads.sectionLine (reads : Reads loading map) (plain : PlainName sec) (rest : List UInt8) :
    ∃ next, Reads next (Function.update map sec (some none)) ∧ next.buffers.sec = sec ∧
      loadLoop loading ((sectionText sec).bytes ++ rest) = loadLoop next rest := by
  have line : (sectionText sec).bytes ++ rest = 10 :: (91 :: sec.bytes ++ [93]) ++ 10 :: rest := by
    simp [sectionText]
  have solid : Solid (91 :: sec.bytes ++ [93]) := by
    refine ⟨fun byte first => ?_, fun byte last => ?_⟩
    · obtain rfl := some.inj first
      rfl
    · rw [List.getLast?_append] at last
      obtain rfl := some.inj last
      rfl
  have trimmed : trimEnd (91 :: sec.bytes ++ [93]) = 91 :: sec.bytes ++ [93] :=
    trimEnd_of_last solid.last
  have nulFree : (0 : UInt8) ∉ 91 :: sec.bytes ++ [93] := by
    simpa using sec.nulFree
  have oneLine : (10 : UInt8) ∉ 91 :: sec.bytes ++ [93] := by
    simpa using fun member => (plain.chars 10 member).1 rfl
  have fits : (91 :: sec.bytes ++ [93]).length + 1 < asciiLineSz := by
    have short := plain.short
    rw [length_append, length_cons, length_singleton]
    omega
  have isLine : (CString.ofBytes (91 :: sec.bytes ++ [93])).bytes = 91 :: sec.bytes ++ [93] := by
    rw [CString.ofBytes_nulFree nulFree]
  obtain ⟨dict, done, leaves, -⟩ := dictionarySet_leaves reads.leaves.sound sec none
  rw [reads.leaves.lookups] at leaves
  refine ⟨⟨[], { loading.buffers with sec := sec }, dict, 0⟩, ⟨rfl, rfl, leaves⟩, rfl, ?_⟩
  rw [line, cons_append, loadLoop_blank reads.fresh,
    loadLoop_line reads.fresh oneLine (cons_ne_nil _ _) fits (fun byte last => ?_), trimmed,
    loadLine, iniparserLine_section plain _ isLine]
  · simp only [done, map_some, bind_some]
  · rw [trimmed, List.getLast?_append] at last
    obtain rfl := some.inj last
    decide

/-- The line of a setting sets it. -/
theorem Reads.keyLine (reads : Reads loading map) (inSection : loading.buffers.sec = sec)
    (plain : PlainSetting sec key value) (rest : List UInt8) : ∃ next, Reads
      next (Function.update map (entryName sec key) (some (some value))) ∧ next.buffers.sec = sec ∧
    loadLoop loading ((keyText key value).bytes ++ rest) = loadLoop next rest := by
  obtain ⟨-, plainKey, plainValue, fitsLine, -⟩ := plain
  have line : (keyText key value).bytes ++
      rest = ((padded key).bytes ++ [32, 61, 32] ++ value.bytes) ++ 10 :: rest := by
    simp [keyText]
  have trimmed := trimEnd_keyText key plainValue
  have plainBytes : ∀ byte ∈ (padded key).bytes ++ [32, 61, 32] ++ value.bytes,
      byte ≠ 10 ∧ byte ≠ 0 := by
    intro byte member
    rcases mem_append.mp member with front | inValue
    · rcases mem_append.mp front with inPadded | inMiddle
      · rcases mem_padded inPadded with inKey | rfl
        · exact ⟨(plainKey.chars byte inKey).1, fun zero => key.nulFree (zero ▸ inKey)⟩
        · decide
      · simp only [mem_cons, not_mem_nil, or_false] at inMiddle
        rcases inMiddle with rfl | rfl | rfl <;> decide
    · exact ⟨(plainValue.chars byte inValue).1, fun zero => value.nulFree (zero ▸ inValue)⟩
  have nulFree : (0 : UInt8) ∉ keyLineText key value := by
    intro member
    rw [← trimmed] at member
    exact (plainBytes 0 (List.rdropWhile_prefix _ _ |>.mem member)).2 rfl
  have isLine : (CString.ofBytes (keyLineText key value)).bytes = keyLineText key value := by
    rw [CString.ofBytes_nulFree nulFree]
  obtain ⟨dict, done, leaves, -⟩ :=
    dictionarySet_leaves reads.leaves.sound (entryName sec key) (some value)
  rw [reads.leaves.lookups] at leaves
  refine ⟨⟨[], { loading.buffers with key := key, value := value }, dict, 0⟩,
    ⟨rfl, rfl, leaves⟩, inSection, ?_⟩
  rw [line, loadLoop_line reads.fresh (fun member => (plainBytes 10 member).1 rfl)
    (append_ne_nil_of_left_ne_nil (by simp) _) ?_
    (fun byte last => ?_), trimmed, loadLine, iniparserLine_key plainKey plainValue _ isLine]
  · simp only [inSection, done, map_some, bind_some]
  · rw [length_append, length_append, padded_length]
    exact fitsLine
  · rw [trimmed] at last
    rcases keyLineText_last last with rfl | inValue
    · decide
    · exact plainValue.last byte inValue

/-! ## Reading a whole file -/

/-- What the loop over the slots writes for a section. -/
def sectionEntries (sec : CString) (slots : List Slot) : List (CString × Option CString) :=
  (content Slot.entry slots).filter fun pair => (entryName sec .empty).bytes.isPrefixOf pair.1.bytes

theorem concat_cons_bytes (text : CString) (texts : List CString) :
    (concat (text :: texts)).bytes = text.bytes ++ (concat texts).bytes := rfl

/-- An entry whose name begins with the name of a section is a setting in it. -/
theorem PlainMap.setting (plain : PlainMap map) {name : CString}
    {val : Option CString} (here : map name = some val)
    (plainSec : PlainName sec) (isPrefix : (entryName sec .empty).bytes <+: name.bytes) :
    ∃ key value, name = entryName sec key ∧ val = some value ∧ PlainSetting sec key value := by
  rcases plain name val here with ⟨-, plainName⟩ | ⟨other, key, value, rfl, rfl, setting, -⟩
  · refine absurd ?_ plainName.no_colon
    refine isPrefix.mem ?_
    rw [entryName_bytes]
    exact mem_append_right _ mem_cons_self
  · obtain rfl := section_of_prefix setting.plainName plainSec isPrefix
    exact ⟨key, value, rfl, rfl, setting⟩

variable {whole : Contents}

/-- The lines that are written for the slots of a section. -/
theorem Reads.slots (plain : PlainMap whole) (plainSec : PlainName sec) {slots : List Slot}
    (listed : ∀ pair ∈ content Slot.entry slots, whole pair.1 = some pair.2)
    (reads : Reads loading map) (inSection : loading.buffers.sec = sec) (rest : List UInt8) :
    ∃ next, Reads next (assignAll map (sectionEntries sec slots)) ∧
    loadLoop loading ((concat (slots.map (slotText sec))).bytes ++ rest) = loadLoop next rest := by
  induction slots generalizing loading map with
  | nil => exact ⟨loading, reads, rfl⟩
  | cons slot others ih =>
    rw [map_cons, concat_cons_bytes, append_assoc]
    cases present : slot.key with
    | none =>
      have empty : slot.entry = none := by rw [Slot.entry, present]; rfl
      have same : content Slot.entry (slot :: others) = content Slot.entry others :=
        filterMap_cons_none empty
      have nothing : slotText sec slot = .empty := by rw [slotText, present]
      rw [same] at listed
      rw [nothing, sectionEntries, same]
      exact ih listed reads inSection
    | some name =>
      have full : slot.entry = some (name, slot.val) := by rw [Slot.entry, present]; rfl
      have same : content Slot.entry (slot :: others) = (name, slot.val) ::
          content Slot.entry others :=
        filterMap_cons_some full
      rw [same] at listed
      obtain ⟨here, later⟩ := forall_mem_cons.mp listed
      rw [sectionEntries, same, filter_cons]
      simp only [slotText, present]
      split
      · rename_i isPrefix
        obtain ⟨key, value, rfl, hasValue, setting⟩ :=
          plain.setting here plainSec (List.isPrefixOf_iff_prefix.mp isPrefix)
        have hasValue : slot.val = some value := hasValue
        obtain ⟨next, nextReads, nextSection, read⟩ := reads.keyLine inSection setting
          ((concat (others.map (slotText sec))).bytes ++ rest)
        rw [entryName_drop, hasValue, getD_some, read]
        exact ih later nextReads nextSection
      · exact ih later reads inSection

/-- The block of a section. -/
theorem Reads.block {dictionary : Dictionary} (plain : PlainMap whole)
    (holds : Leaves dictionary whole) (isSection : whole sec = some none)
    (plainSec : PlainName sec) (reads : Reads loading map) (rest : List UInt8) :
    ∃ next, Reads next (assignAll map ((sec, none) :: sectionEntries sec dictionary.slots)) ∧
    loadLoop loading ((iniparserDumpSectionIni dictionary sec).bytes ++ rest) =
      loadLoop next rest := by
  have found : iniparserFindEntry dictionary sec = true := by
    have short := plainSec.short
    rw [iniparserFindEntry, iniparserGetString, strlwc_lower plainSec.lower (by omega),
      dictionaryGet_eq holds.sound, holds.lookups, isSection]
    rfl
  have listed : ∀ pair ∈ content Slot.entry dictionary.slots, whole pair.1 = some pair.2 := by
    intro pair member
    rw [← holds.lookups]
    exact holds.sound.distinct.lookups_eq_some_iff.mpr member
  obtain ⟨entered, enteredReads, inSection, readName⟩ := reads.sectionLine plainSec
    ((concat (dictionary.slots.map (slotText sec))).bytes ++ (10 :: rest))
  obtain ⟨next, nextReads, readKeys⟩ :=
    enteredReads.slots plain plainSec listed inSection (10 :: rest)
  refine ⟨next, nextReads, ?_⟩
  have text : (iniparserDumpSectionIni dictionary sec).bytes ++ rest = (sectionText sec).bytes ++
      ((concat (dictionary.slots.map (slotText sec))).bytes ++ (10 :: rest)) := by
    rw [iniparserDumpSectionIni, if_pos found]
    simp
  rw [text, readName, readKeys, loadLoop_blank nextReads.fresh]

/-- The blocks of some sections. -/
theorem Reads.blocks {dictionary : Dictionary}
    (plain : PlainMap whole) (holds : Leaves dictionary whole)
    {names : List CString} (areSections : ∀ name ∈ names, whole name = some none ∧ PlainName name)
    (reads : Reads loading map) (rest : List UInt8) : ∃ next, Reads next (assignAll map
      (names.flatMap fun name => (name, none) :: sectionEntries name dictionary.slots)) ∧
    loadLoop loading ((concat (names.map (iniparserDumpSectionIni dictionary))).bytes ++ rest) =
      loadLoop next rest := by
  induction names generalizing loading map with
  | nil => exact ⟨loading, reads, rfl⟩
  | cons name others ih =>
    obtain ⟨⟨isSection, plainName⟩, later⟩ := forall_mem_cons.mp areSections
    obtain ⟨middle, middleReads, read⟩ := reads.block plain holds isSection plainName
      ((concat (others.map (iniparserDumpSectionIni dictionary))).bytes ++ rest)
    obtain ⟨next, nextReads, readRest⟩ := ih later middleReads
    rw [flatMap_cons, assignAll_append, map_cons, concat_cons_bytes, append_assoc, read, readRest]
    exact ⟨next, nextReads, rfl⟩

end Reading

/-! ## The round trip -/

section RoundTrip

variable {dictionary : Dictionary} {map : Contents}

theorem mem_entries_iff (holds : Leaves dictionary map) {pair : CString × Option CString} :
    pair ∈ dictionary.entries ↔ map pair.1 = some pair.2 := by
  rw [← holds.lookups]
  exact holds.sound.distinct.lookups_eq_some_iff.symm

/-- The keys without a colon are the sections. -/
theorem mem_sectionNames_iff (holds : Leaves dictionary map) (plain : PlainMap map)
    {name : CString} : name ∈ sectionNames dictionary ↔ map name = some none := by
  have isKey : name ∈ dictionary.slots.filterMap Slot.key ↔ ∃ val, map name = some val := by
    constructor
    · intro member
      obtain ⟨slot, slotMember, present⟩ := mem_filterMap.mp member
      have entry : (name, slot.val) ∈ dictionary.entries :=
        mem_filterMap.mpr ⟨slot, slotMember, by rw [Slot.entry, present]; rfl⟩
      exact ⟨slot.val, (mem_entries_iff holds).mp entry⟩
    · rintro ⟨val, here⟩
      have entry : (name, val) ∈ dictionary.entries := (mem_entries_iff holds).mpr here
      obtain ⟨slot, slotMember, full⟩ := mem_filterMap.mp entry
      exact mem_filterMap.mpr ⟨slot, slotMember, (Slot.entry_eq_some_iff.mp full).1⟩
  rw [sectionNames, mem_filter, isKey]
  constructor
  · rintro ⟨⟨val, here⟩, noColon⟩
    rcases plain name val here with ⟨rfl, -⟩ | ⟨sec, key, value, rfl, -, -, -⟩
    · exact here
    · rw [entryName_bytes] at noColon
      simp at noColon
  · intro here
    rcases plain name none here with ⟨-, plainName⟩ | ⟨_, _, _, _, impossible, _⟩
    · exact ⟨⟨none, here⟩, by simpa using plainName.no_colon⟩
    · cases impossible

/-- The settings of the sections are all that plain contents have. -/
theorem mem_blocks_iff (holds : Leaves dictionary map) (plain : PlainMap map)
    (name : CString) (val : Option CString) : (name, val) ∈ (sectionNames dictionary).flatMap
      (fun sec => (sec, none) :: sectionEntries sec dictionary.slots) ↔ map name = some val := by
  rw [mem_flatMap]
  constructor
  · rintro ⟨sec, isSection, member⟩
    rcases mem_cons.mp member with same | inSection
    · cases same
      exact (mem_sectionNames_iff holds plain).mp isSection
    · exact (mem_entries_iff holds).mp (mem_filter.mp inSection).1
  · intro here
    have entry : (name, val) ∈ content Slot.entry dictionary.slots :=
      (mem_entries_iff holds).mpr here
    rcases plain name val here with ⟨rfl, -⟩ | ⟨sec, key, value, rfl, rfl, -, isSection⟩
    · exact ⟨name, (mem_sectionNames_iff holds plain).mpr here, mem_cons_self⟩
    · refine ⟨sec, (mem_sectionNames_iff holds plain).mpr isSection,
        mem_cons_of_mem _ (mem_filter.mpr ⟨entry, ?_⟩)⟩
      exact List.isPrefixOf_iff_prefix.mpr (entryName_starts sec key)

/-- `iniparser_getsecname` enumerates the sections. -/
theorem range_sectionNames (dictionary : Dictionary) :
    (List.range (iniparserGetNSec dictionary)).map
      (fun i => (iniparserGetSecName dictionary i).getD .empty) = sectionNames dictionary := by
  refine ext_getElem (by rw [length_map, length_range]; rfl) fun index inside _ => ?_
  have bound : index < (sectionNames dictionary).length := by simpa [iniparserGetNSec] using inside
  rw [getElem_map, getElem_range, iniparserGetSecName, List.getElem?_eq_getElem bound, getD_some]

theorem reads_start : Reads loadStart fun _ => none :=
  ⟨rfl, rfl, (represents_new 0).leaves⟩

/-- Without sections there is nothing at all. -/
theorem PlainMap.eq_none (plain : PlainMap map) (noSection : ∀ name, map name ≠ some none) :
    map = fun _ => none := by
  funext name
  cases here : map name with
  | none => rfl
  | some val =>
    rcases plain name val here with ⟨rfl, -⟩ | ⟨sec, _, _, _, _, _, isSection⟩
    · exact absurd here (noSection name)
    · exact absurd isSection (noSection sec)

/-- A dictionary with plain contents is read back from its file. -/
theorem iniparserLoad_dump (holds : Leaves dictionary map) (plain : PlainMap map) : ∃ again,
    iniparserLoad (iniparserDumpIni dictionary) = some (some again) ∧ Leaves again map := by
  unfold iniparserLoad iniparserDumpIni
  by_cases none : iniparserGetNSec dictionary < 1
  · have noSection : ∀ name, map name ≠ some Option.none := by
      intro name isSection
      have member := (mem_sectionNames_iff holds plain).mpr isSection
      rw [eq_nil_of_length_eq_zero (Nat.lt_one_iff.mp none)] at member
      cases member
    have nothing := plain.eq_none noSection
    have silent : ∀ slots : List Slot, (∀ slot ∈ slots, slot.key = Option.none) →
        concat (slots.map globalText) = .empty := by
      intro slots keyless
      induction slots with
      | nil => rfl
      | cons slot others ih =>
        obtain ⟨here, later⟩ := forall_mem_cons.mp keyless
        have text : globalText slot = .empty := by rw [globalText, here]
        rw [map_cons, text]
        exact ih later
    have keyless : ∀ slot ∈ dictionary.slots, slot.key = Option.none := by
      intro slot member
      cases present : slot.key with
      | none => rfl
      | some key =>
        have full : slot.entry = some (key, slot.val) := by rw [Slot.entry, present]; rfl
        have entry : (key, slot.val) ∈ dictionary.entries := mem_filterMap.mpr ⟨slot, member, full⟩
        have here := (mem_entries_iff holds).mp entry
        rw [nothing] at here
        cases here
    simp only [if_pos none, silent dictionary.slots keyless]
    exact ⟨_, loadLoop_nil _, nothing ▸ reads_start.leaves⟩
  · have areSections : ∀ name ∈ sectionNames dictionary, map name = some Option.none ∧
        PlainName name := by
      intro name member
      have isSection := (mem_sectionNames_iff holds plain).mp member
      rcases plain name _ isSection with ⟨-, plainName⟩ | ⟨_, _, _, _, impossible, _⟩
      · exact ⟨isSection, plainName⟩
      · cases impossible
    obtain ⟨final, reads, read⟩ := reads_start.blocks plain holds areSections [10]
    rw [assignAll_graph (mem_blocks_iff holds plain)] at reads
    have texts : (List.range (iniparserGetNSec dictionary)).map (fun i => iniparserDumpSectionIni
        dictionary ((iniparserGetSecName dictionary i).getD .empty)) =
        (sectionNames dictionary).map (iniparserDumpSectionIni dictionary) := by
      rw [← range_sectionNames, List.map_map]
      rfl
    simp only [if_neg none, texts, CString.append_bytes, newLine_bytes]
    refine ⟨final.dict, ?_, reads.leaves⟩
    rw [read, loadLoop_blank reads.fresh, loadLoop_nil, reads.clean]
    rfl

end RoundTrip

end Idrm.Ini
