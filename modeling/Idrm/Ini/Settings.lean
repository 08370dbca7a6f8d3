import Idrm.Ini.RoundTrip

/-!
# Settings that are kept in a file

`set_ini_key` reads the whole file, changes one entry and writes the file anew; the agent keeps its
id this way. After any number of changes the file has the last value of every key. The file is
there to be read and written, or does not exist yet.
-/

namespace Idrm.Ini

open Idrm.Lib Function Option List

/-- `set_ini_key`: what it returns, and the file behind it. A file that `iniparser_load` rejects is
left alone. -/
def setIniKey (key : CString) (value : Option CString) (file : Option CString) :
    Option (Bool × Option CString) :=
  let text := file.getD .empty
  match iniparserLoad text with
  | none => none
  | some none => some (false, some text)
  | some (some ini) =>
    let changed :=
      match value with
      | none => some (iniparserUnset key ini)
      | some value =>
        let sec := key.bytes.takeWhile (· ≠ 58)
        if sec.length < key.bytes.length then
          (iniparserSet (CString.ofBytes sec) none ini).bind (iniparserSet key (some value))
        else iniparserSet key (some value) ini
    changed.map fun ini => (true, some (iniparserDumpIni ini))

/-- `"i-agent:myid"` -/
def myIdKey : CString :=
  entryName (.ofBytes [105, 45, 97, 103, 101, 110, 116]) (.ofBytes [109, 121, 105, 100])

/-- `save_iagent_id` -/
def saveIagentId (id : CString) (file : Option CString) : Option (Bool × Option CString) :=
  setIniKey myIdKey (some id) file

/-- `load_iagent_id`; `iniparser_load` fails without a file. -/
def loadIagentId (file : Option CString) : Option (Option CString) :=
  match file with
  | none => some none
  | some text =>
    (iniparserLoad text).map fun ini =>
      match ini with
      | none => none
      | some ini => (iniparserGetString ini myIdKey).getD none

/-! ## Changes of plain contents -/

/-- The name of a setting that a file can carry. -/
structure PlainEntry (sec key : CString) : Prop where
  plainName : PlainName sec
  plainKey : PlainKey key
  short : sec.bytes.length + 1 + key.bytes.length ≤ asciiLineSz

/-- A change of the file. -/
inductive Change where
  | set (sec key value : CString) (plain : PlainSetting sec key value)
  | unset (sec key : CString) (plain : PlainEntry sec key)

/-- The name of the entry that is changed. -/
def Change.name : Change → CString
  | .set sec key _ _ => entryName sec key
  | .unset sec key _ => entryName sec key

/-- A call of `set_ini_key` that returns `true`. -/
def Change.perform (change : Change) (file : Option CString) : Option (Option CString) :=
  let called :=
    match change with
    | .set sec key value _ => setIniKey (entryName sec key) (some value) file
    | .unset sec key _ => setIniKey (entryName sec key) none file
  called.bind fun result => if result.1 then some result.2 else none

/-- What a change does to the contents. -/
def Change.onContents (map : Contents) : Change → Contents
  | .set sec key value _ => update (update map sec (some none)) (entryName sec key)
      (some (some value))
  | .unset sec key _ => update map (entryName sec key) none

variable {sec key value : CString} {map : Contents} {dictionary : Dictionary}

theorem PlainMap.set (plain : PlainMap map) (setting : PlainSetting sec key value) :
    PlainMap (update (update map sec (some none)) (entryName sec key) (some (some value))) := by
  have sectionStays : ∀ {other : CString}, PlainName other → (other = sec ∨ map other = some none) →
      update (update map sec (some none)) (entryName sec key)
      (some (some value)) other = some none := by
    intro other plainOther isSection
    rw [update_of_ne (entryName_ne plainOther sec key).symm]
    by_cases same : other = sec
    · rw [same, update_self]
    · rw [update_of_ne same]
      exact isSection.resolve_left same
  intro name val here
  by_cases isEntry : name = entryName sec key
  · subst isEntry
    rw [update_self] at here
    obtain rfl := some.inj here
    exact .inr ⟨sec, key, value, rfl, rfl, setting, sectionStays setting.plainName (.inl rfl)⟩
  rw [update_of_ne isEntry] at here
  by_cases isSection : name = sec
  · subst isSection
    rw [update_self] at here
    obtain rfl := some.inj here
    exact .inl ⟨rfl, setting.plainName⟩
  rw [update_of_ne isSection] at here
  rcases plain name val here with left | ⟨other, otherKey, otherValue, rfl, rfl,
    otherSetting, declared⟩
  · exact .inl left
  · exact .inr ⟨other, otherKey, otherValue, rfl, rfl, otherSetting,
      sectionStays otherSetting.plainName (.inr declared)⟩

theorem PlainMap.unset (plain : PlainMap map) (sec key : CString) :
    PlainMap (update map (entryName sec key) none) := by
  intro name val here
  by_cases isEntry : name = entryName sec key
  · rw [isEntry, update_self] at here
    cases here
  rw [update_of_ne isEntry] at here
  rcases plain name val here with left | ⟨other, otherKey, otherValue, rfl, rfl,
    otherSetting, declared⟩
  · exact .inl left
  · refine .inr ⟨other, otherKey, otherValue, rfl, rfl, otherSetting, ?_⟩
    rw [update_of_ne (entryName_ne otherSetting.plainName sec key).symm]
    exact declared

theorem PlainMap.change (plain : PlainMap map) (change : Change) :
    PlainMap (change.onContents map) := by
  cases change with
  | set sec key value setting => exact plain.set setting
  | unset sec key _ => exact plain.unset sec key

/-! ## One call -/

theorem strlwc_entryName (plainName : PlainName sec) (plainKey : PlainKey key)
    (short : sec.bytes.length + 1 + key.bytes.length ≤ asciiLineSz) :
    strlwc (entryName sec key) (asciiLineSz + 1) = entryName sec key := by
  refine strlwc_lower (fun byte member => ?_) ?_
  · rw [entryName_bytes] at member
    rcases mem_append.mp member with inName | behind
    · exact plainName.lower byte inName
    rcases mem_cons.mp behind with rfl | inKey
    · rfl
    · exact plainKey.lower byte inKey
  · rw [entryName_bytes, length_append, length_cons]
    omega

theorem takeWhile_entryName (plainName : PlainName sec) (key : CString) :
    (entryName sec key).bytes.takeWhile (· ≠ 58) = sec.bytes := by
  rw [entryName_bytes]
  refine Taken.takeWhile ⟨fun byte member => decide_eq_true ?_, fun byte first => ?_⟩
  · rintro rfl
    exact plainName.no_colon member
  · obtain rfl := some.inj first
    rfl

/-- A file whose dictionary has these contents; a missing file is an empty one. -/
structure Keeps (file : Option CString) (map : Contents) : Prop where
  reads : ∃ dictionary, iniparserLoad (file.getD .empty) = some (some dictionary) ∧
    Leaves dictionary map
  plain : PlainMap map

theorem keeps_missing : Keeps none fun _ => none :=
  ⟨⟨_, loadLoop_nil _, reads_start.leaves⟩, fun _ _ here => by cases here⟩

/-- What is written of a dictionary keeps its contents. -/
theorem keeps_dump (leaves : Leaves dictionary map) (plain : PlainMap map) :
    Keeps (some (iniparserDumpIni dictionary)) map :=
  ⟨iniparserLoad_dump leaves plain, plain⟩

/-- A change succeeds, and the file has the changed contents. -/
theorem Keeps.change {file : Option CString} (keeps : Keeps file map) (change : Change) :
    ∃ text, change.perform file = some (some text) ∧ Keeps (some text) (change.onContents map) := by
  obtain ⟨⟨ini, loaded, leaves⟩, plain⟩ := keeps
  have changedPlain := plain.change change
  cases change with
  | set sec key value setting =>
    have lower := strlwc_entryName setting.plainName setting.plainKey setting.fits.name
    have shortName := setting.plainName.short
    have lowerName : strlwc sec (asciiLineSz + 1) = sec :=
      strlwc_lower setting.plainName.lower (by omega)
    obtain ⟨declared, setSection, declaredLeaves, -⟩ := dictionarySet_leaves leaves.sound sec none
    obtain ⟨final, setKey, finalLeaves, -⟩ :=
      dictionarySet_leaves declaredLeaves.sound (entryName sec key) (some value)
    rw [declaredLeaves.lookups, leaves.lookups] at finalLeaves
    have hasSection : sec.bytes.length < (entryName sec key).bytes.length := by
      rw [entryName_bytes, length_append, length_cons]
      omega
    refine ⟨iniparserDumpIni final, ?_, keeps_dump finalLeaves changedPlain⟩
    simp only [Change.perform, setIniKey,
      loaded, takeWhile_entryName setting.plainName, if_pos hasSection, ofBytes_bytes, iniparserSet,
      lowerName, lower, setSection, setKey, bind_some, map_some, if_true]
  | unset sec key entry =>
    have lower := strlwc_entryName entry.plainName entry.plainKey entry.short
    obtain ⟨finalLeaves, -⟩ := dictionaryUnset_leaves leaves.sound (entryName sec key)
    rw [leaves.lookups] at finalLeaves
    refine ⟨_, ?_, keeps_dump finalLeaves changedPlain⟩
    simp only [Change.perform, setIniKey, loaded, iniparserUnset, lower, map_some,
      bind_some, if_true]

/-! ## Runs -/

/-- What is read from a file that keeps some contents. -/
theorem Keeps.getString {text : CString} (keeps : Keeps (some text) map) :
    ∃ dictionary, iniparserLoad text = some (some dictionary) ∧
      ∀ key, iniparserGetString dictionary key = map (strlwc key (asciiLineSz + 1)) := by
  obtain ⟨⟨dictionary, loaded, leaves⟩, -⟩ := keeps
  refine ⟨dictionary, loaded, fun key => ?_⟩
  rw [iniparserGetString, dictionaryGet_eq leaves.sound, leaves.lookups]

theorem Keeps.run {file : Option CString} (keeps : Keeps file map) (changes : List Change) :
    ∃ final, runAll Change.perform changes file = some final ∧
    Keeps final (changes.foldl Change.onContents map) ∧ (file.isSome → final.isSome) := by
  induction changes generalizing file map with
  | nil => exact ⟨file, rfl, keeps, id⟩
  | cons change rest ih =>
    obtain ⟨text, done, kept⟩ := keeps.change change
    obtain ⟨final, ran, finalKeeps, isThere⟩ := ih kept
    exact ⟨final, by rw [runAll, done, bind_some, ran], finalKeeps, fun _ => isThere rfl⟩

/-- Whatever was changed since there was no file: the file can be loaded, and under each key it has
what was set last and not unset. -/
theorem setIniKey_run (first : Change) (rest : List Change) :
    ∃ text dictionary, runAll Change.perform (first :: rest) none = some (some text) ∧
      iniparserLoad text = some (some dictionary) ∧
      ∀ key, iniparserGetString dictionary key =
        (first :: rest).foldl Change.onContents (fun _ => none) (strlwc key (asciiLineSz + 1)) := by
  obtain ⟨written, done, kept⟩ := keeps_missing.change first
  obtain ⟨final, ran, finalKeeps, isThere⟩ := kept.run rest
  obtain ⟨text, rfl⟩ := isSome_iff_exists.mp (isThere rfl)
  obtain ⟨dictionary, loaded, has⟩ := finalKeeps.getString
  exact ⟨text, dictionary, by rw [runAll, done, bind_some, ran], loaded, has⟩

/-- Changes of other entries leave an entry. -/
theorem onContents_other {changes : List Change} {name : CString}
    {val : Option CString} (hasColon : 58 ∈ name.bytes)
    (others : ∀ change ∈ changes, change.name ≠ name) (here : map name = some val) :
    changes.foldl Change.onContents map name = some val := by
  induction changes generalizing map with
  | nil => exact here
  | cons change rest ih =>
    obtain ⟨different, later⟩ := forall_mem_cons.mp others
    refine ih later ?_
    cases change with
    | set sec key value setting =>
      have notSection : name ≠ sec := by
        rintro rfl
        exact setting.plainName.no_colon hasColon
      have notEntry : name ≠ entryName sec key := Ne.symm different
      rw [Change.onContents, update_of_ne notEntry, update_of_ne notSection, here]
    | unset sec key _ =>
      have notEntry : name ≠ entryName sec key := Ne.symm different
      rw [Change.onContents, update_of_ne notEntry, here]

theorem plainSetting_myId {id : CString} (plain : PlainValue id) (short : id.bytes.length < 990) :
    PlainSetting (.ofBytes [105, 45, 97, 103, 101, 110, 116])
      (.ofBytes [109, 121, 105, 100]) id where
  plainName := by decide
  plainKey := by decide
  plainValue := plain
  fits := ⟨by show max 30 4 + 3 + id.bytes.length + 1 < 1024; omega, by decide⟩

/-- An id that was saved is loaded again, whatever else is changed in the file before and behind. -/
theorem loadIagentId_saved (before after : List Change) {id : CString} (plain : PlainValue id)
    (short : id.bytes.length < 990) (others : ∀ change ∈ after, change.name ≠ myIdKey) :
    ∃ saved file, (runAll Change.perform before none).bind (saveIagentId id) = some (true, saved) ∧
    runAll Change.perform after saved = some file ∧ loadIagentId file = some (some id) := by
  have setting := plainSetting_myId plain short
  have lower : strlwc myIdKey (asciiLineSz + 1) = myIdKey :=
    strlwc_entryName setting.plainName setting.plainKey setting.fits.name
  obtain ⟨middle, ranBefore, keeps, -⟩ := keeps_missing.run before
  obtain ⟨text, done, kept⟩ := keeps.change (.set _ _ id setting)
  obtain ⟨final, ranAfter, finalKeeps, isThere⟩ := kept.run after
  obtain ⟨last, rfl⟩ := isSome_iff_exists.mp (isThere rfl)
  have called : saveIagentId id middle = some (true, some text) := by
    obtain ⟨⟨returned, file⟩, isCall, result⟩ := bind_eq_some_iff.mp done
    simp only at result
    split at result
    · rename_i isTrue
      obtain rfl := some.inj result
      rw [isTrue] at isCall
      exact isCall
    · cases result
  refine ⟨some text, some last, by rw [ranBefore, bind_some, called], ranAfter, ?_⟩
  obtain ⟨dictionary, loaded, has⟩ := finalKeeps.getString
  have here : iniparserGetString dictionary myIdKey = some (some id) := by
    rw [has, lower]
    refine onContents_other (by decide) others ?_
    rw [Change.onContents]
    exact update_self _ _ _
  simp only [loadIagentId, loaded, map_some, here, getD_some]

/-- The id `gw1`, with the address of the broker set before and a log level unset behind. -/
theorem loadIagentId_saved_gw1 : ∃ saved file,
    (runAll Change.perform [.set (.ofBytes [105, 98]) (.ofBytes [105, 112]) (.ofBytes [49, 46, 50])
        ⟨by decide, by decide, by decide, ⟨by decide, by decide⟩⟩] none).bind
      (saveIagentId (.ofBytes [103, 119, 49])) = some (true, saved) ∧
    runAll Change.perform [.unset (.ofBytes [108, 111, 103]) (.ofBytes [108])
        ⟨by decide, by decide, by decide⟩] saved = some file ∧
    loadIagentId file = some (some (.ofBytes [103, 119, 49])) :=
  loadIagentId_saved _ _ (by decide) (by decide) (by
    intro change member
    rw [mem_singleton.mp member]
    decide)

end Idrm.Ini
