import Idrm.Lib.CString

/-!
# Query strings

`query_string_to_json` goes over a copy of the query once. It keeps where the key and the value
start, cuts the string at every `=` and `&`, and stores a term at the `&` behind it or at the end.
`queryStringToJson_eq` is what it stores by terms: the text behind the last `=` of each, up to the
first term without one.
-/

namespace Idrm.Url

open Idrm.Lib Option List

/-- What the functions of the JSON library do with an object of strings: setting a name replaces
what it had, and a text that is not valid is not set. -/
structure JsonObjects (Obj : Type) where
  initObject : Obj
  setString : CString → CString → Obj → Obj
  getString : CString → Obj → Option CString
  accepts : CString → Bool
  get_init : ∀ name, getString name initObject = none
  get_set : ∀ name text object other, accepts text = true →
    getString other (setString name text object) = if other = name then some text
    else getString other object
  set_refused : ∀ name text object, accepts text = false → setString name text object = object

/-- The characters `=`, `&` and the blank. -/
def equalsSign : UInt8 := 0x3D
def ampersand : UInt8 := 0x26
def blank : UInt8 := 0x20

/-- A text without the blanks it starts with. -/
def skipBlanks (text : List UInt8) : List UInt8 := text.dropWhile (· = blank)

section Scan

variable {Obj : Type} (json : JsonObjects Obj)

/-- The state of the loop: the bytes before `p` as they are now, those from `p` on, and where `key`
and `value` point. -/
structure QueryScan (Obj : Type) where
  passed : List UInt8
  rest : List UInt8
  key : Nat
  value : Option Nat
  object : Obj

namespace QueryScan

/-- `while(*p == ' ') p++` -/
def skip (scan : QueryScan Obj) : QueryScan Obj :=
  { scan with
    passed := scan.passed ++ scan.rest.takeWhile (· = blank)
    rest := skipBlanks scan.rest }

/-- The byte at `p` is cut, and `p` moves on. -/
def cut (scan : QueryScan Obj) : QueryScan Obj :=
  { scan with passed := scan.passed ++ [0], rest := scan.rest.tail }

/-- The string that starts at an index, there being a NUL at `p`. -/
def stringAt (scan : QueryScan Obj) (index : Nat) : CString := .ofBytes (scan.passed.drop index)

/-- `json_object_set_string(root_obj, key, value)` -/
def store (scan : QueryScan Obj) (value : Nat) : Obj :=
  json.setString (scan.stringAt scan.key) (scan.stringAt value) scan.object

end QueryScan

/-- The loop of `query_string_to_json`. -/
def scanQuery : Nat → QueryScan Obj → Obj
  | 0, scan => scan.object
  | fuel + 1, scan =>
    match scan.rest with
    | [] =>
      match scan.value with
      | some value => scan.store json value
      | none => scan.object
    | byte :: rest =>
      if byte = equalsSign then
        let skipped := scan.cut.skip
        scanQuery fuel { skipped with value := some skipped.passed.length }
      else if byte = ampersand then
        match scan.value with
        | none => scan.object
        | some value =>
          let skipped := scan.cut.skip
          scanQuery fuel { skipped with
            value := none
            key := skipped.passed.length
            object := scan.store json value }
      else scanQuery fuel { scan with passed := scan.passed ++ [byte], rest := rest }

/-- `query_string_to_json`; each round of the loop takes a byte. -/
def queryStringToJson (query : CString) : Obj :=
  let started := QueryScan.skip ⟨[], query.bytes, 0, none, json.initObject⟩
  scanQuery json (query.bytes.length + 1) { started with key := started.passed.length }

end Scan

/-! ## Terms -/

/-- The terms of a query. -/
def terms (query : CString) : List (List UInt8) := query.bytes.splitOn ampersand

/-- The text before the first `=` of a term. -/
def termKey (term : List UInt8) : CString := .ofBytes ((skipBlanks term).takeWhile (· ≠ equalsSign))

/-- The text behind the first `=` of a term. -/
def termValue (term : List UInt8) : List UInt8 := (term.dropWhile (· ≠ equalsSign)).tail

/-- A value without the blanks it starts with. -/
def textOf (value : List UInt8) : CString := .ofBytes (skipBlanks value)

/-- The text behind the last `=` of a term. -/
def afterLast : List UInt8 → Option (List UInt8)
  | [] => none
  | byte :: rest =>
    match afterLast rest with
    | some text => some text
    | none => if byte = equalsSign then some rest else none

section Terms

variable {term : List UInt8}

theorem afterLast_eq_none_iff : afterLast term = none ↔ equalsSign ∉ term := by
  induction term with
  | nil => exact iff_of_true rfl not_mem_nil
  | cons byte rest ih =>
    rw [afterLast, mem_cons, not_or, ← ih]
    cases afterLast rest with
    | some text => simp
    | none =>
      simp only [and_true]
      by_cases sign : byte = equalsSign
      · simp [sign]
      · simp [sign, Ne.symm sign]

/-- There is no further `=` behind the last. -/
theorem not_mem_afterLast {text : List UInt8} (found : afterLast term = some text) :
    equalsSign ∉ text := by
  induction term with
  | nil => cases found
  | cons byte rest ih =>
    rw [afterLast] at found
    cases behind : afterLast rest with
    | some later =>
      rw [behind] at found
      exact ih (behind.trans found)
    | none =>
      rw [behind] at found
      simp only at found
      split at found
      · obtain rfl := some.inj found
        exact afterLast_eq_none_iff.mp behind
      · cases found

/-- Where there is one `=`, the first is the last. -/
theorem afterLast_eq_termValue (sign : equalsSign ∈ term) (single : equalsSign ∉ termValue term) :
    afterLast term = some (termValue term) := by
  induction term with
  | nil => cases sign
  | cons byte rest ih =>
    by_cases first : byte = equalsSign
    · have value : termValue (byte :: rest) = rest := by simp [termValue, first]
      rw [value] at single ⊢
      rw [afterLast, afterLast_eq_none_iff.mpr single]
      exact if_pos first
    · have value : termValue (byte :: rest) = termValue rest := by simp [termValue, first]
      rw [value] at single ⊢
      rw [afterLast, ih ((mem_cons.mp sign).resolve_left (Ne.symm first)) single]

theorem afterLast_skipBlanks : afterLast (skipBlanks term) = afterLast term := by
  induction term with
  | nil => rfl
  | cons byte rest ih =>
    by_cases space : byte = blank
    · have skipped : skipBlanks (byte :: rest) = skipBlanks rest := by simp [skipBlanks, space]
      rw [skipped, ih, afterLast, if_neg (by rw [space]; decide)]
      cases afterLast rest <;> rfl
    · have kept : skipBlanks (byte :: rest) = byte :: rest := by simp [skipBlanks, space]
      rw [kept]

theorem splitOn_cons_other {byte : UInt8} (other : byte ≠ ampersand) (rest : List UInt8) :
    (byte :: rest).splitOn ampersand = (rest.splitOn ampersand).modifyHead (byte :: ·) := by
  rw [List.splitOn, splitOnP_cons_eq_if_modifyHead, if_neg (by simpa using other)]
  rfl

theorem splitOn_cons_ampersand (rest : List UInt8) :
    (ampersand :: rest).splitOn ampersand = [] :: rest.splitOn ampersand := by
  rw [List.splitOn, splitOnP_cons_eq_if_modifyHead, if_pos (by decide)]
  rfl

/-- A term has no bytes of its own. -/
theorem mem_of_mem_splitOn {bytes : List UInt8} (member : term ∈ bytes.splitOn ampersand)
    {byte : UInt8} (inside : byte ∈ term) : byte ∈ bytes := by
  induction bytes generalizing term with
  | nil =>
    rw [splitOn_nil] at member
    obtain rfl := mem_singleton.mp member
    exact inside
  | cons first rest ih =>
    by_cases mark : first = ampersand
    · rw [mark, splitOn_cons_ampersand] at member
      rcases mem_cons.mp member with rfl | member
      · cases inside
      · exact mem_cons_of_mem _ (ih member inside)
    · rw [splitOn_cons_other mark] at member
      cases split : rest.splitOn ampersand with
      | nil =>
        rw [split] at member
        cases member
      | cons head others =>
        rw [split] at ih member
        rcases mem_cons.mp member with rfl | member
        · rcases mem_cons.mp inside with rfl | inside
          · exact mem_cons_self
          · exact mem_cons_of_mem _ (ih mem_cons_self inside)
        · exact mem_cons_of_mem _ (ih (mem_cons_of_mem _ member) inside)

theorem splitOn_skipBlanks (bytes : List UInt8) :
    (skipBlanks bytes).splitOn ampersand = (bytes.splitOn ampersand).modifyHead skipBlanks := by
  induction bytes with
  | nil => rfl
  | cons byte rest ih =>
    by_cases space : byte = blank
    · have skipped : skipBlanks (byte :: rest) = skipBlanks rest := by simp [skipBlanks, space]
      rw [skipped, ih, splitOn_cons_other (by rw [space]; decide), modifyHead_modifyHead]
      congr 1
      funext term
      simp [skipBlanks, space]
    · have kept : ∀ tail, skipBlanks (byte :: tail) = byte :: tail :=
        fun tail => by simp [skipBlanks, space]
      rw [kept]
      by_cases mark : byte = ampersand
      · rw [mark, splitOn_cons_ampersand]
        rfl
      · rw [splitOn_cons_other mark, modifyHead_modifyHead]
        congr 1
        funext term
        exact (kept term).symm

end Terms

/-! ## The loop by terms -/

section Loop

variable {Obj : Type} (json : JsonObjects Obj)

/-- Terms are stored up to the first without `=`, each with the text behind its last `=`. -/
def storeTerms : List (List UInt8) → Obj → Obj
  | [], object => object
  | term :: others, object =>
    match afterLast term with
    | none => object
    | some text => storeTerms others (json.setString (termKey term) (textOf text) object)

/-- The key and the value of a term of which some was read: `key`, and `value` behind the last `=`
so far. -/
def pending (key : List UInt8) (value : Option (List UInt8)) (term : List UInt8) :
    Option (List UInt8 × List UInt8) :=
  match value, afterLast term with
  | none, none => none
  | none, some text => some (key ++ term.takeWhile (· ≠ equalsSign), skipBlanks text)
  | some value, none => some (key, value ++ term)
  | some _, some text => some (key, skipBlanks text)

/-- What is stored of the terms where some of the first was read. -/
def storeRest (key : List UInt8) (value : Option (List UInt8)) : List (List UInt8) → Obj → Obj
  | [], object => object
  | term :: others, object =>
    match pending key value term with
    | none => object
    | some (key, text) =>
      storeTerms json others (json.setString (.ofBytes key) (.ofBytes text) object)

/-- The strings the loop has read so far: the key, and the value if there was a `=`. -/
inductive Reads (scan : QueryScan Obj) (key : List UInt8) : Option (List UInt8) → Prop
  | key : scan.value = none → scan.key ≤ scan.passed.length → scan.passed.drop scan.key = key →
      Reads scan key none
  | value {index : Nat} {value : List UInt8} :
      scan.value = some index → scan.key ≤ scan.passed.length → index ≤ scan.passed.length →
      (∃ behind, scan.passed.drop scan.key = key ++ 0 :: behind) → scan.passed.drop index = value →
      Reads scan key (some value)

variable {json} {key : List UInt8} {value : Option (List UInt8)} {object : Obj}
  {scan : QueryScan Obj}

theorem ofBytes_cut (front behind : List UInt8) (nulFree : (0 : UInt8) ∉ front) :
    CString.ofBytes (front ++ 0 :: behind) = .ofBytes front := by
  ext1
  have whole : ∀ byte ∈ front, decide (byte ≠ 0) = true := by
    intro byte member
    have different : byte ≠ 0 := by
      rintro rfl
      exact nulFree member
    simpa using different
  change List.takeWhile _ _ = List.takeWhile _ _
  rw [takeWhile_append_of_pos whole, takeWhile_eq_self_iff.mpr whole,
    takeWhile_cons_of_neg (by simp), append_nil]

theorem pending_blanks (term : List UInt8) :
    pending key (some []) (skipBlanks term) = pending key value (equalsSign :: term) := by
  unfold pending
  rw [afterLast_skipBlanks, afterLast]
  cases afterLast term <;> cases value <;> simp

theorem pending_cons {byte : UInt8} (other : byte ≠ equalsSign) (term : List UInt8) :
    pending key none (byte :: term) = pending (key ++ [byte]) none term := by
  unfold pending
  rw [afterLast]
  cases afterLast term with
  | none => simp [other]
  | some text => simp [other]

theorem pending_cons_value {byte : UInt8} (other : byte ≠ equalsSign) (text term : List UInt8) :
    pending key (some text) (byte :: term) = pending key (some (text ++ [byte])) term := by
  unfold pending
  rw [afterLast]
  cases afterLast term with
  | none => simp [other]
  | some text => simp

theorem pending_nil (text : List UInt8) : pending key (some text) [] = some (key, text) := by
  simp [pending, afterLast]

theorem pending_start (term : List UInt8) :
    pending [] none (skipBlanks term) = (afterLast term).map fun text =>
      ((skipBlanks term).takeWhile (· ≠ equalsSign), skipBlanks text) := by
  unfold pending
  rw [afterLast_skipBlanks]
  cases afterLast term with
  | none => rfl
  | some text => rfl

/-- At the start of a term nothing of it is read. -/
theorem storeRest_start (rest : List (List UInt8)) :
    storeRest json [] none (rest.modifyHead skipBlanks) object = storeTerms json rest object := by
  cases rest with
  | nil => rfl
  | cons term others =>
    rw [modifyHead_cons, storeRest, storeTerms, pending_start]
    cases afterLast term with
    | none => rfl
    | some text => rfl

theorem storeRest_congr (change another : List UInt8 → List UInt8)
    {other : List UInt8} {otherValue : Option (List UInt8)}
    (same : ∀ term, pending key value (change term) = pending other otherValue (another term))
    (rest : List (List UInt8)) : storeRest json key value (rest.modifyHead change) object =
      storeRest json other otherValue (rest.modifyHead another) object := by
  cases rest with
  | nil => rfl
  | cons term others => rw [modifyHead_cons, modifyHead_cons, storeRest, storeRest, same]

/-- A byte that is no sign is read into the value, or into the key where there is none. -/
theorem storeRest_cons {byte : UInt8} (noSign : byte ≠ equalsSign) (noMark : byte ≠ ampersand)
    (rest : List UInt8) : storeRest json key value ((byte :: rest).splitOn ampersand) object =
      match value with
      | none => storeRest json (key ++ [byte]) none (rest.splitOn ampersand) object
      | some text => storeRest json key (some (text ++ [byte]))
          (rest.splitOn ampersand) object := by
  rw [splitOn_cons_other noMark]
  cases value with
  | none =>
    simpa using storeRest_congr (byte :: ·) id (pending_cons noSign) (rest.splitOn ampersand)
  | some text =>
    simpa using storeRest_congr (byte :: ·) id (pending_cons_value noSign text)
      (rest.splitOn ampersand)

/-- Behind a `=` the value starts anew, and the key is what it was or ends there. -/
theorem Reads.sign (reads : Reads scan key value) (blanks rest : List UInt8) :
    Reads { scan with
      passed := scan.passed ++ [0] ++ blanks
      rest := rest
      value := some (scan.passed ++ [0] ++ blanks).length } key (some []) := by
  have longer : scan.passed.length ≤ (scan.passed ++ [0] ++ blanks).length := by
    rw [append_assoc, length_append]
    exact Nat.le_add_right _ _
  cases reads with
  | key unset inside keyIs =>
    refine .value rfl (inside.trans longer) le_rfl ⟨blanks, ?_⟩ drop_length
    rw [append_assoc, drop_append_of_le_length inside, keyIs]
    rfl
  | value set inside valueInside keyIs valueIs =>
    obtain ⟨behind, keyIs⟩ := keyIs
    refine .value rfl (inside.trans longer) le_rfl ⟨behind ++ [0] ++ blanks, ?_⟩ drop_length
    rw [append_assoc, drop_append_of_le_length inside, keyIs]
    simp

/-- Any other byte is read. -/
theorem Reads.byte (reads : Reads scan key value) (byte : UInt8) (rest : List UInt8) :
    match value with
    | none => Reads { scan with passed := scan.passed ++ [byte], rest := rest } (key ++ [byte]) none
    | some text => Reads { scan with passed := scan.passed ++ [byte], rest := rest } key
        (some (text ++ [byte])) := by
  have longer : scan.passed.length ≤ (scan.passed ++ [byte]).length := by
    rw [length_append]
    exact Nat.le_add_right _ _
  cases reads with
  | key unset inside keyIs =>
    exact .key unset (inside.trans longer) (by rw [drop_append_of_le_length inside, keyIs])
  | value set inside valueInside keyIs valueIs =>
    obtain ⟨behind, keyIs⟩ := keyIs
    refine .value set (inside.trans longer) (valueInside.trans longer) ⟨behind ++ [byte], ?_⟩ ?_
    · rw [drop_append_of_le_length inside, keyIs, append_assoc]
      rfl
    · rw [drop_append_of_le_length valueInside, valueIs]

theorem Reads.index {text : List UInt8} (reads : Reads scan key (some text)) :
    ∃ index, scan.value = some index := by
  cases reads with
  | value set => exact ⟨_, set⟩

/-- The term read so far is stored under its key. -/
theorem Reads.store {index : Nat} {text : List UInt8} (reads : Reads scan key (some text))
    (set : scan.value = some index) (keyFree : (0 : UInt8) ∉ key) :
    scan.store json index = json.setString (.ofBytes key) (.ofBytes text) scan.object := by
  cases reads with
  | value other inside valueInside keyIs valueIs =>
    obtain ⟨behind, keyIs⟩ := keyIs
    obtain rfl := some.inj (other.symm.trans set)
    rw [QueryScan.store, QueryScan.stringAt, QueryScan.stringAt, keyIs, valueIs,
      ofBytes_cut _ _ keyFree]

/-- The loop stores what the bytes from `p` on say, with what was read before them. -/
theorem scanQuery_eq (fuel : Nat) (enough : scan.rest.length < fuel) (reads : Reads scan key value)
    (keyFree : (0 : UInt8) ∉ key) (restFree : (0 : UInt8) ∉ scan.rest) : scanQuery json fuel scan =
      storeRest json key value (scan.rest.splitOn ampersand) scan.object := by
  induction fuel generalizing scan key value with
  | zero => omega
  | succ fuel ih =>
    cases unread : scan.rest with
    | nil =>
      simp only [scanQuery, unread]
      cases value with
      | none =>
        cases reads with
        | key unset inside keyIs =>
          rw [unset]
          rfl
      | some text =>
        obtain ⟨index, set⟩ := reads.index
        rw [set, splitOn_nil, storeRest, pending_nil]
        exact reads.store set keyFree
    | cons byte rest =>
      rw [unread] at enough restFree
      have byteFree : byte ≠ 0 := fun nul => restFree (nul ▸ mem_cons_self)
      have laterFree : (0 : UInt8) ∉ rest := fun member => restFree (mem_cons_of_mem _ member)
      have blanksFree : (0 : UInt8) ∉ skipBlanks rest :=
        fun member => laterFree ((dropWhile_sublist _).mem member)
      have shorter : (skipBlanks rest).length ≤ rest.length := (dropWhile_sublist _).length_le
      rw [length_cons] at enough
      simp only [scanQuery, unread]
      by_cases sign : byte = equalsSign
      · rw [if_pos sign, sign, splitOn_cons_other (by decide)]
        have started := reads.sign (rest.takeWhile (· = blank)) (skipBlanks rest)
        simp only [QueryScan.cut, QueryScan.skip, unread, tail_cons]
        refine (ih ?_ started keyFree blanksFree).trans ?_
        · exact lt_of_le_of_lt shorter (by omega)
        · rw [splitOn_skipBlanks]
          exact storeRest_congr skipBlanks (equalsSign :: ·) pending_blanks _
      rw [if_neg sign]
      by_cases mark : byte = ampersand
      · rw [if_pos mark, mark, splitOn_cons_ampersand, storeRest]
        cases value with
        | none =>
          cases reads with
          | key unset inside keyIs =>
            rw [unset]
            rfl
        | some text =>
          obtain ⟨index, set⟩ := reads.index
          rw [set, pending_nil]
          simp only [QueryScan.cut, QueryScan.skip, unread, tail_cons, reads.store set keyFree]
          refine (ih ?_ (.key rfl le_rfl drop_length) not_mem_nil blanksFree).trans ?_
          · exact lt_of_le_of_lt shorter (by omega)
          · rw [splitOn_skipBlanks, storeRest_start]
      · rw [if_neg mark, storeRest_cons sign mark]
        have read := reads.byte byte rest
        cases value with
        | none =>
          refine ih (by simp only; omega) read ?_ laterFree
          simp [keyFree, byteFree.symm]
        | some text => exact ih (by simp only; omega) read keyFree laterFree

/-- What `query_string_to_json` makes of a query, by its terms. -/
theorem queryStringToJson_eq (json : JsonObjects Obj) (query : CString) :
    queryStringToJson json query = storeTerms json (terms query) json.initObject := by
  unfold queryStringToJson terms
  have started : Reads (⟨query.bytes.takeWhile (· = blank), skipBlanks query.bytes,
    (query.bytes.takeWhile (· = blank)).length, none, json.initObject⟩ : QueryScan Obj) [] none :=
    .key rfl le_rfl drop_length
  refine (scanQuery_eq _ ?_ started not_mem_nil ?_).trans ?_
  · exact Nat.lt_succ_of_le (dropWhile_sublist _).length_le
  · exact fun member => query.nulFree ((dropWhile_sublist _).mem member)
  · change storeRest json [] none ((skipBlanks query.bytes).splitOn ampersand) _ = _
    rw [splitOn_skipBlanks, storeRest_start]

end Loop

/-! ## Every condition is kept -/

section Keeps

variable {Obj : Type} (json : JsonObjects Obj)

/-- Each term with a `=` is in the object, with the whole text behind its first one. -/
def KeepsConditions (query : CString) : Prop :=
  ∀ term ∈ terms query, equalsSign ∈ term →
    json.getString (termKey term) (queryStringToJson json query) = some (textOf (termValue term))

/-- The terms before the first without a `=`. -/
def reachedTerms (all : List (List UInt8)) : List (List UInt8) := all.takeWhile (equalsSign ∈ ·)

/-- A query whose terms are all kept: the values have no `=` and are valid text, terms of the same
key have the same value, and each key with a `=` comes before the first term without one. -/
structure Plain (query : CString) : Prop where
  single : ∀ term ∈ terms query, equalsSign ∈ term → equalsSign ∉ termValue term
  accepted : ∀ term ∈ terms query, equalsSign ∈ term → json.accepts (textOf (termValue term)) = true
  agreeing : ∀ term ∈ terms query, equalsSign ∈ term → ∀ other ∈ terms query, equalsSign ∈ other →
    termKey term = termKey other → textOf (termValue term) = textOf (termValue other)
  reached : ∀ term ∈ terms query, equalsSign ∈ term → ∃ earlier ∈ reachedTerms (terms query),
    termKey earlier = termKey term

variable {json} {all others : List (List UInt8)} {term value : List UInt8} {object : Obj}
  {key text : CString}

theorem mem_of_afterLast (found : afterLast term = some value) : equalsSign ∈ term := by
  by_contra missing
  cases found.symm.trans (afterLast_eq_none_iff.mpr missing)

theorem reachedTerms_cons (sign : equalsSign ∈ term) :
    reachedTerms (term :: others) = term :: reachedTerms others :=
  takeWhile_cons_of_pos (by simpa using sign)

theorem reachedTerms_cons_none (unsigned : equalsSign ∉ term) :
    reachedTerms (term :: others) = [] :=
  takeWhile_cons_of_neg (by simpa using unsigned)

theorem mem_of_reached (member : term ∈ reachedTerms all) : term ∈ all ∧ equalsSign ∈ term :=
  ⟨(takeWhile_sublist _).mem member, by simpa using mem_takeWhile_imp member⟩

/-- What is found was there, or is the text behind the last `=` of a term that was reached. -/
theorem getString_storeTerms (found : json.getString key (storeTerms json all object) = some text) :
    json.getString key object = some text ∨
      ∃ term ∈ reachedTerms all, ∃ value, afterLast term = some value ∧ termKey term = key ∧
        textOf value = text ∧ json.accepts text = true := by
  induction all generalizing object with
  | nil => exact .inl found
  | cons term others ih =>
    rw [storeTerms] at found
    cases sign : afterLast term with
    | none =>
      rw [sign] at found
      exact .inl found
    | some value =>
      rw [sign] at found
      rw [reachedTerms_cons (mem_of_afterLast sign)]
      rcases ih found with before | ⟨later, laterMember, rest⟩
      · cases valid : json.accepts (textOf value) with
        | true =>
          rw [json.get_set _ _ _ _ valid] at before
          split at before
          · rename_i same
            obtain rfl := some.inj before
            exact .inr ⟨term, mem_cons_self, value, sign, same.symm, rfl, valid⟩
          · exact .inl before
        | false =>
          rw [json.set_refused _ _ _ valid] at before
          exact .inl before
      · exact .inr ⟨later, mem_cons_of_mem _ laterMember, rest⟩

/-- Where all reached terms of a key have the same text, and the texts are valid, it is found. -/
theorem getString_of_agreeing (same : ∀ term ∈ reachedTerms all,
      ∀ value, afterLast term = some value → termKey term = key → textOf value = text)
    (valid : ∀ term ∈ reachedTerms all, ∀ value, afterLast term = some value →
      json.accepts (textOf value) = true) (there : json.getString key object = some text ∨
      ∃ term ∈ reachedTerms all, termKey term = key) :
    json.getString key (storeTerms json all object) = some text := by
  induction all generalizing object with
  | nil =>
    rcases there with there | ⟨term, member, -⟩
    · exact there
    · cases member
  | cons term rest ih =>
    rw [storeTerms]
    cases sign : afterLast term with
    | none =>
      rw [reachedTerms_cons_none (afterLast_eq_none_iff.mp sign)] at there
      rcases there with there | ⟨other, member, -⟩
      · exact there
      · cases member
    | some value =>
      rw [reachedTerms_cons (mem_of_afterLast sign)] at same there valid
      refine ih (fun other otherMember => same other (mem_cons_of_mem _ otherMember))
        (fun other otherMember => valid other (mem_cons_of_mem _ otherMember)) ?_
      rw [json.get_set _ _ _ _ (valid term mem_cons_self value sign)]
      by_cases named : key = termKey term
      · rw [if_pos named, same term mem_cons_self value sign named.symm]
        exact .inl rfl
      · rw [if_neg named]
        rcases there with there | ⟨other, otherMember, otherKey⟩
        · exact .inl there
        · refine .inr ⟨other, (mem_cons.mp otherMember).resolve_left ?_, otherKey⟩
          rintro rfl
          exact named otherKey.symm

theorem mem_skipBlanks (sign : equalsSign ∈ value) : equalsSign ∈ skipBlanks value := by
  have split := takeWhile_append_dropWhile (p := fun byte => decide (byte = blank)) (l := value)
  rw [← split] at sign
  refine (mem_append.mp sign).resolve_left fun inside => ?_
  have space := mem_takeWhile_imp inside
  exact absurd space (by decide)

/-- A kept value is that of the term only where the term has one `=`: what is stored has none. -/
theorem not_mem_of_textOf_eq {query : CString}
    (member : term ∈ terms query) (stored : equalsSign ∉ value)
    (same : textOf value = textOf (termValue term)) : equalsSign ∉ termValue term := by
  intro sign
  have free : (0 : UInt8) ∉ skipBlanks (termValue term) := by
    intro nul
    have inside : (0 : UInt8) ∈ term :=
      (dropWhile_sublist _).mem ((tail_sublist _).mem ((dropWhile_sublist _).mem nul))
    exact query.nulFree (mem_of_mem_splitOn member inside)
  have there : equalsSign ∈ (textOf value).bytes := by
    rw [same, textOf, CString.ofBytes_nulFree free]
    exact mem_skipBlanks sign
  exact stored ((dropWhile_sublist _).mem ((takeWhile_sublist _).mem there))

/-- Whatever the JSON library does beyond what is asked of it: a query keeps its conditions exactly
where it is plain. -/
theorem keepsConditions_iff_plain (json : JsonObjects Obj) (query : CString) :
    KeepsConditions json query ↔ Plain json query := by
  unfold KeepsConditions
  rw [queryStringToJson_eq]
  constructor
  · intro keeps
    -- Each kept term is stored by a term that was reached, and with the same text.
    have stored : ∀ term ∈ terms query, equalsSign ∈ term → ∃ earlier ∈ reachedTerms (terms query),
        ∃ value, afterLast earlier = some value ∧ termKey earlier = termKey term ∧
        textOf value = textOf (termValue term) ∧ json.accepts (textOf (termValue term)) = true := by
      intro term member sign
      rcases getString_storeTerms (keeps term member sign) with before | found
      · rw [json.get_init] at before
        cases before
      · exact found
    refine ⟨fun term member sign => ?_, fun term member sign => ?_,
      fun term member sign other otherMember otherSign key => ?_, fun term member sign => ?_⟩
    · obtain ⟨earlier, -, value, found, -, same, -⟩ := stored term member sign
      exact not_mem_of_textOf_eq member (not_mem_afterLast found) same
    · obtain ⟨-, -, -, -, -, -, valid⟩ := stored term member sign
      exact valid
    · have one := keeps term member sign
      rw [key, keeps other otherMember otherSign] at one
      exact (some.inj one).symm
    · obtain ⟨earlier, reached, -, -, key, -⟩ := stored term member sign
      exact ⟨earlier, reached, key⟩
  · rintro ⟨single, accepted, agreeing, reached⟩ term member sign
    have value : ∀ other ∈ reachedTerms (terms query), ∀ text, afterLast other = some text →
        text = termValue other := by
      intro other otherMember text found
      obtain ⟨inside, otherSign⟩ := mem_of_reached otherMember
      exact some.inj
        (found.symm.trans (afterLast_eq_termValue otherSign (single other inside otherSign)))
    refine getString_of_agreeing (fun other otherMember text found key => ?_)
      (fun other otherMember text found => ?_) (.inr (reached term member sign))
    · obtain ⟨inside, otherSign⟩ := mem_of_reached otherMember
      rw [value other otherMember text found]
      exact agreeing other inside otherSign term member sign key
    · obtain ⟨inside, otherSign⟩ := mem_of_reached otherMember
      rw [value other otherMember text found]
      exact accepted other inside otherSign

/-- Objects as lists of names and texts; every text is valid. -/
def listObjects : JsonObjects (List (CString × CString)) where
  initObject := []
  setString := fun name text object => (name, text) :: object
  getString := fun name object => (object.find? (·.1 = name)).map (·.2)
  accepts := fun _ => true
  get_init := fun _ => rfl
  get_set := by
    intro name text object other _
    by_cases same : name = other
    · simp [same]
    · simp [same, Ne.symm same]
  set_refused := by
    rintro name text object ⟨⟩

/-- `"a=1&x&b=2"` -/
def cutShort : CString := .ofBytes [0x61, 0x3D, 0x31, 0x26, 0x78, 0x26, 0x62, 0x3D, 0x32]

/-- The scan stops at the term without `=`, and the condition behind it is lost. -/
theorem keepsConditions_cutShort_fails : ¬KeepsConditions listObjects cutShort ∧
    listObjects.getString (.ofBytes [0x62]) (queryStringToJson listObjects cutShort) = none := by
  refine ⟨fun keeps => ?_, by decide⟩
  have kept := keeps [0x62, 0x3D, 0x32] (by decide) (by decide)
  exact absurd kept (by decide)

end Keeps

end Idrm.Url
