import Idrm.Ini.Dictionary
import Idrm.Lib.Scanf

/-!
# Reading ini files

`iniparser_load` takes a file line by line, joins lines at a backslash, and hands each line to
`iniparser_line`, which tries one `sscanf` format after the other. The three buffers for section,
key and value live as long as the load: a format that matches only in part leaves its words in
them.

A file is a text without NUL.
-/

namespace Idrm.Ini

open Idrm.Lib

/-- `ASCIILINESZ` -/
def asciiLineSz : Nat := 1024

/-- `tolower` -/
def toLowerByte (byte : UInt8) : UInt8 := if 65 ≤ byte.toNat ∧ byte.toNat ≤ 90 then
    byte + 32 else byte

/-- `strlwc` into a buffer of `len` cells. -/
def strlwc (string : CString) (len : Nat) : CString :=
  CString.ofBytes ((string.bytes.take (len - 1)).map toLowerByte)

/-- `strstrip` -/
def strstrip (string : CString) : CString := CString.ofBytes (strip string.bytes)

/-- `line_status`, without `LINE_UNPROCESSED`. -/
inductive LineStatus where
  | lineError
  | lineEmpty
  | lineComment
  | lineSection
  | lineValue
deriving DecidableEq

/-- The buffers that `iniparser_line` writes. -/
structure LineBuffers where
  sec : CString
  key : CString
  value : CString

/-- `"[%[^]]"` -/
def sectionFormat : List Directive := [.char 91, .except [93]]

/-- What the formats with a key begin with: `"%[^=] = "`. -/
def keyFormat (value : List Directive) : List Directive :=
  .except [61] :: .blank :: .char 61 :: .blank :: value

/-- `"%[^=] = \"%[^\"]\""` -/
def doubleQuotedFormat : List Directive := keyFormat [.char 34, .except [34], .char 34]

/-- `"%[^=] = '%[^\']'"` -/
def singleQuotedFormat : List Directive := keyFormat [.char 39, .except [39], .char 39]

/-- `"%[^=] = %[^;#]"` -/
def plainFormat : List Directive := keyFormat [.except [59, 35]]

/-- `"%[^=] = %[;#]"` -/
def commentedFormat : List Directive := keyFormat [.among [59, 35]]

/-- `"%[^=] %[=]"` -/
def bareFormat : List Directive := [.except [61], .blank, .among [61]]

/-- `sscanf(line, ..., key, value) == 2`; what is assigned stays assigned. -/
def scanLine (format : List Directive) (line : CString) (buffers : LineBuffers) :
    Bool × LineBuffers :=
  match scan format line.bytes with
  | [] => (false, buffers)
  | [key] => (false, { buffers with key := CString.ofBytes key })
  | key :: value :: _ =>
    (true, { buffers with key := CString.ofBytes key, value := CString.ofBytes value })

/-- The second format is tried if the first one does not match. -/
def scanEither (first second : List Directive) (line : CString) (buffers : LineBuffers) :
    Bool × LineBuffers :=
  let tried := scanLine first line buffers
  if tried.1 then tried else scanLine second line tried.2

/-- The name in a section line, lowered; without a name the buffer keeps the last one. -/
def sectionName (line : CString) (buffers : LineBuffers) : CString :=
  let scanned :=
    match scan sectionFormat line.bytes with
    | [] => buffers.sec
    | name :: _ => CString.ofBytes name
  strlwc (strstrip scanned) line.bytes.length

/-- `strstrip(key); strlwc(key, key, len);` -/
def lowerKey (line : CString) (buffers : LineBuffers) : LineBuffers :=
  { buffers with key := strlwc (strstrip buffers.key) line.bytes.length }

/-- `iniparser_line` on the stripped line, from the formats with a key on. -/
def keyLine (line : CString) (buffers : LineBuffers) : LineStatus × LineBuffers :=
  let quoted := scanEither doubleQuotedFormat singleQuotedFormat line buffers
  if quoted.1 then
    let found := lowerKey line quoted.2
    (.lineValue, if found.value.bytes = [34, 34] ∨
      found.value.bytes = [39, 39] then { found with value := .empty } else found)
  else
    let plain := scanLine plainFormat line quoted.2
    if plain.1 then
      let found := lowerKey line plain.2
      (.lineValue, { found with value := strstrip found.value })
    else
      let special := scanEither commentedFormat bareFormat line plain.2
      if special.1 then (.lineValue, { lowerKey line special.2 with value := .empty })
        else (.lineError, special.2)

/-- `iniparser_line` -/
def iniparserLine (inputLine : CString) (buffers : LineBuffers) : LineStatus × LineBuffers :=
  let line := strstrip inputLine
  match line.bytes with
  | [] => (.lineEmpty, buffers)
  | first :: _ =>
    if first = 35 ∨ first = 59 then (.lineComment, buffers)
    else if first = 91 ∧ line.bytes.getLast? = some 93 then
      (.lineSection, { buffers with sec := sectionName line buffers })
    else keyLine line buffers

/-- A text up to its first newline, which is a part of it. -/
def upToNewline (text : List UInt8) : List UInt8 :=
  let before := text.takeWhile (· ≠ 10)
  if before.length < text.length then before ++ [10] else before

/-- A call of `fgets` with a buffer of `size` cells: the line, the rest of the file, and whether the
end of the file was met; `none` at the end of the file. -/
def fgets (size : Nat) (file : List UInt8) : Option (List UInt8 × List UInt8 × Bool) :=
  match upToNewline (file.take (size - 1)) with
  | [] => none
  | first :: tail =>
    let line := first :: tail
    some (line, file.drop line.length, !line.contains 10 && decide (line.length < size - 1))

theorem fgets_shorter {size : Nat} {file line rest : List UInt8} {feof : Bool}
    (read : fgets size file = some (line, rest, feof)) : rest.length < file.length := by
  cases file with
  | nil => simp [fgets, upToNewline] at read
  | cons char tail =>
    unfold fgets at read
    split at read
    · cases read
    · simp only [Option.some.injEq, Prod.mk.injEq] at read
      obtain ⟨-, rfl, -⟩ := read
      rw [List.length_drop, List.length_cons, List.length_cons]
      omega

/-- What `iniparser_load` carries from line to line; `kept` is the front of the line buffer that the
next line is joined to. -/
structure Loading where
  kept : List UInt8
  buffers : LineBuffers
  dict : Dictionary
  errs : Nat

/-- The colon between section and key. -/
def entryName (sec key : CString) : CString := sec ++ ⟨[58], by decide⟩ ++ key

/-- The body of the loop for a complete line. `errs` is the result of the last `dictionary_set`. -/
def loadLine (line : CString) (loading : Loading) : Option Loading :=
  let (status, buffers) := iniparserLine line loading.buffers
  match status with
  | .lineEmpty | .lineComment => some { loading with kept := [], buffers := buffers }
  | .lineSection => (dictionarySet buffers.sec none loading.dict).map fun dict =>
    ⟨[], buffers, dict, 0⟩
  | .lineValue =>
    (dictionarySet (entryName buffers.sec buffers.key) (some buffers.value) loading.dict).map
      fun dict =>
      ⟨[], buffers, dict, 0⟩
  | .lineError => some ⟨[], buffers, loading.dict, loading.errs + 1⟩

/-- The loop of `iniparser_load`; the inner `none` is `NULL`. -/
def loadLoop (loading : Loading) (file : List UInt8) : Option (Option Dictionary) :=
  match read : fgets (asciiLineSz - loading.kept.length) file with
  | none => some (if loading.errs = 0 then some loading.dict else none)
  | some (chunk, rest, feof) =>
    have := fgets_shorter read
    let line := loading.kept ++ chunk
    if line.length = 1 then loadLoop loading rest
    else if line.getLast? ≠ some 10 ∧ !feof then some none
    else if (trimEnd line).getLast? = some 92 then
      loadLoop { loading with kept := (trimEnd line).dropLast } rest
    else (loadLine (CString.ofBytes (trimEnd line)) loading).bind fun next => loadLoop next rest
termination_by file.length

/-- One round of the loop. -/
theorem loadLoop_read {loading : Loading} {file chunk rest : List UInt8} {feof : Bool}
    (read : fgets (asciiLineSz - loading.kept.length) file = some (chunk, rest, feof)) :
    loadLoop loading file =
      if (loading.kept ++ chunk).length = 1 then loadLoop loading rest
      else if (loading.kept ++ chunk).getLast? ≠ some 10 ∧ !feof then some none
      else if (trimEnd (loading.kept ++ chunk)).getLast? = some 92 then
        loadLoop { loading with kept := (trimEnd (loading.kept ++ chunk)).dropLast } rest
      else (loadLine (CString.ofBytes (trimEnd (loading.kept ++ chunk))) loading).bind fun next =>
        loadLoop next rest := by
  rw [loadLoop]
  split
  · rename_i none
    rw [read] at none
    cases none
  · rename_i again
    rw [read] at again
    cases again
    rfl

/-- The end of the file. -/
theorem loadLoop_nil (loading : Loading) :
    loadLoop loading [] = some (if loading.errs = 0 then some loading.dict else none) := by
  rw [loadLoop]
  split
  · rfl
  · rename_i read
    simp [fgets, upToNewline] at read

/-- The state of `iniparser_load` before the loop. -/
def loadStart : Loading := ⟨[], ⟨.empty, .empty, .empty⟩, dictionaryNew 0, 0⟩

/-- `iniparser_load` -/
def iniparserLoad (file : CString) : Option (Option Dictionary) := loadLoop loadStart file.bytes

end Idrm.Ini
