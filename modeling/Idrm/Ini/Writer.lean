import Idrm.Ini.Parser

/-!
# Reading values and writing ini files

The accessors of `iniparser.c`, and `iniparser_dump_ini`: it writes one block for each section, in
the order of the slots, with the keys that begin with the name of the section and a colon.
-/

namespace Idrm.Ini

open Idrm.Lib

/-- `iniparser_getstring`; `none` stands for the default of the caller. -/
def iniparserGetString (dictionary : Dictionary) (key : CString) : Option (Option CString) :=
  dictionaryGet dictionary (strlwc key (asciiLineSz + 1))

/-- `iniparser_find_entry` -/
def iniparserFindEntry (dictionary : Dictionary) (entry : CString) : Bool :=
  (iniparserGetString dictionary entry).isSome

/-- `iniparser_set` -/
def iniparserSet (entry : CString) (val : Option CString) (dictionary : Dictionary) :
    Option Dictionary :=
  dictionarySet (strlwc entry (asciiLineSz + 1)) val dictionary

/-- `iniparser_unset` -/
def iniparserUnset (entry : CString) (dictionary : Dictionary) : Dictionary :=
  dictionaryUnset (strlwc entry (asciiLineSz + 1)) dictionary

/-- The keys without a colon: the names of the sections, in slot order. -/
def sectionNames (dictionary : Dictionary) : List CString :=
  (dictionary.slots.filterMap Slot.key).filter fun key => !key.bytes.contains 58

/-- `iniparser_getnsec` -/
def iniparserGetNSec (dictionary : Dictionary) : Nat := (sectionNames dictionary).length

/-- `iniparser_getsecname` -/
def iniparserGetSecName (dictionary : Dictionary) (n : Nat) : Option CString :=
  (sectionNames dictionary)[n]?

/-- The end of a line. -/
def newLine : CString := ⟨[10], by decide⟩

@[simp] theorem newLine_bytes : newLine.bytes = [10] := rfl

/-- `%-30s` -/
def padded (text : CString) : CString :=
  text ++ ⟨List.replicate (30 - text.bytes.length) 32,
    fun member => absurd (List.eq_of_mem_replicate member) (by decide)⟩

/-- `"%-30s = %s\n"` -/
def keyText (key value : CString) : CString :=
  padded key ++ ⟨[32, 61, 32], by decide⟩ ++ value ++ newLine

/-- `"\n[%s]\n"` -/
def sectionText (name : CString) : CString := ⟨[10, 91], by decide⟩ ++ name ++ ⟨[93, 10], by decide⟩

/-- Texts one after the other. -/
def concat (texts : List CString) : CString := texts.foldr (· ++ ·) .empty

/-- What the loop of `iniparser_dumpsection_ini` writes for a slot. -/
def slotText (name : CString) (slot : Slot) : CString :=
  match slot.key with
  | none => .empty
  | some key =>
    if (entryName name .empty).bytes.isPrefixOf key.bytes then
      keyText (key.drop (name.bytes.length + 1)) (slot.val.getD .empty)
    else .empty

/-- `iniparser_dumpsection_ini` -/
def iniparserDumpSectionIni (dictionary : Dictionary) (name : CString) : CString :=
  if iniparserFindEntry dictionary name then
    sectionText name ++ concat (dictionary.slots.map (slotText name)) ++ newLine
  else .empty

/-- `"%s = %s\n"`; `printf` writes `(null)` for `NULL`. -/
def globalText (slot : Slot) : CString :=
  match slot.key with
  | none => .empty
  | some key => key ++ ⟨[32, 61, 32], by decide⟩ ++ slot.val.getD ⟨[40, 110, 117, 108, 108,
      41], by decide⟩ ++ newLine

/-- `iniparser_dump_ini` -/
def iniparserDumpIni (dictionary : Dictionary) : CString :=
  let nsec := iniparserGetNSec dictionary
  if nsec < 1 then concat (dictionary.slots.map globalText)
  else
    concat ((List.range nsec).map fun i => iniparserDumpSectionIni dictionary
      ((iniparserGetSecName dictionary i).getD .empty)) ++ newLine

end Idrm.Ini
