import Idrm.Lib.CString
import Idrm.Lib.Run
import Idrm.Lib.Slots

/-!
# The dictionary of the ini parser

`dictionary.c` keeps strings under string keys in an array of slots. A search compares hashes
before it compares keys, an insertion looks for a free slot from the number of entries on, and a
full array is doubled. Whatever is set and unset, a search finds what a map would have under the
key.

Memory is never short here.
-/

namespace Idrm.Ini

open Idrm.Lib Function Option List

/-- One position of the arrays `key`, `val` and `hash`. -/
structure Slot where
  key : Option CString
  val : Option CString
  hash : UInt32
deriving DecidableEq

/-- A slot as `calloc` leaves it. -/
def Slot.free : Slot := ⟨none, none, 0⟩

/-- `dictionary`; `size` is the number of slots. -/
structure Dictionary where
  n : Nat
  slots : List Slot
deriving DecidableEq

/-- One round of `dictionary_hash`; a `char` is signed. -/
def hashStep (hash : UInt32) (char : UInt8) : UInt32 :=
  let hash := hash + char.toInt8.toInt32.toUInt32
  let hash := hash + (hash <<< 10)
  hash ^^^ (hash >>> 6)

/-- `dictionary_hash` -/
def dictionaryHash (key : CString) : UInt32 :=
  let hash := key.bytes.foldl hashStep 0
  let hash := hash + (hash <<< 3)
  let hash := hash ^^^ (hash >>> 11)
  hash + (hash <<< 15)

/-- `DICTMINSZ` -/
def dictMinSz : Nat := 128

/-- `dictionary_new` -/
def dictionaryNew (size : Nat) : Dictionary where
  n := 0
  slots := List.replicate (if size < dictMinSz then dictMinSz else size) Slot.free

/-- `dictionary_grow` -/
def dictionaryGrow (dictionary : Dictionary) : Dictionary :=
  { dictionary with slots := dictionary.slots ++ List.replicate dictionary.slots.length Slot.free }

/-- What the loops over the slots stop at: the hash is compared first, then the key. -/
def Slot.holds (hash : UInt32) (key : CString) (slot : Slot) : Bool :=
  match slot.key with
  | none => false
  | some stored => hash = slot.hash && key = stored

/-- `dictionary_get`; `none` stands for the default of the caller, and a value can be `NULL`. -/
def dictionaryGet (dictionary : Dictionary) (key : CString) : Option (Option CString) :=
  (dictionary.slots.find? (Slot.holds (dictionaryHash key) key)).map Slot.val

/-- `dictionary_set`; `none` if the search for a free slot does not end. -/
def dictionarySet (key : CString) (val : Option CString) (dictionary : Dictionary) :
    Option Dictionary :=
  let found := if 0 < dictionary.n then
    dictionary.slots.findIdx? (Slot.holds (dictionaryHash key) key) else none
  match found with
  | some index => some { dictionary with
      slots := dictionary.slots.modify index fun slot => { slot with val := val } }
  | none =>
    let grown := if dictionary.n = dictionary.slots.length then
      dictionaryGrow dictionary else dictionary
    (probe (fun slot => slot.key.isSome) grown.slots grown.slots.length grown.n).map fun index =>
      { n := grown.n + 1, slots := grown.slots.set index ⟨some key, val, dictionaryHash key⟩ }

/-- `dictionary_unset` -/
def dictionaryUnset (key : CString) (dictionary : Dictionary) : Dictionary :=
  match dictionary.slots.findIdx? (Slot.holds (dictionaryHash key) key) with
  | none => dictionary
  | some index => { n := dictionary.n - 1, slots := dictionary.slots.set index Slot.free }

/-! ## The content of a dictionary -/

/-- What a slot holds. -/
def Slot.entry (slot : Slot) : Option (CString × Option CString) :=
  slot.key.map fun key => (key, slot.val)

/-- The entries in slot order. -/
def Dictionary.entries (dictionary : Dictionary) : List (CString × Option CString) :=
  content Slot.entry dictionary.slots

/-- The hash of a slot is that of its key. -/
def Slot.Hashed (slot : Slot) : Prop := ∀ key, slot.key = some key → slot.hash = dictionaryHash key

/-- What holds of a dictionary between two calls. -/
structure Sound (dictionary : Dictionary) : Prop where
  counted : dictionary.n = dictionary.entries.length
  distinct : DistinctKeys dictionary.entries
  hashed : ∀ slot ∈ dictionary.slots, slot.Hashed
  sized : dictionary.slots ≠ []

variable {dictionary next : Dictionary} {key : CString} {val : Option CString}
  {front back : List Slot} {slot : Slot}

theorem Slot.entry_eq_some_iff {pair : CString × Option CString} :
    slot.entry = some pair ↔ slot.key = some pair.1 ∧ slot.val = pair.2 := by
  cases slot with
  | mk slotKey slotVal hash =>
    cases slotKey with
    | none => simp [Slot.entry]
    | some stored =>
      obtain ⟨pairKey, pairVal⟩ := pair
      simp [Slot.entry]

/-- With right hashes, the comparison of hashes changes nothing. -/
theorem Slot.holds_iff (hashed : slot.Hashed) :
    slot.holds (dictionaryHash key) key = true ↔ ∃ value, slot.entry = some (key, value) := by
  unfold Slot.holds
  split
  · rename_i absent
    simp [Slot.entry_eq_some_iff, absent]
  · rename_i stored present
    rw [hashed stored present]
    simp only [Slot.entry_eq_some_iff, present, Option.some.injEq, Bool.and_eq_true,
      decide_eq_true_eq]
    constructor
    · rintro ⟨-, rfl⟩
      exact ⟨slot.val, rfl, rfl⟩
    · rintro ⟨_, rfl, -⟩
      exact ⟨rfl, rfl⟩

theorem Sound.holds_iff (sound : Sound dictionary) (member : slot ∈ dictionary.slots) :
    slot.holds (dictionaryHash key) key = true ↔ ∃ value, slot.entry = some (key, value) :=
  Slot.holds_iff (sound.hashed slot member)

/-- A search finds what the entries have under the key. -/
theorem dictionaryGet_eq (sound : Sound dictionary) (key : CString) :
    dictionaryGet dictionary key = lookups dictionary.entries key := by
  have agrees : ∀ slot ∈ dictionary.slots, slot.holds (dictionaryHash key) key = true ↔
      ∃ value, slot.entry = some (key, value) :=
    fun slot member => sound.holds_iff member
  rw [Dictionary.entries, lookups_content agrees, dictionaryGet]
  cases found : dictionary.slots.find? (Slot.holds (dictionaryHash key) key) with
  | none => rfl
  | some slot =>
    have isHere := List.find?_some found
    obtain ⟨value, full⟩ := (sound.holds_iff (mem_of_find?_eq_some found)).mp isHere
    rw [bind_some, full, map_some, map_some, (Slot.entry_eq_some_iff.mp full).2]

/-- The entries around a full slot. -/
theorem entries_around {pair : CString × Option CString} (full : slot.entry = some pair) (n : Nat) :
    (Dictionary.mk n (front ++ slot :: back)).entries = content Slot.entry front ++ pair ::
      content Slot.entry back :=
  content_full full front back

/-- The entries around an empty slot. -/
theorem entries_without (empty : slot.entry = none) (n : Nat) :
    (Dictionary.mk n (front ++ slot :: back)).entries = content Slot.entry front ++
      content Slot.entry back :=
  content_empty empty front back

/-- Where a search stops. -/
theorem findIdx?_holds (sound : Sound dictionary) {index : Nat}
    (found : dictionary.slots.findIdx? (Slot.holds (dictionaryHash key) key) = some index) :
    ∃ front slot back value, dictionary.slots = front ++ slot :: back ∧ front.length = index ∧
      slot.entry = some (key, value) := by
  obtain ⟨inside, isHere, -⟩ := List.findIdx?_eq_some_iff_getElem.mp found
  obtain ⟨value, full⟩ := (sound.holds_iff (getElem_mem inside)).mp isHere
  obtain ⟨front, back, split, length⟩ := exists_around (List.getElem?_eq_getElem inside)
  exact ⟨front, _, back, value, split, length, full⟩

/-- Where a search stops nowhere, the key is not there. -/
theorem findIdx?_holds_none (sound : Sound dictionary)
    (missing : dictionary.slots.findIdx? (Slot.holds (dictionaryHash key) key) = none) :
    key ∉ dictionary.entries.map Prod.fst := by
  intro member
  obtain ⟨⟨_, value⟩, entryMember, rfl⟩ := List.mem_map.mp member
  obtain ⟨slot, slotMember, full⟩ := mem_filterMap.mp entryMember
  have isHere := (sound.holds_iff slotMember).mpr ⟨value, full⟩
  rw [List.findIdx?_eq_none_iff.mp missing slot slotMember] at isHere
  cases isHere

/-! ## What the operations do -/

/-- What one call leaves: a sound dictionary with these entries under the keys. -/
structure Leaves (dictionary : Dictionary) (map : CString → Option (Option CString)) : Prop where
  sound : Sound dictionary
  lookups : lookups dictionary.entries = map

theorem sound_new (size : Nat) : Sound (dictionaryNew size) := by
  have empty : (dictionaryNew size).entries = [] := content_replicate rfl _
  refine ⟨by rw [empty]; rfl, by rw [empty]; exact nodup_nil, fun slot member key present => ?_, ?_⟩
  · rw [eq_of_mem_replicate member] at present
    cases present
  · intro none
    have length := congrArg List.length none
    rw [dictionaryNew, length_replicate] at length
    unfold dictMinSz at length
    split at length <;> simp at length
    omega

/-- A grown dictionary has the same entries. -/
theorem grow_entries (dictionary : Dictionary) :
    (dictionaryGrow dictionary).entries = dictionary.entries := by
  rw [Dictionary.entries, dictionaryGrow, content_append, content_replicate rfl, append_nil]
  rfl

theorem Sound.grow (sound : Sound dictionary) : Sound (dictionaryGrow dictionary) := by
  refine ⟨?_, ?_, fun slot member key present => ?_, ?_⟩
  · rw [grow_entries]
    exact sound.counted
  · rw [grow_entries]
    exact sound.distinct
  · rcases mem_append.mp member with old | new
    · exact sound.hashed slot old key present
    · rw [eq_of_mem_replicate new] at present
      cases present
  · exact fun none => sound.sized (append_eq_nil_iff.mp none).1

/-- The entries fit into the slots. -/
theorem Sound.n_le (sound : Sound dictionary) : dictionary.n ≤ dictionary.slots.length :=
  sound.counted ▸ length_filterMap_le _ _

/-- The other slots keep their hashes. -/
theorem hashed_exchange {fresh : Slot} (hashed : ∀ other ∈ front ++ slot :: back, other.Hashed)
    (here : fresh.Hashed) : ∀ other ∈ front ++ fresh :: back, other.Hashed := by
  intro other member
  rcases mem_append.mp member with inFront | behind
  · exact hashed other (mem_append_left _ inFront)
  rcases mem_cons.mp behind with rfl | inBack
  · exact here
  · exact hashed other (mem_append_right _ (mem_cons_of_mem _ inBack))

variable {n : Nat}

/-- The value of one slot is exchanged. -/
theorem Sound.replace {old : Option CString} (sound : Sound ⟨n, front ++ slot :: back⟩)
    (full : slot.entry = some (key, old)) (val : Option CString) :
    Leaves ⟨n, front ++ { slot with val := val } :: back⟩
      (update (lookups (Dictionary.mk n (front ++ slot :: back)).entries) key (some val)) := by
  obtain ⟨counted, distinct, hashed, -⟩ := sound
  have here : ({ slot with val := val } : Slot).entry = some (key, val) :=
    Slot.entry_eq_some_iff.mpr ⟨(Slot.entry_eq_some_iff.mp full).1, rfl⟩
  rw [entries_around full] at counted distinct ⊢
  refine ⟨⟨?_, ?_, ?_, append_ne_nil_of_right_ne_nil _ (cons_ne_nil _ _)⟩, ?_⟩
  · rw [entries_around here]
    simpa using counted
  · rw [entries_around here]
    have others := distinctKeys_middle.mp distinct
    exact distinctKeys_middle.mpr others
  · exact hashed_exchange hashed (hashed slot (mem_append_right _ mem_cons_self))
  · rw [entries_around here, distinct.lookups_replace]

/-- A free slot is filled with a new key. -/
theorem Sound.fill (sound : Sound ⟨n, front ++ slot :: back⟩) (free : slot.key = none)
    (absent : key ∉ (Dictionary.mk n (front ++ slot :: back)).entries.map Prod.fst)
    (val : Option CString) : Leaves ⟨n + 1, front ++ ⟨some key, val, dictionaryHash key⟩ :: back⟩
      (update (lookups (Dictionary.mk n (front ++ slot :: back)).entries) key (some val)) := by
  obtain ⟨counted, distinct, hashed, -⟩ := sound
  have empty : slot.entry = none := by rw [Slot.entry, free]; rfl
  have here : (Slot.mk (some key) val (dictionaryHash key)).entry = some (key, val) := rfl
  rw [entries_without empty] at counted distinct absent ⊢
  refine ⟨⟨?_, ?_, ?_, append_ne_nil_of_right_ne_nil _ (cons_ne_nil _ _)⟩, ?_⟩
  · rw [entries_around here]
    rw [length_append] at counted
    rw [length_append, length_cons]
    exact congrArg (· + 1) counted
  · rw [entries_around here]
    exact distinctKeys_middle.mpr ⟨absent, distinct⟩
  · refine hashed_exchange hashed fun stored present => ?_
    rw [← some.inj present]
  · rw [entries_around here,
      lookups_middle fun member => absent (map_append ▸ mem_append_left _ member)]

/-- One slot is cleared. -/
theorem Sound.clear {old : Option CString} (sound : Sound ⟨n, front ++ slot :: back⟩)
    (full : slot.entry = some (key, old)) : Leaves ⟨n - 1, front ++ Slot.free :: back⟩
      (update (lookups (Dictionary.mk n (front ++ slot :: back)).entries) key none) := by
  obtain ⟨counted, distinct, hashed, -⟩ := sound
  have empty : Slot.free.entry = none := rfl
  rw [entries_around full] at counted distinct ⊢
  refine ⟨⟨?_, ?_, ?_, append_ne_nil_of_right_ne_nil _ (cons_ne_nil _ _)⟩, ?_⟩
  · rw [entries_without empty]
    rw [length_append, length_cons] at counted
    rw [length_append]
    exact congrArg (· - 1) counted
  · rw [entries_without empty]
    exact (distinctKeys_middle.mp distinct).2
  · exact hashed_exchange hashed fun stored present => absurd present.symm (some_ne_none stored)
  · rw [entries_without empty, distinct.lookups_erase]

/-- With room, a new key is put into a free slot. -/
theorem Sound.insert (sound : Sound dictionary) (absent : key ∉ dictionary.entries.map Prod.fst)
    (room : dictionary.n < dictionary.slots.length) (val : Option CString) :
    ∃ index, probe (fun slot => slot.key.isSome)
      dictionary.slots dictionary.slots.length dictionary.n = some index ∧
    Leaves ⟨dictionary.n + 1, dictionary.slots.set index ⟨some key, val, dictionaryHash key⟩⟩
      (update (lookups dictionary.entries) key (some val)) := by
  obtain ⟨empty, member, isEmpty⟩ :=
    exists_empty (sound.counted ▸ room : (content Slot.entry dictionary.slots).length < _)
  have isFree : empty.key.isSome = false := by simpa [Slot.entry] using isEmpty
  obtain ⟨index, found⟩ := probe_round (fun slot => slot.key.isSome) member isFree room
  refine ⟨index, found, ?_⟩
  obtain ⟨slot, here, free⟩ := probe_free found
  obtain ⟨n, slots⟩ := dictionary
  obtain ⟨front, back, rfl, rfl⟩ := exists_around here
  rw [set_around]
  exact sound.fill (by simpa using free) absent val

/-- A key is set in every sound dictionary; the array grows if it is full. -/
theorem dictionarySet_leaves (sound : Sound dictionary) (key : CString) (val : Option CString) :
    ∃ next, dictionarySet key val dictionary = some next ∧
    Leaves next (update (lookups dictionary.entries) key (some val)) ∧ next.n ≤ dictionary.n + 1 ∧
    (next.slots.length = dictionary.slots.length ∨ dictionary.n = dictionary.slots.length ∧
      next.slots.length = 2 * dictionary.slots.length) := by
  unfold dictionarySet
  cases found : dictionary.slots.findIdx? (Slot.holds (dictionaryHash key) key) with
  | some index =>
    obtain ⟨front, slot, back, value, split, rfl, full⟩ := findIdx?_holds sound found
    obtain ⟨n, slots⟩ := dictionary
    obtain rfl : slots = _ := split
    have positive : 0 < n := by
      have counted : n = _ := sound.counted
      rw [entries_around full, length_append, length_cons] at counted
      omega
    simp only [if_pos positive, modify_around]
    exact ⟨_, rfl, sound.replace full val, Nat.le_succ n, .inl (by simp)⟩
  | none =>
    have absent := findIdx?_holds_none sound found
    simp only [ite_self]
    by_cases isFull : dictionary.n = dictionary.slots.length
    · simp only [if_pos isFull]
      have longer : (dictionaryGrow dictionary).slots.length = 2 * dictionary.slots.length := by
        rw [dictionaryGrow, length_append, length_replicate]
        omega
      have room : (dictionaryGrow dictionary).n < (dictionaryGrow dictionary).slots.length := by
        have positive := length_pos_iff.mpr sound.sized
        show dictionary.n < _
        omega
      obtain ⟨index, free, leaves⟩ := sound.grow.insert (by rwa [grow_entries]) room val
      rw [grow_entries] at leaves
      rw [free]
      exact ⟨_, rfl, leaves, Nat.le_refl _, .inr ⟨isFull, by rw [length_set, longer]⟩⟩
    · simp only [if_neg isFull]
      obtain ⟨index, free, leaves⟩ := sound.insert absent (lt_of_le_of_ne sound.n_le isFull) val
      rw [free]
      exact ⟨_, rfl, leaves, Nat.le_refl _, .inl (by rw [length_set])⟩

/-- A key is unset. -/
theorem dictionaryUnset_leaves (sound : Sound dictionary) (key : CString) :
    Leaves (dictionaryUnset key dictionary) (update (lookups dictionary.entries) key none) ∧
      (dictionaryUnset key dictionary).n ≤ dictionary.n ∧
      (dictionaryUnset key dictionary).slots.length = dictionary.slots.length := by
  unfold dictionaryUnset
  cases found : dictionary.slots.findIdx? (Slot.holds (dictionaryHash key) key) with
  | some index =>
    obtain ⟨front, slot, back, value, split, rfl, full⟩ := findIdx?_holds sound found
    obtain ⟨n, slots⟩ := dictionary
    obtain rfl : slots = _ := split
    simp only [set_around]
    exact ⟨sound.clear full, Nat.sub_le n 1, by simp⟩
  | none =>
    have absent := findIdx?_holds_none sound found
    exact ⟨⟨sound, (update_eq_self_iff.mpr (lookups_absent absent).symm).symm⟩, Nat.le_refl _, rfl⟩

/-! ## Runs -/

/-- A call that changes a dictionary. -/
inductive DictionaryCall where
  | set (key : CString) (val : Option CString)
  | unset (key : CString)

/-- A call is made. -/
def DictionaryCall.perform : DictionaryCall → Dictionary → Option Dictionary
  | .set key val, dictionary => dictionarySet key val dictionary
  | .unset key, dictionary => some (dictionaryUnset key dictionary)

/-- What a call does to a map. -/
def DictionaryCall.onMap (map : CString → Option (Option CString)) : DictionaryCall → CString →
    Option (Option CString)
  | .set key val => update map key (some val)
  | .unset key => update map key none

/-- What is kept over a run: the entries are those of the map, and the array is the first one or at
most twice as long as there were calls. -/
structure Represents (size : Nat) (calls : List DictionaryCall)
    (dictionary : Dictionary) : Prop where
  leaves : Leaves dictionary (calls.foldl DictionaryCall.onMap fun _ => none)
  short : dictionary.n ≤ calls.length
  bounded : dictionary.slots.length ≤ max (max size dictMinSz) (2 * calls.length)

theorem represents_new (size : Nat) : Represents size [] (dictionaryNew size) := by
  refine ⟨⟨sound_new size, ?_⟩, Nat.le_refl 0, ?_⟩
  · funext key
    rw [Dictionary.entries, dictionaryNew, content_replicate rfl]
    rfl
  · rw [dictionaryNew, length_replicate]
    split <;> omega

theorem Represents.step {size : Nat} {past : List DictionaryCall}
    (represents : Represents size past dictionary) (call : DictionaryCall) :
    ∃ next, call.perform dictionary = some next ∧ Represents size (past ++ [call]) next := by
  obtain ⟨⟨sound, same⟩, short, bounded⟩ := represents
  have longer : (past ++ [call]).length = past.length + 1 := length_append
  cases call with
  | set key val =>
    obtain ⟨next, done, leaves, counted, length⟩ := dictionarySet_leaves sound key val
    refine ⟨next, done, ?_, by omega, by omega⟩
    rw [foldl_append, ← same]
    exact leaves
  | unset key =>
    obtain ⟨leaves, counted, length⟩ := dictionaryUnset_leaves sound key
    refine ⟨_, rfl, ?_, by omega, by omega⟩
    rw [foldl_append, ← same]
    exact leaves

/-- Every run of calls has a result. A search finds in it what the map has, `n` is the number of
keys of the map, and the array has room for them without being much longer than there were calls. -/
theorem dictionary_run (size : Nat) (calls : List DictionaryCall) :
    ∃ dictionary, runAll DictionaryCall.perform calls (dictionaryNew size) = some dictionary ∧
      (∀ key, dictionaryGet dictionary key = calls.foldl DictionaryCall.onMap (fun _ => none) key) ∧
      (∃ keys : List CString, keys.Nodup ∧ keys.length = dictionary.n ∧
        ∀ key, key ∈ keys ↔ (calls.foldl DictionaryCall.onMap (fun _ => none) key).isSome) ∧
      dictionary.n ≤ dictionary.slots.length ∧
      dictionary.slots.length ≤ max (max size dictMinSz) (2 * calls.length) := by
  obtain ⟨final, ran, ⟨sound, same⟩, -, bounded⟩ :=
    runAll_safe (Represents size) (fun _ => True) (represents_new size)
    (fun _ _ _ => trivial) (fun _ call _ _ represents => represents.step call) calls trivial
  refine ⟨final, ran, fun key => ?_,
    ⟨final.entries.map Prod.fst, sound.distinct, ?_, fun key => ?_⟩, sound.n_le, bounded⟩
  · rw [dictionaryGet_eq sound, same]
  · rw [length_map, sound.counted]
  · rw [← same, lookups_isSome_iff]

end Idrm.Ini
