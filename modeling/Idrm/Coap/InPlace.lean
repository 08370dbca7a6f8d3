import Idrm.Coap.OptionRoundTrip

/-!
# Joining segments in the receive buffer

The parser moves the segments of a path together in the buffer it is still
reading. `parseOptions_inPlace` shows that this is invisible: read through their
references, the fields are those of a parser that holds its strings by value, and
the bytes not yet read are untouched.

The reason is the order of the options. What a merge overwrites lies between the
start of its own string and the option at hand, and every other string ended
before the first option with the current number, at `group`.
-/

namespace Idrm.Coap

open Idrm.Lib Option List

/-- The bytes a reference stands for. -/
def slice (data : List UInt8) (ref : BufRef) : List UInt8 := (data.drop ref.ptr).take ref.len

namespace CoapPacket

variable {S T : Type}

/-- A packet with another way of holding its strings. -/
def mapStrings (view : S → T) (packet : CoapPacket S) : CoapPacket T where
  version := packet.version
  type := packet.type
  code := packet.code
  mid := packet.mid
  token := packet.token
  options := packet.options
  contentFormat := packet.contentFormat
  maxAge := packet.maxAge
  etag := packet.etag
  proxyUri := view packet.proxyUri
  proxyScheme := view packet.proxyScheme
  uriHost := view packet.uriHost
  locationPath := view packet.locationPath
  uriPort := packet.uriPort
  locationQuery := view packet.locationQuery
  uriPath := view packet.uriPath
  observe := packet.observe
  accept := packet.accept
  ifMatch := packet.ifMatch
  block2 := packet.block2
  block1 := packet.block1
  size2 := packet.size2
  size1 := packet.size1
  uriQuery := view packet.uriQuery
  ifNoneMatch := packet.ifNoneMatch
  payload := view packet.payload

/-- The string an option sets, for those that set one. -/
def string (packet : CoapPacket S) : CoapOption → Option S
  | .uriHost => some packet.uriHost
  | .locationPath => some packet.locationPath
  | .uriPath => some packet.uriPath
  | .uriQuery => some packet.uriQuery
  | .locationQuery => some packet.locationQuery
  | .proxyUri => some packet.proxyUri
  | .proxyScheme => some packet.proxyScheme
  | _ => none

/-- A packet with the string of an option replaced. -/
def setString (option : CoapOption) (value : S) (packet : CoapPacket S) : CoapPacket S :=
  match option with
  | .uriHost => { packet with uriHost := value }
  | .locationPath => { packet with locationPath := value }
  | .uriPath => { packet with uriPath := value }
  | .uriQuery => { packet with uriQuery := value }
  | .locationQuery => { packet with locationQuery := value }
  | _ => packet

end CoapPacket

/-- The options a parser keeps as strings. -/
def CoapOption.isString : CoapOption → Bool
  | .uriHost => true
  | .locationPath => true
  | .uriPath => true
  | .uriQuery => true
  | .locationQuery => true
  | _ => false

section Strings

variable {S T : Type}

theorem string_setString {option : CoapOption} (isString : option.isString = true) (value : S)
    (packet : CoapPacket S) (other : CoapOption) :
    (packet.setString option value).string other =
      if other = option then some value else packet.string other := by
  cases option <;> first | exact absurd isString (by decide) | (cases other <;> rfl)

theorem mapStrings_setString (view : S → T) (option : CoapOption)
    (value : S) (packet : CoapPacket S) : (packet.setString option value).mapStrings view =
      (packet.mapStrings view).setString option (view value) := by
  cases option <;> rfl

theorem payload_setString (option : CoapOption) (value : S) (packet : CoapPacket S) :
    (packet.setString option value).payload = packet.payload := by
  cases option <;> rfl

/-- Views that agree on the other strings and the payload give the same packet once
a string is replaced. -/
theorem setString_mapStrings_congr {one two : S → T} {packet : CoapPacket S} {option : CoapOption}
    (isString : option.isString = true)
    (strings : ∀ other ref, packet.string other = some ref → other ≠ option → one ref = two ref)
    (payload : one packet.payload = two packet.payload) (value : T) :
    (packet.mapStrings one).setString option value =
      (packet.mapStrings two).setString option value := by
  have uriHost := strings .uriHost _ rfl
  have locationPath := strings .locationPath _ rfl
  have uriPath := strings .uriPath _ rfl
  have uriQuery := strings .uriQuery _ rfl
  have locationQuery := strings .locationQuery _ rfl
  have proxyUri := strings .proxyUri _ rfl
  have proxyScheme := strings .proxyScheme _ rfl
  cases option <;> simp_all [CoapOption.isString, CoapPacket.setString, CoapPacket.mapStrings]

end Strings

/-! ## Buffers that agree from a position on -/

variable {data original : List UInt8}

theorem getElem?_of_drop_eq {current index : Nat}
    (unread : data.drop current = original.drop current) (later : current ≤ index) :
    data[index]? = original[index]? := by
  have shifted :
      ∀ buffer : List UInt8, buffer[index]? = (buffer.drop current)[index - current]? := by
    intro buffer
    rw [List.getElem?_drop, Nat.add_sub_cancel' later]
  rw [shifted, shifted, unread]

theorem drop_eq_of_le {current index : Nat}
    (unread : data.drop current = original.drop current) (later : current ≤ index) :
    data.drop index = original.drop index := by
  rw [← Nat.add_sub_cancel' later, ← drop_drop, ← drop_drop, unread]

theorem readBytes_of_drop_eq {offset : Nat}
    (unread : data.drop offset = original.drop offset) (sameLength : data.length = original.length)
    (length : Nat) : readBytes data offset length = readBytes original offset length := by
  rw [readBytes, readBytes, sameLength, unread]

theorem extendNibble_of_drop_eq {current offset : Nat}
    (unread : data.drop current = original.drop current) (later : current ≤ offset) (nibble : Nat) :
    extendNibble data offset nibble = extendNibble original offset nibble := by
  rw [extendNibble, extendNibble, getElem?_of_drop_eq unread later,
    getElem?_of_drop_eq unread (Nat.le_succ_of_le later)]

/-- An extension is read behind where it starts. -/
theorem extendNibble_le {data : List UInt8} {offset nibble value next : Nat}
    (extended : extendNibble data offset nibble = some (value, next)) : offset ≤ next := by
  unfold extendNibble at extended
  split at extended
  · obtain ⟨byte, -, built⟩ := map_eq_some_iff.mp extended
    cases built
    omega
  · split at extended
    · obtain ⟨high, -, rest⟩ := bind_eq_some_iff.mp extended
      obtain ⟨low, -, built⟩ := map_eq_some_iff.mp rest
      cases built
      omega
    · cases extended
      omega

theorem readBytes_some {data bytes : List UInt8} {offset length : Nat}
    (read : readBytes data offset length = some bytes) :
    offset + length ≤ data.length ∧ slice data ⟨offset, length⟩ = bytes := by
  unfold readBytes at read
  split at read
  · rename_i bound
    exact ⟨bound, some.inj read⟩
  · cases read

theorem slice_length {data : List UInt8} {ref : BufRef} (inside : ref.ptr + ref.len ≤ data.length) :
    (slice data ref).length = ref.len := by
  rw [slice, length_take, length_drop]
  omega

/-- A reference only looks at the bytes before its end. -/
theorem slice_of_take_eq {data other : List UInt8} {ref : BufRef} {limit : Nat}
    (same : other.take limit = data.take limit) (before : ref.ptr + ref.len ≤ limit) :
    slice other ref = slice data ref := by
  have limited : ∀ buffer : List UInt8,
      slice buffer ref = ((buffer.take limit).take (ref.ptr + ref.len)).drop ref.ptr := by
    intro buffer
    rw [take_take, Nat.min_eq_left before, drop_take, slice, Nat.add_sub_cancel_left]
  rw [limited, limited, same]

/-! ## A merge in the buffer -/

/-- Moving a segment up to the end of a string joins them there, and nothing
outside that range changes. -/
theorem inPlace_merge {data bytes : List UInt8} {dst : BufRef} {offset length : Nat}
    (separator : UInt8) (started : 0 < dst.len) (apart : dst.ptr + dst.len < offset)
    (read : readBytes data offset length = some bytes) : ∃ moved,
    inPlace.merge data dst offset length separator = some (moved, ⟨dst.ptr, dst.len + 1 + length⟩) ∧
      moved.length = data.length ∧
      moved.drop (offset + length) = data.drop (offset + length) ∧
      slice moved ⟨dst.ptr, dst.len + 1 + length⟩ = slice data dst ++ [separator] ++ bytes ∧
      ∀ ref : BufRef, ref.ptr + ref.len ≤ dst.ptr → slice moved ref = slice data ref := by
  obtain ⟨bound, isSlice⟩ := readBytes_some read
  have size : bytes.length = length := by
    rw [← isSlice]
    exact slice_length bound
  have cell : dst.ptr + dst.len < data.length := by omega
  -- The separator lies before the segment, so the segment is read as it was.
  have reread : readBytes (data.set (dst.ptr + dst.len) separator) offset length = some bytes := by
    rw [readBytes, length_set, drop_set_of_lt apart, ← readBytes]
    exact read
  have written : inPlace.merge data dst offset length separator =
      (storeAll data (dst.ptr + dst.len) (separator :: bytes)).map fun moved =>
        (moved, ⟨dst.ptr, dst.len + 1 + length⟩) := by
    simp only [inPlace, gt_iff_lt, started, if_true, store, cell, bind_some, memmove, reread,
      storeAll_cons, Nat.add_assoc]
  have inside := storeAll_inside data (separator :: bytes) (dst.ptr + dst.len) (by
    simp only [length_cons, size]
    omega)
  rw [written, inside]
  have taken : (data.take (dst.ptr + dst.len)).length = dst.ptr + dst.len := by
    rw [length_take, Nat.min_eq_left (Nat.le_of_lt cell)]
  refine ⟨_, rfl, ?_, ?_, ?_, ?_⟩
  · simp only [length_append, length_take, length_cons, length_drop, size]
    omega
  · have front : (data.take (dst.ptr + dst.len) ++ separator :: bytes).length =
        dst.ptr + dst.len + (separator :: bytes).length := by
      rw [length_append, taken]
    obtain ⟨beyond, behind⟩ : ∃ beyond,
        offset + length = dst.ptr + dst.len + (separator :: bytes).length + beyond := by
      simp only [length_cons, size]
      exact ⟨offset - dst.ptr - dst.len - 1, by omega⟩
    rw [behind, ← drop_drop, ← front, drop_left, front, drop_drop]
  · have joined : (data.take (dst.ptr + dst.len)).drop dst.ptr = slice data dst := by
      rw [drop_take, Nat.add_sub_cancel_left, slice]
    have width : (slice data dst).length = dst.len := slice_length (by omega)
    change (List.drop dst.ptr _).take (dst.len + 1 + length) = _
    rw [append_assoc, drop_append_of_le_length (by omega), joined, ← append_assoc]
    have whole : dst.len + 1 + length = (slice data dst ++ separator :: bytes).length := by
      simp only [length_append, length_cons, width, size]
      omega
    rw [whole, take_left]
    simp
  · intro ref before
    refine @slice_of_take_eq data _ ref (dst.ptr + dst.len) ?_ (by omega)
    rw [append_assoc, take_append_of_le_length (by omega), take_take, Nat.min_self]

/-! ## The two parsers side by side -/

/-- A parser in the middle of `data`, which was `original`, has the fields of a
parser that holds `value`; the strings of other numbers end before `group`. -/
structure Tracks (original data : List UInt8) (current number group : Nat)
    (packet : CoapPacket BufRef) (value : Packet) : Prop where
  sameLength : data.length = original.length
  unread : data.drop current = original.drop current
  started : group ≤ current
  view : packet.mapStrings (slice data) = value
  inside : ∀ option ref, packet.string option = some ref →
    ref.ptr + ref.len ≤ current ∧ ref.ptr + ref.len ≤ data.length
  before : ∀ option ref, packet.string option = some ref → option.number ≠ number →
    ref.ptr + ref.len ≤ group
  behind : ∀ option ref, packet.string option = some ref → option.number = number → 0 < ref.len →
    group ≤ ref.ptr
  ahead : ∀ option ref, packet.string option = some ref → number < option.number → ref.len = 0
  payload : packet.payload = ⟨0, 0⟩

section Step

variable {original data : List UInt8} {current number group : Nat} {packet : CoapPacket BufRef}
  {value : Packet}

/-- Reading on within the buffer. -/
theorem Tracks.skip (tracks : Tracks original data current number group packet value) {next : Nat}
    (later : current ≤ next) : Tracks original data next number group packet value :=
  { tracks with
    unread := drop_eq_of_le tracks.unread later
    started := Nat.le_trans tracks.started later
    inside := fun option ref found =>
      ⟨Nat.le_trans (tracks.inside option ref found).1 later, (tracks.inside option ref found).2⟩ }

/-- A change that leaves the strings alone. -/
theorem Tracks.update (tracks : Tracks original data current number group packet value)
    {packet' : CoapPacket BufRef} {value' : Packet}
    (view : packet'.mapStrings (slice data) = value')
    (strings : ∀ option, packet'.string option = packet.string option)
    (payload : packet'.payload = packet.payload) :
    Tracks original data current number group packet' value' :=
  { tracks with
    view := view
    inside := fun option ref found => tracks.inside option ref (strings option ▸ found)
    before := fun option ref found => tracks.before option ref (strings option ▸ found)
    behind := fun option ref found => tracks.behind option ref (strings option ▸ found)
    ahead := fun option ref found => tracks.ahead option ref (strings option ▸ found)
    payload := payload.trans tracks.payload }

/-- Reading an option's header: its number opens a new group unless it is the same. -/
theorem Tracks.header (tracks : Tracks original data current number group packet value) {next : Nat}
    (ascending : number ≤ next) : ∃ group', Tracks original data current next group'
      { packet with options := insert next packet.options }
      { value with options := insert next value.options } := by
  have changed : Tracks original data current number group
      { packet with options := insert next packet.options }
      { value with options := insert next value.options } := by
    refine tracks.update (by rw [← tracks.view]; rfl) (fun option => ?_) rfl
    cases option <;> rfl
  by_cases same : next = number
  · rw [same]
    exact ⟨group, same ▸ changed⟩
  · refine ⟨current, { changed with
      started := Nat.le_refl _
      before := fun option ref found _ => (changed.inside option ref found).1
      behind := fun option ref found isNext filled => ?_
      ahead := fun option ref found later => changed.ahead option ref found (by omega) }⟩
    have empty := changed.ahead option ref found (by omega)
    omega

variable {option : CoapOption}

/-- The string of the option at hand is replaced, and the buffer changes under no other. -/
theorem Tracks.setString (tracks : Tracks original data current number group packet value)
    (isString : option.isString = true) (isNumber : option.number = number)
    {moved : List UInt8} {ref : BufRef} {next : Nat} (onward : current ≤ next)
    (sameLength : moved.length = data.length) (rest : moved.drop next = data.drop next)
    (others : ∀ other ref, packet.string other = some ref →
      other ≠ option → slice moved ref = slice data ref) (before : ref.ptr + ref.len ≤ next)
    (bound : ref.ptr + ref.len ≤ data.length) (behind : group ≤ ref.ptr) :
    Tracks original moved next number group (packet.setString option ref)
      (value.setString option (slice moved ref)) := by
  have skipped := tracks.skip onward
  refine ⟨sameLength.trans tracks.sameLength, rest.trans skipped.unread, skipped.started, ?_,
    ?_, ?_, ?_, ?_, ?_⟩
  · rw [mapStrings_setString, ← tracks.view]
    refine setString_mapStrings_congr isString others ?_ _
    rw [tracks.payload]
    rfl
  · intro other ref found
    rw [string_setString isString] at found
    rw [sameLength]
    split at found
    · cases found
      exact ⟨before, bound⟩
    · exact skipped.inside other ref found
  · intro other ref found different
    rw [string_setString isString, if_neg (by rintro rfl; exact different isNumber)] at found
    exact skipped.before other ref found different
  · intro other ref found same filled
    rw [string_setString isString] at found
    split at found
    · cases found
      exact behind
    · exact skipped.behind other ref found same filled
  · intro other ref found above
    rw [string_setString isString, if_neg (by rintro rfl; omega)] at found
    exact skipped.ahead other ref found above
  · rw [payload_setString, tracks.payload]

variable {offset length : Nat}

/-- A string set to the option at hand. -/
theorem Tracks.refer (tracks : Tracks original data current number group packet value)
    (isString : option.isString = true)
    (isNumber : option.number = number) (later : current ≤ offset) {bytes : List UInt8}
    (read : readBytes original offset length = some bytes) :
    Tracks original data (offset + length) number group (packet.setString option ⟨offset, length⟩)
    (value.setString option bytes) := by
  rw [← readBytes_of_drop_eq (drop_eq_of_le tracks.unread later) tracks.sameLength] at read
  obtain ⟨bound, sliced⟩ := readBytes_some read
  rw [← sliced]
  exact tracks.setString isString isNumber (Nat.le_trans later (Nat.le_add_right offset length)) rfl
    rfl (fun _ _ _ _ => rfl) (Nat.le_refl _) bound (Nat.le_trans tracks.started later)

/-- A segment joined to a string. -/
theorem Tracks.merge (tracks : Tracks original data current number group packet value)
    (isString : option.isString = true) (isNumber : option.number = number)
    {dst : BufRef} (isField : packet.string option = some dst)
    (later : current < offset) {separator : UInt8} {kept merged : List UInt8} (joined :
      byValue.merge original (slice data dst) offset length separator = some (kept, merged)) :
    kept = original ∧
    ∃ moved ref, inPlace.merge data dst offset length separator = some (moved, ref) ∧
    Tracks original moved (offset + length) number group (packet.setString option ref)
    (value.setString option merged) := by
  obtain ⟨bytes, read, built⟩ := map_eq_some_iff.mp joined
  cases built
  refine ⟨rfl, ?_⟩
  have inside := tracks.inside option dst isField
  have width : (slice data dst).length = dst.len := slice_length inside.2
  by_cases started : 0 < dst.len
  · rw [← readBytes_of_drop_eq (drop_eq_of_le tracks.unread (Nat.le_of_lt later))
      tracks.sameLength] at read
    obtain ⟨moved, merges, sameLength, rest, whole, others⟩ :=
      inPlace_merge separator started (by omega) read
    have groupStart := tracks.behind option dst isField isNumber started
    have bound := (readBytes_some read).1
    have apart : ∀ other ref, packet.string other = some ref → other ≠ option →
        ref.ptr + ref.len ≤ dst.ptr := by
      intro other ref found different
      refine Nat.le_trans (tracks.before other ref found fun same => ?_) groupStart
      exact different (number_injective (same.trans isNumber.symm))
    refine ⟨moved, _, merges, ?_⟩
    rw [width, if_pos started, ← whole]
    exact tracks.setString isString isNumber (by omega) sameLength rest
      (fun other ref found different => others ref (apart other ref found different))
      (by simp only; omega)
      (by simp only; omega) groupStart
  · have noBytes : ¬ (slice data dst).length > 0 := by omega
    refine ⟨data, ⟨offset, length⟩, by simp [inPlace, started], ?_⟩
    rw [if_neg noBytes]
    exact tracks.refer isString isNumber (Nat.le_of_lt later) read

/-- Two outcomes of the `switch` that agree. -/
def Follows (original : List UInt8) (next number group : Nat) :
    UInt8 ⊕ (List UInt8 × CoapPacket BufRef) → UInt8 ⊕ (List UInt8 × Packet) → Prop
  | .inl status, .inl status' => status = status'
  | .inr (data, packet), .inr (kept, value) =>
    kept = original ∧ Tracks original data next number group packet value
  | _, _ => False

theorem Follows.cases {next number : Nat} {outcome : UInt8 ⊕ (List UInt8 × CoapPacket BufRef)}
    {outcome' : UInt8 ⊕ (List UInt8 × Packet)}
    (follows : Follows original next number group outcome outcome') :
    (∃ status, outcome' = .inl status ∧ outcome = .inl status) ∨
    ∃ value data packet, outcome' = .inr (original, value) ∧ outcome = .inr (data, packet) ∧
    Tracks original data next number group packet value := by
  cases outcome with
  | inl status =>
    cases outcome' with
    | inl status' =>
      cases follows
      exact .inl ⟨status, rfl, rfl⟩
    | inr read => exact follows.elim
  | inr read =>
    cases outcome' with
    | inl status' => exact follows.elim
    | inr read' =>
      obtain ⟨rfl, tracks⟩ := follows
      exact .inr ⟨read'.2, read.1, read.2, rfl, rfl, tracks⟩

/-- Whatever the option at hand is, the two parsers agree on it. -/
theorem Tracks.parseOption
    (tracks : Tracks original data current option.number group packet value)
    (later : current < offset) {outcome : UInt8 ⊕ (List UInt8 × Packet)}
    (parsed : parseOption byValue option original offset length value = some outcome) :
    ∃ outcome', parseOption inPlace option data offset length packet = some outcome' ∧
      Follows original (offset + length) option.number group outcome' outcome := by
  have same : ∀ count, readBytes data offset count = readBytes original offset count :=
    readBytes_of_drop_eq (drop_eq_of_le tracks.unread (Nat.le_of_lt later)) tracks.sameLength
  have skipped := tracks.skip (Nat.le_trans (Nat.le_of_lt later) (Nat.le_add_right offset length))
  obtain rfl := tracks.view
  -- Options that hold no string read their bytes and change one field on both sides.
  have plain : ∀ {count : Nat} {set : List UInt8 → CoapPacket BufRef} {set' : List UInt8 → Packet},
      (readBytes original offset count).map
      (fun bytes => (.inr (original, set' bytes) : UInt8 ⊕ (List UInt8 × Packet))) = some outcome →
      (∀ bytes, (set bytes).mapStrings (slice data) = set' bytes) →
      (∀ bytes other, (set bytes).string other = packet.string other) →
      (∀ bytes, (set bytes).payload = packet.payload) →
      ∃ outcome', (readBytes data offset count).map (fun bytes =>
      (.inr (data, set bytes) : UInt8 ⊕ (List UInt8 × CoapPacket BufRef))) = some outcome' ∧
        Follows original (offset + length) option.number group outcome' outcome := by
    intro count set set' read views strings payloads
    obtain ⟨bytes, found, rfl⟩ := map_eq_some_iff.mp read
    rw [same count, found]
    exact ⟨_, rfl, rfl, skipped.update (views bytes) (strings bytes) (payloads bytes)⟩
  have merges : ∀ {dst : BufRef} {separator : UInt8}, option.isString = true →
      packet.string option = some dst →
      (byValue.merge original (slice data dst) offset length separator).map
      (fun joined => (.inr (joined.1, (packet.mapStrings (slice data)).setString option joined.2) :
      UInt8 ⊕ (List UInt8 × Packet))) = some outcome →
      ∃ outcome', (inPlace.merge data dst offset length separator).map
      (fun joined => (.inr (joined.1, packet.setString option joined.2) :
      UInt8 ⊕ (List UInt8 × CoapPacket BufRef))) = some outcome' ∧
        Follows original (offset + length) option.number group outcome' outcome := by
    intro dst separator isString isField joined
    obtain ⟨⟨kept, merged⟩, found, rfl⟩ := map_eq_some_iff.mp joined
    obtain ⟨rfl, moved, ref, merged, next⟩ := tracks.merge isString rfl isField later found
    rw [merged]
    exact ⟨_, rfl, rfl, next⟩
  cases option with
  | contentFormat =>
    exact plain parsed (fun _ => rfl) (fun _ other => by cases other <;> rfl) fun _ => rfl
  | maxAge => exact plain parsed (fun _ => rfl) (fun _ other => by cases other <;> rfl) fun _ => rfl
  | etag => exact plain parsed (fun _ => rfl) (fun _ other => by cases other <;> rfl) fun _ => rfl
  | accept => exact plain parsed (fun _ => rfl) (fun _ other => by cases other <;> rfl) fun _ => rfl
  | ifMatch =>
    exact plain parsed (fun _ => rfl) (fun _ other => by cases other <;> rfl) fun _ => rfl
  | observe =>
    exact plain parsed (fun _ => rfl) (fun _ other => by cases other <;> rfl) fun _ => rfl
  | uriPort =>
    exact plain parsed (fun _ => rfl) (fun _ other => by cases other <;> rfl) fun _ => rfl
  | block2 => exact plain parsed (fun _ => rfl) (fun _ other => by cases other <;> rfl) fun _ => rfl
  | block1 => exact plain parsed (fun _ => rfl) (fun _ other => by cases other <;> rfl) fun _ => rfl
  | size2 => exact plain parsed (fun _ => rfl) (fun _ other => by cases other <;> rfl) fun _ => rfl
  | size1 => exact plain parsed (fun _ => rfl) (fun _ other => by cases other <;> rfl) fun _ => rfl
  | ifNoneMatch =>
    cases parsed
    exact ⟨_, rfl, rfl, skipped.update rfl (fun other => by cases other <;> rfl) rfl⟩
  | proxyUri =>
    cases parsed
    exact ⟨_, rfl, rfl⟩
  | proxyScheme =>
    cases parsed
    exact ⟨_, rfl, rfl⟩
  | uriHost =>
    obtain ⟨bytes, found, rfl⟩ := map_eq_some_iff.mp parsed
    exact ⟨_, rfl, rfl, tracks.refer rfl rfl (Nat.le_of_lt later) found⟩
  | uriPath => exact merges rfl rfl parsed
  | uriQuery => exact merges rfl rfl parsed
  | locationPath => exact merges rfl rfl parsed
  | locationQuery => exact merges rfl rfl parsed

end Step

/-! ## The loop -/

/-- Two ends of the option loop that agree; behind the marker nothing has moved. -/
def EndFollows (original data : List UInt8) : OptionsEnd BufRef → OptionsEnd (List UInt8) → Prop
  | .refused status, .refused status' => status = status'
  | .complete packet, .complete value =>
    packet.mapStrings (slice data) = value ∧ packet.payload = ⟨0, 0⟩
  | .marker packet payload, .marker value payload' =>
    payload = payload' ∧ packet.mapStrings (slice data) = value ∧
      data.drop payload = original.drop payload
  | _, _ => False

/-- The two parsers end alike wherever they track each other. -/
theorem parseOptionsLoop_tracks {original kept : List UInt8} {ended : OptionsEnd (List UInt8)} :
    ∀ (fuel : Nat) {data : List UInt8} {current number group : Nat} {packet : CoapPacket BufRef}
      {value : Packet},
    Tracks original data current number group packet value →
    parseOptionsLoop byValue fuel original current number value = some (kept, ended) →
    ∃ data' ended',
    parseOptionsLoop inPlace fuel data current number packet = some (data', ended') ∧
    data'.length = original.length ∧ EndFollows original data' ended' ended := by
  intro fuel
  induction fuel with
  | zero =>
    intro data current number group packet value _ parsed
    cases parsed
  | succ fuel next =>
    intro data current number group packet value tracks parsed
    rw [parseOptionsLoop] at parsed
    rw [parseOptionsLoop, getElem?_of_drop_eq tracks.unread (Nat.le_refl current)]
    cases read : original[current]? with
    | none =>
      rw [read] at parsed
      cases parsed
      exact ⟨data, _, rfl, tracks.sameLength, tracks.view, tracks.payload⟩
    | some first =>
      rw [read] at parsed
      simp only at parsed ⊢
      split
      case isTrue marks =>
        rw [if_pos marks] at parsed
        cases parsed
        exact ⟨data, _, rfl, tracks.sameLength, rfl, tracks.view,
          drop_eq_of_le tracks.unread (Nat.le_succ current)⟩
      case isFalse marks =>
        rw [if_neg marks] at parsed
        obtain ⟨⟨delta, behindDelta⟩, readDelta, parsed⟩ := bind_eq_some_iff.mp parsed
        obtain ⟨⟨length, offset⟩, readLength, parsed⟩ := bind_eq_some_iff.mp parsed
        have afterDelta := extendNibble_le readDelta
        have afterLength := extendNibble_le readLength
        rw [extendNibble_of_drop_eq tracks.unread (Nat.le_succ current), readDelta, bind_some,
          extendNibble_of_drop_eq tracks.unread (by omega), readLength, bind_some]
        simp only at parsed ⊢
        obtain ⟨group', opened⟩ := tracks.header (Nat.le_add_right number delta)
        split at parsed
        case isTrue => cases parsed
        case isFalse known =>
          rw [if_neg known]
          cases kind : CoapOption.ofNumber (number + delta) with
          | none =>
            rw [kind] at parsed
            simp only at parsed ⊢
            split at parsed
            case isTrue odd =>
              rw [if_pos odd]
              cases parsed
              exact ⟨data, _, rfl, tracks.sameLength, rfl⟩
            case isFalse even =>
              rw [if_neg even]
              exact next (opened.skip (by omega)) parsed
          | some option =>
            rw [kind] at parsed
            have isNumber : option.number = number + delta := by
              simpa using List.find?_some kind
            rw [← isNumber] at opened parsed ⊢
            obtain ⟨outcome, switched, parsed⟩ := bind_eq_some_iff.mp parsed
            obtain ⟨outcome', switched', follows⟩ := opened.parseOption (by omega) switched
            simp only
            rw [switched', bind_some]
            obtain ⟨status, rfl, rfl⟩ | ⟨value', data', packet', rfl, rfl, opened'⟩ := follows.cases
            · cases parsed
              exact ⟨data, _, rfl, tracks.sameLength, rfl⟩
            · exact next opened' parsed

/-- A parser that starts without strings tracks one that starts so. -/
theorem Tracks.initial {data : List UInt8} {current : Nat} {packet : CoapPacket BufRef}
    (strings : ∀ option ref, packet.string option = some ref → ref = ⟨0, 0⟩)
    (payload : packet.payload = ⟨0, 0⟩) :
    Tracks data data current 0 0 packet (packet.mapStrings (slice data)) := by
  refine ⟨rfl, rfl, Nat.zero_le _, rfl, ?_, ?_, ?_, ?_, payload⟩
  · intro option ref found
    rw [strings option ref found]
    exact ⟨Nat.zero_le _, Nat.zero_le _⟩
  · intro option ref found _
    rw [strings option ref found]
    exact Nat.le_refl 0
  · intro option ref found _ filled
    rw [strings option ref found] at filled
    exact absurd filled (by decide)
  · intro option ref found _
    rw [strings option ref found]

/-- Joining the segments in the buffer is invisible: a parser that starts without
strings ends as one that holds their bytes. -/
theorem parseOptions_inPlace {data kept : List UInt8} {current : Nat} {packet : CoapPacket BufRef}
    {ended : OptionsEnd (List UInt8)}
    (strings : ∀ option ref, packet.string option = some ref → ref = ⟨0, 0⟩)
    (payload : packet.payload = ⟨0, 0⟩) (parsed :
      parseOptions byValue data current (packet.mapStrings (slice data)) = some (kept, ended)) :
    ∃ data' ended', parseOptions inPlace data current packet = some (data', ended') ∧
    data'.length = data.length ∧ EndFollows data data' ended' ended := by
  exact parseOptionsLoop_tracks _ (.initial strings payload) parsed

end Idrm.Coap
