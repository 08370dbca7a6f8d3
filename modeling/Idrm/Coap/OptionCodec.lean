import Idrm.Coap.Options

/-!
# Options read back

The writer's output is a delta-encoded sequence of numbers and values
(`serializeOptions_written`). The splitter does not look at the byte behind a separator: a second
separator is the first byte of its segment, and nothing is written behind one that ends the string.
Where no segment is empty,
  this is what splitting means. The parser takes such a sequence apart one entry at a time
(`parseOptionsLoop_entry`), in either way of holding strings.
-/

namespace Idrm.Coap

open Idrm.Lib Option List

/-! ## Delta-encoded sequences -/

/-- The wire form of a sequence of options and values. -/
def encodeOptions : Nat → List (CoapOption × List UInt8) → List UInt8
  | _, [] => []
  | current, (option, value) :: rest =>
    coapSetOptionHeader (option.number - current) value.length ++ value ++
      encodeOptions option.number rest

/-- The number before what follows a sequence. -/
def lastNumber (current : Nat) (entries : List (CoapOption × List UInt8)) : Nat :=
  entries.foldl (fun _ entry => entry.1.number) current

theorem encodeOptions_append (current : Nat) (front back : List (CoapOption × List UInt8)) :
    encodeOptions current (front ++ back) =
      encodeOptions current front ++ encodeOptions (lastNumber current front) back := by
  induction front generalizing current with
  | nil => rfl
  | cons entry rest ih =>
    obtain ⟨option, value⟩ := entry
    simp only [cons_append, encodeOptions, ih, lastNumber, foldl_cons,
      append_assoc]

theorem lastNumber_map (current : Nat) (option : CoapOption) {segments : List (List UInt8)}
    (nonempty : segments ≠ []) :
    lastNumber current (segments.map fun segment => (option, segment)) = option.number := by
  induction segments generalizing current with
  | nil => exact absurd rfl nonempty
  | cons segment rest ih =>
    cases rest with
    | nil => rfl
    | cons next others => exact ih option.number (by simp)

/-! ## Splitting -/

/-- A string the splitter and the merger agree on: no empty segment, unless the
whole string is empty. -/
def NoEmptySegment (separator : UInt8) (value : List UInt8) : Prop :=
  value = [] ∨ [] ∉ value.splitOn separator

instance (separator : UInt8) (value : List UInt8) : Decidable (NoEmptySegment separator value) :=
  inferInstanceAs (Decidable (value = [] ∨ [] ∉ value.splitOn separator))

/-- The segments from the middle of one on. -/
def segmentsFrom (separator : UInt8) : List UInt8 → List UInt8 → List (List UInt8)
  | segment, [] => [segment]
  | segment, [byte] => if byte = separator then [segment] else [segment ++ [byte]]
  | segment, byte :: next :: rest =>
    if byte = separator then segment :: segmentsFrom separator [next] rest
    else segmentsFrom separator (segment ++ [byte]) (next :: rest)

/-- The segments that a split string is written as. -/
def segments (separator : UInt8) (array : List UInt8) : List (List UInt8) :=
  segmentsFrom separator [] array

example : segments slash [0x61, 0x2F, 0x62] = [[0x61], [0x62]] := rfl
example : segments slash [0x61, 0x2F, 0x2F, 0x62, 0x2F] = [[0x61], [0x2F, 0x62]] := rfl

theorem segmentsFrom_ne_nil (separator : UInt8) (segment rest : List UInt8) :
    segmentsFrom separator segment rest ≠ [] := by
  fun_induction segmentsFrom separator segment rest with
  | case1 segment => exact cons_ne_nil _ _
  | case2 segment => exact cons_ne_nil _ _
  | case3 segment byte different => exact cons_ne_nil _ _
  | case4 segment next rest => exact cons_ne_nil _ _
  | case5 segment byte next rest different ih => exact ih

/-- A string without its separator is one segment. -/
theorem segmentsFrom_unsplit {separator : UInt8} {rest : List UInt8} (unsplit : separator ∉ rest)
    (segment : List UInt8) : segmentsFrom separator segment rest = [segment ++ rest] := by
  fun_induction segmentsFrom separator segment rest with
  | case1 segment => rw [append_nil]
  | case2 segment => exact absurd (mem_singleton.mpr rfl) unsplit
  | case3 segment byte different => rfl
  | case4 segment next rest => exact absurd mem_cons_self unsplit
  | case5 segment byte next rest different ih =>
    rw [ih fun member => unsplit (mem_cons_of_mem _ member), append_assoc]
    rfl

section Split

variable {option : CoapOption} {array : List UInt8} {splitChar : UInt8}

/-- Where a segment ends, it is written, and the loop goes on two bytes behind. -/
theorem splitLoop_ends {segment rest : List UInt8} {partStart : Nat}
    (here : array.drop partStart = segment ++ rest) (inside : partStart ≤ array.length)
    (ends : rest = [] ∨ ∃ more, rest = splitChar :: more) (fuel currentNumber : Nat) :
    splitLoop option.number array splitChar (fuel + 1) (partStart + segment.length) partStart
      currentNumber = coapSetOptionHeader (option.number - currentNumber) segment.length ++
      segment ++ splitLoop option.number array splitChar fuel (partStart + segment.length + 2)
    (partStart + segment.length + 1) option.number := by
  have total := congrArg List.length here
  simp only [length_drop, length_append] at total
  have stops : array.getD (partStart + segment.length) 0 = splitChar ∨
      partStart + segment.length = array.length := by
    rcases ends with rfl | ⟨more, rfl⟩
    · exact .inr (by rw [length_nil] at total; omega)
    · left
      rw [getD_eq_getElem?_getD, ← List.getElem?_drop, here,
        List.getElem?_append_right (Nat.le_refl _), Nat.sub_self]
      rfl
  have part : (array.drop partStart).take (partStart + segment.length - partStart) = segment := by
    rw [here, Nat.add_sub_cancel_left, take_left]
  rw [splitLoop, if_pos (by omega), if_pos stops]
  simp only [part]

/-- Inside a segment the loop goes on by a byte. -/
theorem splitLoop_continues {segment rest : List UInt8} {byte : UInt8} {partStart : Nat}
    (here : array.drop partStart = segment ++ byte :: rest) (unsplit : byte ≠ splitChar)
    (fuel currentNumber : Nat) : splitLoop option.number array splitChar (fuel + 1)
      (partStart + segment.length) partStart currentNumber = splitLoop option.number array splitChar
      fuel (partStart + (segment ++ [byte]).length) partStart currentNumber := by
  have total := congrArg List.length here
  simp only [length_drop, length_append, length_cons] at total
  have walks : ¬ (array.getD (partStart + segment.length) 0 = splitChar ∨
      partStart + segment.length = array.length) := by
    rintro (split | ended)
    · rw [getD_eq_getElem?_getD, ← List.getElem?_drop, here,
        List.getElem?_append_right (Nat.le_refl _), Nat.sub_self] at split
      exact unsplit split
    · omega
  rw [splitLoop, if_pos (by omega), if_neg walks, length_append, length_singleton, Nat.add_assoc]

/-- Behind the string nothing is written. -/
theorem splitLoop_past {j : Nat} (splits : splitChar ≠ 0)
    (past : array.length < j) (fuel partStart currentNumber : Nat) :
    splitLoop option.number array splitChar fuel j partStart currentNumber = [] := by
  induction fuel generalizing j with
  | zero => rfl
  | succ fuel ih =>
    have walks : ¬ (array.getD j 0 = splitChar ∨ j = array.length) := by
      rintro (split | ended)
      · rw [getD_eq_getElem?_getD, List.getElem?_eq_none (by omega)] at split
        exact splits split.symm
      · omega
    rw [splitLoop]
    simp only [walks, if_false]
    split
    · exact ih (by omega)
    · rfl

/-- The loop writes the segments from the middle of one on. -/
theorem splitLoop_segmentsFrom (splits : splitChar ≠ 0)
    (segment rest : List UInt8) {partStart : Nat}
    (here : array.drop partStart = segment ++ rest) (inside : partStart ≤ array.length) {fuel : Nat}
    (enough : array.length + 2 ≤ fuel + (partStart + segment.length)) (currentNumber : Nat) :
    splitLoop option.number array splitChar fuel
      (partStart + segment.length) partStart currentNumber = encodeOptions currentNumber
      ((segmentsFrom splitChar segment rest).map fun part => (option, part)) := by
  have total := congrArg List.length here
  simp only [length_drop, length_append] at total
  obtain ⟨left, rfl⟩ : ∃ left, fuel = left + 1 := ⟨fuel - 1, by omega⟩
  fun_induction segmentsFrom splitChar segment rest generalizing partStart left currentNumber with
  | case1 segment =>
    rw [length_nil] at total
    rw [splitLoop_ends here inside (.inl rfl), splitLoop_past splits (by omega)]
    rfl
  | case2 segment =>
    rw [length_singleton] at total
    rw [splitLoop_ends here inside (.inr ⟨[], rfl⟩), splitLoop_past splits (by omega)]
    rfl
  | case3 segment byte different =>
    rw [length_singleton] at total
    have whole : array.drop partStart = (segment ++ [byte]) ++ [] := by rw [append_nil, here]
    obtain ⟨left, rfl⟩ : ∃ less, left = less + 1 := ⟨left - 1, by omega⟩
    rw [splitLoop_continues here different, splitLoop_ends whole inside (.inl rfl),
      splitLoop_past splits (by rw [length_append, length_singleton]; omega)]
    rfl
  | case4 segment next rest ih =>
    simp only [length_cons] at total
    have behind : array.drop (partStart + segment.length + 1) = [next] ++ rest := by
      rw [Nat.add_assoc, ← drop_drop, here, ← drop_drop, drop_left]
      rfl
    obtain ⟨left, rfl⟩ : ∃ less, left = less + 1 := ⟨left - 1, by omega⟩
    have later := ih behind (by omega) option.number (by rw [length_singleton]; omega) left
      (by rw [length_singleton]; omega)
    rw [splitLoop_ends here inside (.inr ⟨next :: rest, rfl⟩), map_cons, encodeOptions, ← later]
    rfl
  | case5 segment byte next rest different ih =>
    simp only [length_cons] at total
    have whole : array.drop partStart = (segment ++ [byte]) ++ next :: rest := by
      rw [append_assoc, here]
      rfl
    obtain ⟨left, rfl⟩ : ∃ less, left = less + 1 := ⟨left - 1, by omega⟩
    rw [splitLoop_continues here different]
    refine ih whole inside currentNumber ?_ left ?_
    · rw [length_append, length_singleton, length_cons]
      omega
    · rw [length_append, length_singleton]
      omega

theorem coapSerializeArrayOption_segments (splits : splitChar ≠ 0) (array : List UInt8)
    (currentNumber : Nat) : coapSerializeArrayOption option.number currentNumber array splitChar =
      encodeOptions currentNumber ((segments splitChar array).map fun part => (option, part)) := by
  rw [coapSerializeArrayOption, if_pos splits]
  exact @splitLoop_segmentsFrom option array splitChar splits [] array 0 rfl
    (Nat.zero_le _) _ (Nat.le_refl _) currentNumber

end Split

theorem splitOn_separator (separator : UInt8) (rest : List UInt8) :
    (separator :: rest).splitOn separator = [] :: rest.splitOn separator := by
  rw [splitOn_cons_eq_if_modifyHead, if_pos (beq_self_eq_true separator)]

theorem splitOn_other {separator byte : UInt8} (different : byte ≠ separator) (rest : List UInt8) :
    (byte :: rest).splitOn separator = (rest.splitOn separator).modifyHead (List.cons byte) := by
  rw [splitOn_cons_eq_if_modifyHead, if_neg (by simpa using different)]

/-- Where no segment behind the first one is empty, the segments are the parts between the
separators. -/
theorem segmentsFrom_splitOn {separator : UInt8} {segment rest : List UInt8}
    (filled : ∀ part ∈ (rest.splitOn separator).tail, part ≠ []) :
    segmentsFrom separator segment rest = (rest.splitOn separator).modifyHead (segment ++ ·) := by
  fun_induction segmentsFrom separator segment rest with
  | case1 segment => simp [splitOn_nil]
  | case2 segment =>
    rw [splitOn_separator, splitOn_nil] at filled
    exact absurd rfl (filled [] mem_cons_self)
  | case3 segment byte different =>
    rw [splitOn_other different, splitOn_nil]
    rfl
  | case4 segment next rest ih =>
    rw [splitOn_separator, tail_cons] at filled
    have starts : next ≠ separator := by
      rintro rfl
      rw [splitOn_separator] at filled
      exact filled [] mem_cons_self rfl
    obtain ⟨part, parts, split⟩ := exists_cons_of_ne_nil (splitOn_ne_nil separator rest)
    rw [splitOn_other starts, split] at filled
    rw [splitOn_separator, splitOn_other starts, split]
    rw [split] at ih
    rw [ih fun other member => filled other (mem_cons_of_mem _ member)]
    simp
  | case5 segment byte next rest different ih =>
    obtain ⟨part, parts, split⟩ := exists_cons_of_ne_nil (splitOn_ne_nil separator (next :: rest))
    rw [splitOn_other different, split] at filled ⊢
    rw [split] at ih
    rw [ih filled]
    simp

theorem segments_splitOn {separator : UInt8}
    {value : List UInt8} (clean : NoEmptySegment separator value) :
    segments separator value = value.splitOn separator := by
  have filled : ∀ part ∈ (value.splitOn separator).tail, part ≠ [] := by
    rcases clean with rfl | clean
    · simp [splitOn_nil]
    · rintro part member rfl
      exact clean (mem_of_mem_tail member)
  rw [segments, segmentsFrom_splitOn filled]
  cases value.splitOn separator with
  | nil => rfl
  | cons part parts => rfl

/-! ## The options of a packet as a sequence -/

/-- The numbered values that an option of a packet is written as. -/
def writtenEntries (packet : Packet) (option : CoapOption) : List (CoapOption × List UInt8) :=
  if packet.isOption option then
    match optionValue packet option with
    | .int value => [(option, intOptionBytes value)]
    | .array bytes splitChar =>
      if splitChar = 0 then [(option, bytes)]
        else (segments splitChar bytes).map fun part => (option, part)
  else []

/-- The options of a packet as they are written. -/
def writtenOptions (packet : Packet) : List (CoapOption × List UInt8) :=
  CoapOption.all.flatMap (writtenEntries packet)

theorem serializeOption_written (packet : Packet) (option : CoapOption) (writer : OptionWriter) :
    serializeOption packet writer option =
      ⟨lastNumber writer.currentNumber (writtenEntries packet option),
        writer.written ++ encodeOptions writer.currentNumber (writtenEntries packet option)⟩ := by
  unfold serializeOption writtenEntries
  by_cases present : packet.isOption option = true
  · rw [if_pos present, if_pos present]
    cases value : optionValue packet option with
    | int value => simp [lastNumber, encodeOptions, coapSerializeIntOption]
    | array bytes splitChar =>
      by_cases whole : splitChar = 0
      · simp [whole, lastNumber, encodeOptions, coapSerializeArrayOption]
      · have some_ := segmentsFrom_ne_nil splitChar [] bytes
        simp only [whole, if_false, coapSerializeArrayOption_segments whole, segments,
          lastNumber_map _ _ some_]
  · rw [if_neg present, if_neg present]
    simp [lastNumber, encodeOptions]

theorem serializeOptions_written (packet : Packet) :
    serializeOptions packet = encodeOptions 0 (writtenOptions packet) := by
  have lines : ∀ (options : List CoapOption) (writer : OptionWriter),
      (options.foldl (serializeOption packet) writer).written = writer.written ++
      encodeOptions writer.currentNumber (options.flatMap (writtenEntries packet)) := by
    intro options
    induction options with
    | nil => simp [encodeOptions]
    | cons option rest ih =>
      intro writer
      rw [foldl_cons, ih, serializeOption_written, flatMap_cons, encodeOptions_append]
      simp
  exact lines CoapOption.all ⟨0, []⟩

/-- The numbered values an option of a packet is written as. -/
def optionEntries (packet : Packet) (option : CoapOption) : List (CoapOption × List UInt8) :=
  if packet.isOption option then
    match optionValue packet option with
    | .int value => [(option, intOptionBytes value)]
    | .array bytes splitChar =>
      if splitChar = 0 then [(option, bytes)]
      else (bytes.splitOn splitChar).map fun part => (option, part)
  else []

/-- Strings the writer splits as they are meant. -/
def CleanStrings (packet : Packet) : Prop :=
  ∀ option, packet.isOption option = true →
    ∀ bytes splitChar, optionValue packet option = .array bytes splitChar → splitChar ≠ 0 →
      NoEmptySegment splitChar bytes

theorem writtenEntries_clean {packet : Packet} (clean : CleanStrings packet) (option : CoapOption) :
    writtenEntries packet option = optionEntries packet option := by
  unfold writtenEntries optionEntries
  by_cases present : packet.isOption option = true
  · rw [if_pos present, if_pos present]
    cases value : optionValue packet option with
    | int value => rfl
    | array bytes splitChar =>
      dsimp only
      split
      · rfl
      · rename_i splits
        rw [segments_splitOn (clean option present bytes splitChar value splits)]
  · rw [if_neg present, if_neg present]

/-! ## Taking one entry apart -/

/-- A nibble and its extension give the value back. -/
theorem extendNibble_encoded {data tail : List UInt8} {offset value : Nat}
    (here : data.drop offset = optionExtension value ++ tail) (bounded : value < 65536) :
    extendNibble data offset (coapOptionNibble value) =
      some (value, offset + (optionExtension value).length) := by
  have lookup : ∀ index, data[offset + index]? = (optionExtension value ++ tail)[index]? := by
    intro index
    rw [← here, List.getElem?_drop]
  have first := lookup 0
  have second := lookup 1
  rw [Nat.add_zero] at first
  unfold coapOptionNibble extendNibble
  by_cases short : value < 13
  · have plain : optionExtension value = [] := by
      rw [optionExtension, if_neg (by omega), if_neg (by omega)]
    rw [if_pos short, if_neg (by omega), if_neg (by omega), plain]
    rfl
  · by_cases middle : value ≤ 0xFF + 13
    · have one : optionExtension value = [UInt8.ofNat (value - 13)] := by
        rw [optionExtension, if_neg (by omega), if_pos (by omega)]
      rw [if_neg short, if_pos middle, if_pos rfl, first, one]
      simp only [cons_append, List.getElem?_cons_zero, map_some, UInt8.toNat_ofNat',
        length_cons, length_nil]
      rw [show 13 + (value - 13) % 2 ^ 8 = value by omega]
    · have two : optionExtension value =
          [UInt8.ofNat ((value - 269) / 256), UInt8.ofNat (value - 269)] := by
        rw [optionExtension, if_pos (by omega)]
      rw [if_neg short, if_neg middle, if_neg (by decide), if_pos rfl, first, second, two]
      simp only [cons_append, List.getElem?_cons_zero, List.getElem?_cons_succ, map_some,
        bind_some, UInt8.toNat_ofNat', length_cons, length_nil]
      rw [show 14 + 255 + (value - 269) / 256 % 2 ^ 8 * 256 + (value - 269) % 2 ^
        8 = value by omega]

theorem coapOptionNibble_lt (value : Nat) : coapOptionNibble value < 15 := by
  unfold coapOptionNibble
  split
  · omega
  · split <;> omega

/-- The first header byte holds the two nibbles and is no payload marker. -/
theorem headerByte_nibbles {delta length : Nat} (deltaBound : delta < 15)
    (lengthBound : length < 15) : UInt8.ofNat (delta * 16 + length) &&& 0xF0 ≠ 0xF0 ∧
    (UInt8.ofNat (delta * 16 + length) >>> 4).toNat = delta ∧
    (UInt8.ofNat (delta * 16 + length) &&& 0x0F).toNat = length := by
  have all : ∀ high low : Fin 15,
      UInt8.ofNat (high.val * 16 + low.val) &&& 0xF0 ≠ 0xF0 ∧
      (UInt8.ofNat (high.val * 16 + low.val) >>> 4).toNat = high.val ∧
      (UInt8.ofNat (high.val * 16 + low.val) &&& 0x0F).toNat = low.val := by decide
  exact all ⟨delta, deltaBound⟩ ⟨length, lengthBound⟩

section Loop

variable {S : Type} (mode : StringMode S)

/-- What the loop does with an option once its header is read. -/
def takeOption (fuel : Nat) (data : List UInt8) (offset length optionNumber : Nat)
    (packet : CoapPacket S) : Option (List UInt8 × OptionsEnd S) :=
  let packet := { packet with options := insert optionNumber packet.options }
  match CoapOption.ofNumber optionNumber with
  | none =>
    if optionNumber % 2 = 1 then some (data, .refused badOption402)
    else parseOptionsLoop mode fuel data (offset + length) optionNumber packet
  | some option =>
    (parseOption mode option data offset length packet).bind fun
      | .inl status => some (data, .refused status)
      | .inr (data, packet) => parseOptionsLoop mode fuel data (offset + length) optionNumber packet

/-- An encoded entry is read as its number and value. -/
theorem parseOptionsLoop_entry {data value tail : List UInt8}
    {current number delta : Nat} (fuel : Nat) (packet : CoapPacket S)
    (here : data.drop current = coapSetOptionHeader delta value.length ++ value ++ tail)
    (numberBound : number + delta < optionMapBits) (lengthBound : value.length < 65536) :
    parseOptionsLoop mode (fuel + 1) data current number packet = takeOption mode fuel data
      (current + (coapSetOptionHeader delta value.length).length) value.length
      (number + delta) packet := by
  simp only [optionMapBits] at numberBound
  obtain ⟨unmarked, high, low⟩ :=
    headerByte_nibbles (coapOptionNibble_lt delta) (coapOptionNibble_lt value.length)
  have firstByte : data[current]? =
      some (UInt8.ofNat (coapOptionNibble delta * 16 + coapOptionNibble value.length)) := by
    have looked : data[current + 0]? = (data.drop current)[0]? := by rw [List.getElem?_drop]
    rw [Nat.add_zero, here] at looked
    exact looked
  have behind : data.drop (current + 1) =
      optionExtension delta ++ (optionExtension value.length ++ (value ++ tail)) := by
    rw [← drop_drop, here]
    simp [coapSetOptionHeader]
  have deltaRead := extendNibble_encoded behind (by omega)
  have behindDelta : data.drop (current + 1 + (optionExtension delta).length) =
      optionExtension value.length ++ (value ++ tail) := by
    rw [← drop_drop, behind, drop_left]
  have lengthRead := extendNibble_encoded behindDelta lengthBound
  have place : current + 1 + (optionExtension delta).length + (optionExtension
      value.length).length = current + (coapSetOptionHeader delta value.length).length := by
    simp only [coapSetOptionHeader, length_cons, length_append]
    omega
  rw [parseOptionsLoop, firstByte]
  simp only [unmarked, if_false, high, low, deltaRead, lengthRead, bind_some]
  rw [if_neg (by simp only [optionMapBits]; omega)]
  exact congrArg
    (fun offset => takeOption mode fuel data offset value.length (number + delta) packet) place

end Loop

/-! ## What an option does to a packet -/

theorem number_lt (option : CoapOption) : option.number < optionMapBits := by
  cases option <;> decide

/-- A segment joined to the ones before it. -/
def joinSegment (field : List UInt8) (separator : UInt8) (segment : List UInt8) : List UInt8 :=
  if field.length > 0 then field ++ [separator] ++ segment else segment

/-- A packet with the value of one more option. -/
def storeValue (option : CoapOption) (value : List UInt8) (packet : Packet) : Packet :=
  match option with
  | .contentFormat => { packet with contentFormat := coapParseIntOption value }
  | .maxAge => { packet with maxAge := coapParseIntOption value }
  | .etag => { packet with etag := .copy value }
  | .accept => { packet with accept := coapParseIntOption value }
  | .ifMatch => { packet with ifMatch := .copy value }
  | .ifNoneMatch => { packet with ifNoneMatch := true }
  | .proxyUri => packet
  | .proxyScheme => packet
  | .uriHost => { packet with uriHost := value }
  | .uriPort => { packet with uriPort := (coapParseIntOption value).toUInt16 }
  | .uriPath => { packet with uriPath := joinSegment packet.uriPath slash value }
  | .uriQuery => { packet with uriQuery := joinSegment packet.uriQuery ampersand value }
  | .locationPath => { packet with locationPath := joinSegment packet.locationPath slash value }
  | .locationQuery =>
    { packet with locationQuery := joinSegment packet.locationQuery ampersand value }
  | .observe => { packet with observe := coapParseIntOption value }
  | .block2 => { packet with block2 := parseBlock (coapParseIntOption value) }
  | .block1 => { packet with block1 := parseBlock (coapParseIntOption value) }
  | .size2 => { packet with size2 := coapParseIntOption value }
  | .size1 => { packet with size1 := coapParseIntOption value }

/-- An option the parser does not refuse. -/
def CoapOption.supported : CoapOption → Bool
  | .proxyUri => false
  | .proxyScheme => false
  | _ => true

theorem readBytes_here {data value tail : List UInt8} {offset : Nat}
    (here : data.drop offset = value ++ tail) (inside : offset ≤ data.length) :
    readBytes data offset value.length = some value := by
  have lengths := congrArg List.length here
  simp only [length_drop, length_append] at lengths
  rw [readBytes, if_pos (by omega), here, take_left]

theorem readBytes_short {data value tail : List UInt8} {offset : Nat}
    (here : data.drop offset = value ++ tail) (inside : offset ≤ data.length) :
    readBytes data offset (min shortLen value.length) = some (value.take shortLen) := by
  have lengths := congrArg List.length here
  simp only [length_drop, length_append] at lengths
  rw [readBytes, if_pos (by omega), here]
  congr 1
  rw [take_append_of_le_length (Nat.min_le_right _ _), take_eq_take_iff]
  omega

/-- Holding strings by value, the `switch` is `storeValue`. -/
theorem parseOption_byValue {option : CoapOption} (supported : option.supported = true)
    {data value tail : List UInt8} {offset : Nat} (here : data.drop offset = value ++ tail)
    (inside : offset ≤ data.length) (packet : Packet) :
    parseOption byValue option data offset value.length packet =
      some (.inr (data, storeValue option value packet)) := by
  have read := readBytes_here here inside
  have short := readBytes_short here inside
  have copied : ShortBytes.copy (value.take shortLen) = ShortBytes.copy value := by
    ext1
    simp [ShortBytes.copy]
  cases option <;>
    simp_all [parseOption, storeValue, byValue, joinSegment, CoapOption.supported]

/-- The effect of one entry. -/
def acceptEntry (packet : Packet) (entry : CoapOption × List UInt8) : Packet :=
  storeValue entry.1 entry.2 { packet with options := insert entry.1.number packet.options }

/-- A sequence the writer produces: numbers do not decrease, options are supported. -/
structure Ascending (current : Nat) (entries : List (CoapOption × List UInt8)) : Prop where
  above : ∀ entry ∈ entries, current ≤ entry.1.number
  ordered : entries.Pairwise fun front back => front.1.number ≤ back.1.number
  supported : ∀ entry ∈ entries, entry.1.supported = true
  short : ∀ entry ∈ entries, entry.2.length < 65536

theorem Ascending.tail {current : Nat} {entry : CoapOption × List UInt8}
    {rest : List (CoapOption × List UInt8)} (ascending : Ascending current (entry :: rest)) :
    Ascending entry.1.number rest where
  above := (pairwise_cons.mp ascending.ordered).1
  ordered := (pairwise_cons.mp ascending.ordered).2
  supported := fun other member => ascending.supported other (mem_cons_of_mem _ member)
  short := fun other member => ascending.short other (mem_cons_of_mem _ member)

/-- An encoded sequence is taken entry by entry. -/
theorem parseOptionsLoop_entries {entries : List (CoapOption × List UInt8)} {data tail : List UInt8}
    {current number : Nat} (here : data.drop current = encodeOptions number entries ++ tail)
    (inside : current ≤ data.length) (ascending : Ascending number entries)
    (fuel : Nat) (packet : Packet) :
    parseOptionsLoop byValue (entries.length + fuel) data current number packet =
      parseOptionsLoop byValue fuel data (current + (encodeOptions number entries).length)
      (lastNumber number entries) (entries.foldl acceptEntry packet) := by
  induction entries generalizing current number packet with
  | nil => simp [encodeOptions, lastNumber]
  | cons entry rest ih =>
    obtain ⟨option, value⟩ := entry
    have above := ascending.above _ mem_cons_self
    have supported := ascending.supported _ mem_cons_self
    have short := ascending.short _ mem_cons_self
    simp only at above supported short
    have front : data.drop current =
        coapSetOptionHeader (option.number - number) value.length ++ value ++
          (encodeOptions option.number rest ++ tail) := by
      rw [here, encodeOptions]
      simp only [append_assoc]
    have lengths := congrArg List.length front
    simp only [length_drop, length_append] at lengths
    have reached : number + (option.number - number) = option.number := by omega
    have bound : number + (option.number - number) < optionMapBits := by
      rw [reached]
      exact number_lt option
    have valueHere : data.drop
        (current + (coapSetOptionHeader (option.number - number) value.length).length) =
        value ++ (encodeOptions option.number rest ++ tail) := by
      rw [← drop_drop, front, append_assoc, drop_left]
    have stored := parseOption_byValue supported valueHere (by omega)
      { packet with options := insert option.number packet.options }
    have restHere : data.drop (current + (coapSetOptionHeader (option.number - number)
        value.length).length + value.length) = encodeOptions option.number rest ++ tail := by
      rw [← drop_drop, valueHere, drop_left]
    have step := parseOptionsLoop_entry byValue (rest.length + fuel) packet front bound short
    rw [reached, takeOption, ofNumber_number] at step
    simp only [stored, bind_some] at step
    rw [length_cons, show rest.length + 1 + fuel = rest.length + fuel + 1 by omega, step,
      ih restHere (by omega) ascending.tail]
    simp only [encodeOptions, length_append, lastNumber, foldl_cons, acceptEntry]
    congr 1
    omega

/-- Behind the options, the packet is over or the payload begins. -/
theorem parseOptionsLoop_end {S : Type} (mode : StringMode S) {data : List UInt8} {current : Nat}
    (ended : data.drop current = []) (fuel number : Nat) (packet : CoapPacket S) : parseOptionsLoop
      mode (fuel + 1) data current number packet = some (data, .complete packet) := by
  have none : data[current]? = none := List.getElem?_eq_none (drop_eq_nil_iff.mp ended)
  rw [parseOptionsLoop, none]

theorem parseOptionsLoop_marker {S : Type}
    (mode : StringMode S) {data payload : List UInt8} {current : Nat}
    (here : data.drop current = 0xFF :: payload) (fuel number : Nat) (packet : CoapPacket S) :
    parseOptionsLoop mode (fuel + 1) data current number packet =
      some (data, .marker packet (current + 1)) := by
  have first : data[current]? = some 0xFF := by
    have looked : data[current + 0]? = (data.drop current)[0]? := by rw [List.getElem?_drop]
    rw [Nat.add_zero, here] at looked
    exact looked
  rw [parseOptionsLoop, first]
  rfl

end Idrm.Coap
