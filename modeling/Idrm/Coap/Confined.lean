import Idrm.Coap.LargeMessages
import Idrm.Coap.ParsedOptions

/-!
# What a parsed message depends on

The header of a message says where it ends, and `coap_parse_message_tcp` compares that with what
was received, once. Its option loop then goes on to the end of the buffer, and takes every
header and every value as it comes. `Enclosed` is the form of a message on which that makes no
difference.
-/

namespace Idrm.Coap

open Idrm.Lib Option
open List hiding map_map

/-! ## One round of the option loop -/

/-- An option in the buffer: its number, and where its value lies. -/
structure OptionSpan where
  number : Nat
  offset : Nat
  length : Nat

/-- Where the value of an option ends. -/
def OptionSpan.stop (span : OptionSpan) : Nat := span.offset + span.length

/-- Whether the option loop ends at a payload marker. -/
def isMarker (data : List UInt8) (current : Nat) : Bool :=
  data[current]?.any fun first => first &&& 0xF0 = 0xF0

/-- An option header, behind an option of some number. -/
def readOption (data : List UInt8) (current number : Nat) : Option OptionSpan :=
  data[current]?.bind fun first =>
    (extendNibble data (current + 1) (first >>> 4).toNat).bind fun (delta, offset) =>
      (extendNibble data offset (first &&& 0x0F).toNat).map fun (length, offset) =>
        ⟨number + delta, offset, length⟩

/-- The status an option is refused with, if it is. -/
def refusal (number : Nat) : Option UInt8 :=
  match CoapOption.ofNumber number with
  | none => if number % 2 = 1 then some badOption402 else none
  | some option => if option.supported then none else some proxyingNotSupported505

section Loop

variable {S : Type} (mode : StringMode S)

/-- What an option that is not refused does to buffer and packet. -/
def takeSpan (span : OptionSpan) (data : List UInt8) (packet : CoapPacket S) :
    Option (List UInt8 × CoapPacket S) :=
  let packet := { packet with options := insert span.number packet.options }
  match CoapOption.ofNumber span.number with
  | none => some (data, packet)
  | some option => (parseOption mode option data span.offset span.length packet).bind Sum.getRight?

/-- The option loop, with the options it took. -/
def tracedOptionsLoop : Nat → List UInt8 → Nat → Nat → CoapPacket S →
    Option (List OptionSpan × List UInt8 × OptionsEnd S)
  | 0, _, _, _, _ => none
  | fuel + 1, data, current, number, packet =>
    if data.length ≤ current then some ([], data, .complete packet)
    else if isMarker data current then some ([], data, .marker packet (current + 1))
    else
      (readOption data current number).bind fun span =>
        if span.number ≥ optionMapBits then none
        else
          match refusal span.number with
          | some status => some ([], data, .refused status)
          | none =>
            (takeSpan mode span data packet).bind fun (data, packet) =>
              (tracedOptionsLoop fuel data span.stop span.number packet).map fun (log, ended) =>
                (span :: log, ended)

variable {mode} {option : CoapOption} {data : List UInt8} {packet : CoapPacket S}

/-- The `switch` refuses what is not supported. -/
theorem parseOption_unsupported (unsupported : option.supported = false) (offset length : Nat) :
    parseOption mode option data offset length packet = some (.inl proxyingNotSupported505) := by
  rcases unsupported_proxy unsupported with rfl | rfl <;> rfl

/-- It refuses nothing else. -/
theorem parseOption_supported (supported : option.supported = true) (offset length : Nat) :
    ∀ status, parseOption mode option data offset length packet ≠ some (.inl status) := by
  intro status parses
  cases option <;> simp_all [parseOption, CoapOption.supported]

/-- A round of the loop. -/
theorem parseOptionsLoop_round (fuel current number : Nat) :
    parseOptionsLoop mode (fuel + 1) data current number packet =
      if data.length ≤ current then some (data, .complete packet)
      else if isMarker data current then some (data, .marker packet (current + 1))
      else
        (readOption data current number).bind fun span =>
          if span.number ≥ optionMapBits then none
          else
            match refusal span.number with
            | some status => some (data, .refused status)
            | none =>
              (takeSpan mode span data packet).bind fun (data, packet) =>
                parseOptionsLoop mode fuel data span.stop span.number packet := by
  rw [parseOptionsLoop]
  unfold isMarker readOption
  by_cases past : data.length ≤ current
  · rw [if_pos past, List.getElem?_eq_none past]
  · rw [if_neg past, List.getElem?_eq_getElem (Nat.lt_of_not_le past)]
    simp only [any_some, decide_eq_true_eq, bind_assoc, bind_map, Function.comp_apply]
    refine if_congr Iff.rfl rfl ?_
    refine Option.bind_congr fun deltaRead _ => ?_
    obtain ⟨delta, behind⟩ := deltaRead
    refine Option.bind_congr fun lengthRead _ => ?_
    obtain ⟨length, offset⟩ := lengthRead
    refine if_congr Iff.rfl rfl ?_
    unfold refusal takeSpan
    cases known : CoapOption.ofNumber (number + delta) with
    | none =>
      simp only
      split <;> rfl
    | some option =>
      simp only
      by_cases supported : option.supported = true
      · rw [if_pos supported]
        cases parses : parseOption mode option data offset length
          { packet with options := insert (number + delta) packet.options } with
        | none => rfl
        | some result =>
          cases result with
          | inl status => exact absurd parses (parseOption_supported supported _ _ status)
          | inr taken => rfl
      · rw [if_neg supported, parseOption_unsupported (by simpa using supported)]
        rfl

/-- The trace is one of the loop. -/
theorem tracedOptionsLoop_loop (fuel : Nat) (data : List UInt8) (current number : Nat)
    (packet : CoapPacket S) : (tracedOptionsLoop mode fuel data current number packet).map (·.2) =
      parseOptionsLoop mode fuel data current number packet := by
  induction fuel generalizing data current number packet with
  | zero => rfl
  | succ fuel ih =>
    rw [parseOptionsLoop_round, tracedOptionsLoop]
    split
    · rfl
    · split
      · rfl
      · rw [Option.map_bind]
        refine Option.bind_congr fun span _ => ?_
        simp only [Function.comp_apply]
        split
        · rfl
        · cases refusal span.number with
          | some status => rfl
          | none =>
            simp only
            rw [Option.map_bind]
            refine Option.bind_congr fun ⟨data, packet⟩ _ => ?_
            rw [← ih, Function.comp_apply, map_map]
            rfl

end Loop

/-! ## Options within a message -/

section Spans

variable {data : List UInt8} {limit current number : Nat} {span : OptionSpan}

theorem isMarker_take (inside : current < limit) :
    isMarker (data.take limit) current = isMarker data current := by
  rw [isMarker, isMarker, List.getElem?_take_of_lt inside]

/-- An extension is read if it lies before the limit. -/
theorem extendNibble_take {offset nibble value next : Nat}
    (extended : extendNibble data offset nibble = some (value, next))
    (inside : offset ≤ limit) : extendNibble (data.take limit) offset nibble = if next ≤ limit then
    some (value, next) else none := by
  unfold extendNibble at extended ⊢
  split
  · rename_i one
    rw [if_pos one] at extended
    obtain ⟨byte, here, result⟩ := map_eq_some_iff.mp extended
    obtain ⟨rfl, rfl⟩ := Prod.mk.inj result
    split
    · rw [List.getElem?_take_of_lt (by omega), here]
      rfl
    · rw [List.getElem?_eq_none (by rw [length_take]; omega)]
      rfl
  · rename_i notOne
    rw [if_neg notOne] at extended
    split
    · rename_i two
      rw [if_pos two] at extended
      obtain ⟨high, first, extended⟩ := bind_eq_some_iff.mp extended
      obtain ⟨low, second, result⟩ := map_eq_some_iff.mp extended
      obtain ⟨rfl, rfl⟩ := Prod.mk.inj result
      split
      · rw [List.getElem?_take_of_lt (by omega), List.getElem?_take_of_lt (by omega), first, second]
        rfl
      · have missing : (data.take limit)[offset + 1]? = none :=
          List.getElem?_eq_none (by rw [length_take]; omega)
        rw [missing]
        cases (data.take limit)[offset]? <;> rfl
    · rename_i notTwo
      rw [if_neg notTwo] at extended
      obtain ⟨rfl, rfl⟩ := Prod.mk.inj (some.inj extended)
      rw [if_pos inside]

/-- An option header takes a byte at least, and numbers do not decrease. -/
theorem readOption_onward (reads : readOption data current number = some span) :
    current < data.length ∧ current < span.offset ∧ number ≤ span.number := by
  obtain ⟨first, here, reads⟩ := bind_eq_some_iff.mp reads
  obtain ⟨⟨delta, behind⟩, readDelta, reads⟩ := bind_eq_some_iff.mp reads
  obtain ⟨⟨length, offset⟩, readLength, rfl⟩ := map_eq_some_iff.mp reads
  have afterDelta := extendNibble_le readDelta
  have afterLength := extendNibble_le readLength
  have inside := (List.getElem?_eq_some_iff.mp here).1
  simp only
  omega

/-- An option header is read if it lies before the limit. -/
theorem readOption_take (reads : readOption data current number = some span)
    (inside : current < limit) :
    readOption (data.take limit) current number = if span.offset ≤ limit then
    some span else none := by
  obtain ⟨first, here, reads⟩ := bind_eq_some_iff.mp reads
  obtain ⟨⟨delta, behind⟩, readDelta, reads⟩ := bind_eq_some_iff.mp reads
  obtain ⟨⟨length, offset⟩, readLength, rfl⟩ := map_eq_some_iff.mp reads
  have afterLength := extendNibble_le readLength
  rw [readOption, List.getElem?_take_of_lt inside, here, bind_some,
    extendNibble_take readDelta inside]
  simp only
  by_cases first : behind ≤ limit
  · rw [if_pos first, bind_some]
    simp only
    rw [extendNibble_take readLength first]
    split <;> rfl
  · rw [if_neg first, if_neg (by omega)]
    rfl

/-- What an option with some value does to a packet, known or not. -/
def acceptSpan (span : OptionSpan) (value : List UInt8) (packet : Packet) : Packet :=
  let packet := { packet with options := insert span.number packet.options }
  match CoapOption.ofNumber span.number with
  | none => packet
  | some option => storeValue option value packet

theorem refusal_supported {option : CoapOption} (accepts : refusal number = none)
    (known : CoapOption.ofNumber number = some option) : option.supported = true := by
  rw [refusal, known] at accepts
  simp only at accepts
  split at accepts
  · assumption
  · cases accepts

theorem takeSpan_byValue (accepts : refusal span.number = none)
    (inside : span.stop ≤ data.length) (packet : Packet) : takeSpan byValue span data packet =
      some (data, acceptSpan span (slice data ⟨span.offset, span.length⟩) packet) := by
  unfold takeSpan acceptSpan
  cases known : CoapOption.ofNumber span.number with
  | none => rfl
  | some option =>
    have here : data.drop span.offset = slice data ⟨span.offset, span.length⟩ ++
        data.drop span.stop := by
      rw [slice, OptionSpan.stop, ← drop_drop, take_append_drop]
    have length : (slice data ⟨span.offset, span.length⟩).length = span.length :=
      slice_length inside
    have parses := parseOption_byValue (refusal_supported accepts known) here
      (by rw [OptionSpan.stop] at inside; omega)
      { packet with options := insert span.number packet.options }
    rw [length] at parses
    simp only [parses]
    rfl

/-- The parser in the buffer takes the option that the parser by value takes. -/
theorem Tracks.takeSpan {moved : List UInt8} {group : Nat} {packet : CoapPacket BufRef}
    {value : Packet} (tracks : Tracks data moved current number group packet value)
    (reads : readOption data current number = some span)
    (accepts : refusal span.number = none) (inside : span.stop ≤ data.length) :
    ∃ moved' packet' group', Coap.takeSpan inPlace span moved packet = some (moved', packet') ∧
    Tracks data moved' span.stop span.number group' packet'
      (acceptSpan span (slice data ⟨span.offset, span.length⟩) value) := by
  obtain ⟨-, later, ascending⟩ := readOption_onward reads
  obtain ⟨group', opened⟩ := tracks.header ascending
  have byValue := takeSpan_byValue accepts inside value
  unfold Coap.takeSpan at byValue ⊢
  unfold acceptSpan at byValue ⊢
  cases known : CoapOption.ofNumber span.number with
  | none => exact ⟨moved, _, group', rfl, opened.skip (by rw [OptionSpan.stop]; omega)⟩
  | some option =>
    have isNumber : option.number = span.number := by simpa using List.find?_some known
    rw [known] at byValue
    obtain ⟨outcome, parses, taken⟩ := bind_eq_some_iff.mp byValue
    rw [← isNumber] at opened
    simp only [← isNumber] at parses
    obtain ⟨outcome', parses', follows⟩ := opened.parseOption later parses
    obtain ⟨status, rfl, rfl⟩ | ⟨value', moved', packet', rfl, rfl, onward⟩ := follows.cases
    · cases taken
    · obtain ⟨-, rfl⟩ := Prod.mk.inj (some.inj taken)
      rw [isNumber] at parses' onward
      simp only [parses']
      exact ⟨moved', packet', group', rfl, onward⟩

/-- Where they track each other, both parsers see the same. -/
theorem Tracks.reads {moved : List UInt8} {group : Nat} {packet : CoapPacket BufRef}
    {value : Packet} (tracks : Tracks data moved current number group packet value) :
    moved.length = data.length ∧ isMarker moved current = isMarker data current ∧
    readOption moved current number = readOption data current number := by
  refine ⟨tracks.sameLength, ?_, ?_⟩
  · rw [isMarker, isMarker, getElem?_of_drop_eq tracks.unread (Nat.le_refl current)]
  · rw [readOption, readOption, getElem?_of_drop_eq tracks.unread (Nat.le_refl current)]
    refine Option.bind_congr fun first _ => ?_
    rw [extendNibble_of_drop_eq tracks.unread (Nat.le_succ current)]
    refine Option.bind_congr fun ⟨delta, behind⟩ readDelta => ?_
    have later := extendNibble_le readDelta
    simp only
    rw [extendNibble_of_drop_eq tracks.unread (by omega)]

end Spans

/-! ## The form of a message -/

/-- What stands in a buffer behind an option, up to the end of a message: options with their
values, up to a payload marker, an option that is refused, or the end of both. -/
inductive Enclosed (data : List UInt8) (limit : Nat) : Nat → Nat → Prop where
  | ended {number : Nat} (whole : data.length = limit) : Enclosed data limit limit number
  | marked {current number : Nat} (inside : current < limit)
      (marks : isMarker data current = true) : Enclosed data limit current number
  | refused {current number : Nat} {span : OptionSpan}
      {status : UInt8} (unmarked : isMarker data current = false)
      (reads : readOption data current number = some span) (known : span.number < optionMapBits)
      (refuses : refusal span.number = some status) (inside : span.offset ≤ limit) :
      Enclosed data limit current number
  | taken {current number : Nat} {span : OptionSpan} (unmarked : isMarker data current = false)
      (reads : readOption data current number = some span) (known : span.number < optionMapBits)
      (accepts : refusal span.number = none) (inside : span.stop ≤ limit)
      (onward : Enclosed data limit span.stop span.number) : Enclosed data limit current number

section Enclosed

variable {data moved : List UInt8} {limit current number group : Nat} {packet : CoapPacket BufRef}
  {value : Packet}

/-- The options of a message that is enclosed lie in it. -/
theorem Enclosed.spans (enclosed : Enclosed data limit current number) (bound : limit ≤ data.length)
    (tracks : Tracks data moved current number group packet value)
    {fuel : Nat} {log : List OptionSpan} {ended : List UInt8 × OptionsEnd BufRef}
    (traced : tracedOptionsLoop inPlace fuel moved current number packet = some (log, ended)) :
    ∀ span ∈ log, span.stop ≤ limit := by
  induction enclosed generalizing moved group packet value fuel log ended with
  | ended whole =>
    obtain ⟨sameLength, -, -⟩ := tracks.reads
    cases fuel with
    | zero => cases traced
    | succ fuel =>
      rw [tracedOptionsLoop, if_pos (by omega)] at traced
      obtain ⟨rfl, -⟩ := Prod.mk.inj (some.inj traced)
      exact fun span member => absurd member not_mem_nil
  | marked inside marks =>
    obtain ⟨sameLength, sameMarker, -⟩ := tracks.reads
    cases fuel with
    | zero => cases traced
    | succ fuel =>
      rw [tracedOptionsLoop, if_neg (by omega), sameMarker, if_pos marks] at traced
      obtain ⟨rfl, -⟩ := Prod.mk.inj (some.inj traced)
      exact fun span member => absurd member not_mem_nil
  | refused unmarked reads known refuses inside =>
    obtain ⟨sameLength, sameMarker, sameReads⟩ := tracks.reads
    cases fuel with
    | zero => cases traced
    | succ fuel =>
      obtain ⟨within, -, -⟩ := readOption_onward reads
      rw [tracedOptionsLoop, if_neg (by omega), sameMarker, if_neg (by simp [unmarked]), sameReads,
        reads] at traced
      simp only [bind_some, if_neg (Nat.not_le.mpr known), refuses] at traced
      obtain ⟨rfl, -⟩ := Prod.mk.inj (some.inj traced)
      exact fun span member => absurd member not_mem_nil
  | taken unmarked reads known accepts inside onward ih =>
    obtain ⟨sameLength, sameMarker, sameReads⟩ := tracks.reads
    cases fuel with
    | zero => cases traced
    | succ fuel =>
      obtain ⟨within, -, -⟩ := readOption_onward reads
      obtain ⟨moved', packet', group', takes, next⟩ :=
        tracks.takeSpan reads accepts (Nat.le_trans inside bound)
      rw [tracedOptionsLoop, if_neg (by omega), sameMarker, if_neg (by simp [unmarked]), sameReads,
        reads] at traced
      simp only [bind_some, if_neg (Nat.not_le.mpr known), accepts, takes] at traced
      obtain ⟨⟨later, ended'⟩, tracedLater, result⟩ := map_eq_some_iff.mp traced
      obtain ⟨rfl, -⟩ := Prod.mk.inj result
      exact forall_mem_cons.mpr ⟨inside, ih next tracedLater⟩

/-- A message that is enclosed is parsed as if nothing stood behind it. -/
theorem Enclosed.ends (enclosed : Enclosed data limit current number) (bound : limit ≤ data.length)
    (value : Packet) : ∃ ended, (∀ packet start, ended = .marker packet start →
      current < start ∧ start ≤ limit) ∧ ∀ fuel, limit < fuel + current →
    parseOptionsLoop byValue fuel data current number value = some (data, ended) ∧ parseOptionsLoop
      byValue fuel (data.take limit) current number value = some (data.take limit, ended) := by
  have width : (data.take limit).length = limit := by rw [length_take, Nat.min_eq_left bound]
  induction enclosed generalizing value with
  | ended whole =>
    refine ⟨.complete value, (fun _ _ impossible => by cases impossible), fun fuel enough => ?_⟩
    obtain ⟨fuel, rfl⟩ : ∃ less, fuel = less + 1 := ⟨fuel - 1, by omega⟩
    rw [parseOptionsLoop_round, parseOptionsLoop_round, if_pos (by omega), if_pos (by omega)]
    exact ⟨rfl, rfl⟩
  | @marked current number inside marks =>
    refine ⟨.marker value (current + 1), fun _ start isEnd => ?_, fun fuel enough => ?_⟩
    · obtain ⟨-, rfl⟩ := OptionsEnd.marker.inj isEnd
      exact ⟨Nat.lt_succ_self current, inside⟩
    rcases fuel with _ | fuel
    · omega
    · constructor
      · rw [parseOptionsLoop_round, if_neg (by omega), if_pos marks]
      · rw [parseOptionsLoop_round, if_neg (by omega), isMarker_take inside, if_pos marks]
  | @refused current number span status unmarked reads known refuses inside =>
    obtain ⟨within, later, -⟩ := readOption_onward reads
    refine ⟨.refused status, (fun _ _ impossible => by cases impossible), fun fuel enough => ?_⟩
    rcases fuel with _ | fuel
    · omega
    · constructor
      · rw [parseOptionsLoop_round, if_neg (by omega), if_neg (by simp [unmarked]), reads]
        simp only [bind_some, if_neg (Nat.not_le.mpr known), refuses]
      · rw [parseOptionsLoop_round, if_neg (by omega), isMarker_take (by omega),
          if_neg (by simp [unmarked]), readOption_take reads (by omega), if_pos inside]
        simp only [bind_some, if_neg (Nat.not_le.mpr known), refuses]
  | @taken current number span unmarked reads known accepts inside onward ih =>
    obtain ⟨within, later, -⟩ := readOption_onward reads
    obtain ⟨ended, start, ends⟩ :=
      ih (acceptSpan span (slice data ⟨span.offset, span.length⟩) value)
    have isStop : span.stop = span.offset + span.length := rfl
    have sameValue : slice (data.take limit) ⟨span.offset, span.length⟩ = slice data ⟨span.offset,
        span.length⟩ := by
      refine @slice_of_take_eq data _ ⟨span.offset, span.length⟩ limit ?_ inside
      rw [take_take, Nat.min_self]
    refine ⟨ended, fun packet begins isEnd => ?_, fun fuel enough => ?_⟩
    · obtain ⟨behind, within⟩ := start packet begins isEnd
      exact ⟨by omega, within⟩
    rcases fuel with _ | fuel
    · omega
    · obtain ⟨whole, declared⟩ := ends fuel (by omega)
      constructor
      · rw [parseOptionsLoop_round, if_neg (by omega), if_neg (by simp [unmarked]), reads]
        simp only [bind_some, if_neg (Nat.not_le.mpr known), accepts,
          takeSpan_byValue accepts (Nat.le_trans inside bound)]
        exact whole
      · rw [parseOptionsLoop_round, if_neg (by omega), isMarker_take (by omega),
          if_neg (by simp [unmarked]), readOption_take reads (by omega), if_pos (by omega)]
        simp only [bind_some, if_neg (Nat.not_le.mpr known), accepts,
          takeSpan_byValue accepts (inside.trans_eq width.symm), sameValue]
        exact declared

/-- A message whose options lie in it, and which is parsed as if nothing stood behind it, is
enclosed. -/
theorem enclosed_of_runs {movedDeclared : List UInt8}
    {groupDeclared : Nat} {packetDeclared : CoapPacket BufRef}
    {fuel fuelDeclared : Nat} {log : List OptionSpan} {kept : List UInt8}
    {ended : OptionsEnd BufRef} (bound : limit ≤ data.length) (start : current ≤ limit)
    (tracks : Tracks data moved current number group packet value) (tracksDeclared : Tracks
      (data.take limit) movedDeclared current number groupDeclared packetDeclared value)
    (traced : tracedOptionsLoop inPlace fuel moved current number packet = some (log, kept, ended))
    (inside : ∀ span ∈ log, span.stop ≤ limit)
    (payload : ∀ packet begins, ended = .marker packet begins → begins ≤ limit)
    (refuses : ∀ status, ended = .refused status → ∃ rest, parseOptionsLoop inPlace
      fuelDeclared movedDeclared current number packetDeclared = some (rest, .refused status)) :
    Enclosed data limit current number := by
  have width : (data.take limit).length = limit := by rw [length_take, Nat.min_eq_left bound]
  induction fuel generalizing moved movedDeclared current number group groupDeclared packet
    packetDeclared value fuelDeclared log with
  | zero => cases traced
  | succ fuel ih =>
    obtain ⟨sameLength, sameMarker, sameReads⟩ := tracks.reads
    obtain ⟨lengthDeclared, markerDeclared, readsDeclared⟩ := tracksDeclared.reads
    rw [tracedOptionsLoop, sameLength, sameMarker, sameReads] at traced
    by_cases past : data.length ≤ current
    · obtain rfl : current = limit := by omega
      exact .ended (by omega)
    rw [if_neg past] at traced
    cases marks : isMarker data current with
    | true =>
      rw [marks, if_pos rfl] at traced
      obtain ⟨-, result⟩ := Prod.mk.inj (some.inj traced)
      obtain ⟨-, rfl⟩ := Prod.mk.inj result
      exact .marked (payload _ _ rfl) marks
    | false =>
      rw [marks, if_neg Bool.false_ne_true] at traced
      obtain ⟨span, reads, traced⟩ := bind_eq_some_iff.mp traced
      obtain ⟨-, later, -⟩ := readOption_onward reads
      simp only at traced
      split at traced
      · cases traced
      rename_i known
      cases refused : refusal span.number with
      | some status =>
        rw [refused] at traced
        obtain ⟨-, result⟩ := Prod.mk.inj (some.inj traced)
        obtain ⟨-, rfl⟩ := Prod.mk.inj result
        -- The declared message is refused too, so it has the header of the option.
        obtain ⟨rest, refusedDeclared⟩ := refuses status rfl
        rcases fuelDeclared with _ | fuelDeclared
        · cases refusedDeclared
        rw [parseOptionsLoop_round, lengthDeclared, markerDeclared, readsDeclared,
          width] at refusedDeclared
        by_cases room : limit ≤ current
        · rw [if_pos room] at refusedDeclared
          cases refusedDeclared
        rw [if_neg room, isMarker_take (by omega), if_neg (by simp [marks]),
          readOption_take reads (by omega)] at refusedDeclared
        split at refusedDeclared
        · rename_i within
          exact .refused marks reads (by omega) refused within
        · cases refusedDeclared
      | none =>
        rw [refused] at traced
        obtain ⟨⟨moved', packet'⟩, takes, traced⟩ := bind_eq_some_iff.mp traced
        obtain ⟨⟨later, ended'⟩, tracedLater, result⟩ := map_eq_some_iff.mp traced
        obtain ⟨rfl, rfl⟩ := Prod.mk.inj result
        obtain ⟨here, others⟩ := forall_mem_cons.mp inside
        have isStop : span.stop = span.offset + span.length := rfl
        have sameValue : slice (data.take limit) ⟨span.offset, span.length⟩ = slice data
            ⟨span.offset, span.length⟩ := by
          refine @slice_of_take_eq data _ ⟨span.offset, span.length⟩ limit ?_ here
          rw [take_take, Nat.min_self]
        have readsToo : readOption (data.take limit) current number = some span := by
          rw [readOption_take reads (by omega), if_pos (by omega)]
        obtain ⟨_, _, group', takes', next⟩ :=
          tracks.takeSpan reads refused (Nat.le_trans here bound)
        obtain ⟨movedNext, packetNext, groupNext, takesDeclared, nextDeclared⟩ :=
          tracksDeclared.takeSpan readsToo refused (here.trans_eq width.symm)
        obtain ⟨rfl, rfl⟩ := Prod.mk.inj (some.inj (takes.symm.trans takes'))
        rw [sameValue] at nextDeclared
        refine .taken marks reads (by omega) refused here
          (@ih _ _ _ _ _ _ _ _ _ (fuelDeclared - 1) _ here next nextDeclared tracedLater others
            fun status isRefused => ?_)
        obtain ⟨rest, refusedDeclared⟩ := refuses status isRefused
        rcases fuelDeclared with _ | fuelDeclared
        · cases refusedDeclared
        rw [parseOptionsLoop_round, lengthDeclared, markerDeclared,
          readsDeclared, width, if_neg (by omega),
          isMarker_take (by omega), if_neg (by simp [marks]), readsToo] at refusedDeclared
        simp only [bind_some, if_neg known, refused, takesDeclared] at refusedDeclared
        exact ⟨rest, refusedDeclared⟩

end Enclosed

/-! ## The parser -/

/-- The result of a buffer is that of the message its header declares, with nothing behind it; the
options that are taken and the payload lie in the message, and every option has its bit. -/
structure Confined (data : List UInt8) (start size : Nat) : Prop where
  frame : tcpFrame data = some (start, size)
  same : ∃ result, (coapParseMessageTcp data).map (Except.map received) = some result ∧
    (coapParseMessageTcp (data.take (start + size))).map (Except.map received) = some result
  options : start + size ≤ data.length → ∀ (header : Header) log ended, tracedOptionsLoop inPlace
    (data.length + 1) data start 0 (header.packet inPlace.null) = some (log, ended) →
    ∀ span ∈ log, span.stop ≤ start + size
  payload : ∀ parsed, coapParseMessageTcp data = some (.ok parsed) →
    parsed.2.payload.ptr + parsed.2.payload.len ≤ start + size
  numbers : ∀ parsed, coapParseMessageTcp data = some (.ok parsed) → ∀ number ∈ parsed.2.options,
    number < optionMapBits

section Parser

variable {data : List UInt8} {start size : Nat} {header : Header}

theorem parseOption_options {S : Type} {mode : StringMode S}
    {option : CoapOption} {moved : List UInt8} {offset length : Nat} {packet set : CoapPacket S}
    (parses : parseOption mode option data offset length packet = some (.inr (moved, set))) :
    set.options = packet.options := by
  cases option <;> simp only [parseOption, map_eq_some_iff, Option.some.injEq, reduceCtorEq,
    Sum.inr.injEq, Prod.mk.injEq] at parses
  all_goals try (obtain ⟨_, -, -, rfl⟩ := parses)
  all_goals rfl

/-- A bit of the bitmap is set for every option of a packet. -/
theorem parseBody_options {payloadLen : Nat → Nat}
    {current : Nat} {parsed : List UInt8 × CoapPacket BufRef}
    (parses : parseBody payloadLen data current header = some (.ok parsed)) :
    ∀ number ∈ parsed.2.options, number < optionMapBits := by
  refine @parseBody_keeps (fun packet => ∀ number ∈ packet.options, number < optionMapBits) ?_ ?_
    (fun _ _ bound => bound) payloadLen data current header parsed parses fun number member =>
    absurd member (Finset.notMem_empty number)
  · intro number bound packet before other member
    rcases Finset.mem_insert.mp member with rfl | member
    · exact bound
    · exact before other member
  · intro option data offset length packet moved set sets before
    rwa [parseOption_options sets]

theorem tcpPayloadLen_eq {begins : Nat} (behind : start ≤ begins) (inside : begins ≤ start + size)
    (small : size < 65536) : tcpPayloadLen size start begins = start + size - begins := by
  rw [tcpPayloadLen, Nat.mod_eq_of_lt (show begins - start < 65536 by omega)]
  omega

/-- An enclosed message is parsed from its bytes alone. -/
theorem Confined.of_enclosed (short : data.length < 65536)
    (frame : tcpFrame data = some (start, size))
    (enclosed : start + size ≤ data.length → Enclosed data (start + size) start 0) :
    Confined data start size := by
  obtain ⟨-, header, framed⟩ := coapParseMessageTcp_frame frame
  have whole := framed data short rfl
  by_cases bound : start + size ≤ data.length
  · have declared := framed (data.take (start + size)) (by rw [length_take]; omega)
      (by rw [take_take, Nat.min_eq_left (Nat.le_add_right start size)])
    rw [if_neg (by omega)] at whole
    rw [if_neg (by rw [length_take]; omega)] at declared
    obtain ⟨ended, marker, ends⟩ := (enclosed bound).ends bound (header.packet [])
    have runs := (ends (data.length + 1) (by omega)).1
    have runsDeclared :=
      (ends ((data.take (start + size)).length + 1) (by rw [length_take]; omega)).2
    have answers : bodyAnswer (tcpPayloadLen size start) (data.take (start + size)) ended =
        bodyAnswer (tcpPayloadLen size start) data ended := by
      cases ended with
      | refused status => rfl
      | complete packet => rfl
      | marker packet begins =>
        obtain ⟨behind, inside⟩ := marker packet begins rfl
        rw [bodyAnswer, bodyAnswer, tcpPayloadLen_eq (Nat.le_of_lt behind) inside (by omega),
          drop_take, take_take, Nat.min_self]
    refine ⟨frame, ⟨bodyAnswer (tcpPayloadLen size start) data ended, ?_, ?_⟩,
      fun _ header log ended traced => ?_, fun parsed parses => ?_, fun parsed parses => ?_⟩
    · rw [whole]
      exact parseBody_byValue runs (tcpPayloadLen size start)
    · rw [declared, parseBody_byValue runsDeclared (tcpPayloadLen size start), answers]
    · have tracks : Tracks data data start 0 0 (header.packet inPlace.null) _ :=
        .initial (unset_header header) rfl
      exact (enclosed bound).spans bound tracks traced
    · rw [whole] at parses
      obtain ⟨moved, ended', endsInPlace, -, follows⟩ :=
        parseOptions_inPlace (unset_header header) rfl runs
      rw [parseBody, endsInPlace] at parses
      cases ended' with
      | refused status => cases some.inj parses
      | complete packet =>
        obtain rfl := Except.ok.inj (some.inj parses)
        cases ended with
        | refused status => exact follows.elim
        | complete value => exact follows.2 ▸ Nat.zero_le _
        | marker value begins => exact follows.elim
      | marker packet begins =>
        obtain rfl := Except.ok.inj (some.inj parses)
        cases ended with
        | refused status => exact follows.elim
        | complete value => exact follows.elim
        | marker value begins' =>
          obtain ⟨rfl, -, -⟩ := follows
          obtain ⟨behind, inside⟩ := marker value begins rfl
          have length := tcpPayloadLen_eq (Nat.le_of_lt behind) inside (show size < 65536 by omega)
          change begins + tcpPayloadLen size start begins ≤ start + size
          omega
    · exact parseBody_options (whole.symm.trans parses)
  · have alone : data.take (start + size) = data := take_of_length_le (by omega)
    rw [if_pos (by omega)] at whole
    refine ⟨frame, ⟨.error badRequest400, by rw [whole]; rfl, by rw [alone, whole]; rfl⟩,
      fun inside => absurd inside bound, fun parsed parses => ?_, fun parsed parses => ?_⟩
    · cases whole.symm.trans parses
    · cases whole.symm.trans parses

/-- What is parsed from the bytes of a message alone is enclosed in it. -/
theorem Confined.enclosed (confined : Confined data start size) (short : data.length < 65536)
    (bound : start + size ≤ data.length) : Enclosed data (start + size) start 0 := by
  obtain ⟨frame, ⟨result, parses, parsesDeclared⟩, options, payload, -⟩ := confined
  obtain ⟨-, header, framed⟩ := coapParseMessageTcp_frame frame
  have whole := framed data short rfl
  have declared := framed (data.take (start + size)) (by rw [length_take]; omega)
    (by rw [take_take, Nat.min_eq_left (Nat.le_add_right start size)])
  rw [if_neg (by omega)] at whole
  rw [if_neg (by rw [length_take]; omega)] at declared
  obtain ⟨answer, body, rfl⟩ := map_eq_some_iff.mp parses
  obtain ⟨answerDeclared, bodyDeclared, same⟩ := map_eq_some_iff.mp parsesDeclared
  obtain ⟨⟨moved, ended⟩, runs, sets⟩ := map_eq_some_iff.mp (whole.symm.trans body)
  obtain ⟨⟨movedDeclared, endedDeclared⟩, runsDeclared, setsDeclared⟩ :=
    map_eq_some_iff.mp (declared.symm.trans bodyDeclared)
  obtain ⟨⟨log, traceEnd⟩, traced, rfl⟩ := map_eq_some_iff.mp ((tracedOptionsLoop_loop
    (data.length + 1) data start 0 (header.packet inPlace.null)).trans runs)
  have payloads : ∀ packet begins, ended = .marker packet begins → begins ≤ start + size := by
    rintro packet begins rfl
    obtain rfl := sets
    exact Nat.le_trans (Nat.le_add_right begins _) (payload _ body)
  have refuses : ∀ status, ended = .refused status → ∃ rest,
      parseOptionsLoop inPlace ((data.take (start + size)).length + 1) (data.take (start + size))
      start 0 (header.packet inPlace.null) = some (rest, .refused status) := by
    rintro status rfl
    obtain rfl := sets
    cases endedDeclared with
    | refused other =>
      obtain rfl := setsDeclared
      obtain rfl := Except.error.inj same
      exact ⟨movedDeclared, runsDeclared⟩
    | complete packet =>
      obtain rfl := setsDeclared
      cases same
    | marker packet begins =>
      obtain rfl := setsDeclared
      cases same
  exact enclosed_of_runs bound (Nat.le_add_right start size) (.initial (unset_header header) rfl)
    (.initial (unset_header header) rfl) traced (options bound header log _ traced) payloads refuses

/-- The parser is confined to the message that the header declares exactly where the message is
longer than what was received, or encloses its options. -/
theorem confined_iff (short : data.length < 65536) : (∃ start size, Confined data start size) ↔
    ∃ start size, tcpFrame data = some (start, size) ∧
    (start + size ≤ data.length → Enclosed data (start + size) start 0) := by
  constructor
  · rintro ⟨start, size, confined⟩
    exact ⟨start, size, confined.frame, confined.enclosed short⟩
  · rintro ⟨start, size, frame, enclosed⟩
    exact ⟨start, size, .of_enclosed short frame enclosed⟩

/-- A message with a token, a path of one segment and a payload. -/
def pathMessage : List UInt8 := [0x41, 0x01, 0x07, 0xB1, 0x61, 0xFF, 0x62]

theorem confined_iff_pathMessage : (∃ start size, Confined pathMessage start size) ↔
    ∃ start size, tcpFrame pathMessage = some (start, size) ∧
      (start + size ≤ pathMessage.length → Enclosed pathMessage (start + size) start 0) :=
  confined_iff (by decide)

/-- An empty message, and a byte that was received behind it. -/
def emptyMessage : List UInt8 := [0x00, 0x01, 0xFF]

/-- The byte is taken for the marker of a payload. -/
theorem confined_fails : tcpFrame emptyMessage = some (2, 0) ∧ ¬ ∃ start size,
    Confined emptyMessage start size := by
  refine ⟨by decide, ?_⟩
  rintro ⟨start, size, confined⟩
  obtain ⟨rfl, rfl⟩ := Prod.mk.inj
    (some.inj (confined.frame.symm.trans (show tcpFrame emptyMessage = some (2, 0) by decide)))
  cases confined.enclosed (by decide) (by decide) with
  | ended whole => exact absurd whole (by decide)
  | marked inside => exact absurd inside (by decide)
  | refused unmarked => exact absurd unmarked (by decide)
  | taken unmarked => exact absurd unmarked (by decide)

end Parser

end Idrm.Coap
