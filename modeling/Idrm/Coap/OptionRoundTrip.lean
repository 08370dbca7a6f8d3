import Mathlib.Data.Nat.Bitwise
import Idrm.Coap.OptionCodec

/-!
# Packet options round trip

Every option of a packet, written and taken back into a fresh packet, gives its
field back: integers in as many bytes as they need, blocks packed into an integer,
split strings joined again. `parseOptions_serialized` puts the fields together.
-/

namespace Idrm.Coap

open Idrm.Lib List

/-! ## Integers -/

/-- A mask that keeps the bits from `low` on. -/
theorem and_highMask {value low : Nat} (bounded : value < 2 ^ 32) (lowBound : low ≤ 32) :
    (2 ^ 32 - 2 ^ low) &&& value = value / 2 ^ low * 2 ^ low := by
  have mask : 2 ^ 32 - 2 ^ low = (2 ^ (32 - low) - 1) <<< low := by
    rw [Nat.shiftLeft_eq, Nat.sub_mul, ← pow_add, Nat.sub_add_cancel lowBound, Nat.one_mul]
  apply Nat.eq_of_testBit_eq
  intro index
  rw [mask, ← Nat.shiftLeft_eq, ← Nat.shiftRight_eq_div_pow]
  simp only [Nat.testBit_and, Nat.testBit_shiftLeft, Nat.testBit_shiftRight,
    Nat.testBit_two_pow_sub_one]
  by_cases high : low ≤ index
  · rw [Nat.add_sub_cancel' high]
    by_cases inside : index < 32
    · simp [high, show index - low < 32 - low by omega]
    · have beyond : value.testBit index = false :=
        Nat.testBit_eq_false_of_lt
          (Nat.lt_of_lt_of_le bounded (Nat.pow_le_pow_right (by decide) (by omega)))
      simp [beyond]
  · simp [high]

/-- The bytes of a word from a position on are zero exactly when the word is small. -/
theorem and_highMask_ne_zero {value mask : UInt32}
    {low : Nat} (isMask : mask.toNat = 2 ^ 32 - 2 ^ low)
    (lowBound : low ≤ 32) : mask &&& value ≠ 0 ↔ 2 ^ low ≤ value.toNat := by
  rw [ne_eq, ← UInt32.toNat_inj, UInt32.toNat_and, isMask, and_highMask value.toNat_lt lowBound,
    UInt32.toNat_zero, Nat.mul_eq_zero, Nat.div_eq_zero_iff]
  have positive : 2 ^ low ≠ 0 := Nat.pos_iff_ne_zero.mp (Nat.two_pow_pos low)
  omega

/-- Shifting a byte in, as `coap_parse_int_option` does. -/
theorem shiftOr_toNat (word : UInt32) (byte : UInt8) :
    ((word <<< 8) ||| byte.toUInt32).toNat = (word.toNat * 256 + byte.toNat) % 2 ^ 32 := by
  have small := byte.toNat_lt
  have shifted : word.toNat <<< 8 % 2 ^ 32 = (word.toNat % 2 ^ 24) <<< 8 := by
    simp only [Nat.shiftLeft_eq]
    omega
  simp only [UInt32.toNat_or, UInt32.toNat_shiftLeft, UInt8.toNat_toUInt32]
  rw [show (8 : UInt32).toNat % 32 = 8 from rfl, shifted,
    ← Nat.shiftLeft_add_eq_or_of_lt (by omega)]
  simp only [Nat.shiftLeft_eq]
  omega

theorem coapParseIntOption_toNat (bytes : List UInt8) :
    (coapParseIntOption bytes).toNat = beNat bytes % 2 ^ 32 := by
  have accumulated : ∀ word : UInt32,
      (bytes.foldl (fun (var : UInt32) byte => (var <<< 8) ||| byte.toUInt32) word).toNat =
        (word.toNat * 256 ^ bytes.length + beNat bytes) % 2 ^ 32 := by
    induction bytes with
    | nil =>
      intro word
      simp [Nat.mod_eq_of_lt word.toNat_lt]
    | cons byte rest ih =>
      intro word
      rw [foldl_cons, ih, shiftOr_toNat, beNat_cons, length_cons,
        Nat.add_mod, Nat.mod_mul_mod, ← Nat.add_mod]
      congr 1
      ring
  rw [coapParseIntOption, accumulated]
  simp

/-- The bytes of an integer option denote its value. -/
theorem beNat_intOptionBytes (value : UInt32) : beNat (intOptionBytes value) = value.toNat := by
  have bound := value.toNat_lt
  have top : 0xFF000000 &&& value ≠ 0 ↔ 2 ^ 24 ≤ value.toNat := and_highMask_ne_zero rfl (by decide)
  have half : 0xFFFF0000 &&& value ≠ 0 ↔ 2 ^ 16 ≤ value.toNat :=
    and_highMask_ne_zero rfl (by decide)
  have low : 0xFFFFFF00 &&& value ≠ 0 ↔ 2 ^ 8 ≤ value.toNat := and_highMask_ne_zero rfl (by decide)
  have shifted : ∀ {amount : UInt32} {count : Nat}, amount.toNat = count → count < 32 →
      (value >>> amount).toUInt8.toNat = value.toNat / 2 ^ count % 256 := by
    intro amount count isCount small
    rw [UInt32.toNat_toUInt8, UInt32.toNat_shiftRight, isCount, Nat.mod_eq_of_lt small,
      Nat.shiftRight_eq_div_pow]
  have last : value.toUInt8.toNat = value.toNat % 256 := UInt32.toNat_toUInt8 value
  have third : (value >>> 8).toUInt8.toNat = value.toNat / 2 ^ 8 % 256 := shifted rfl (by decide)
  have second : (value >>> 16).toUInt8.toNat = value.toNat / 2 ^ 16 % 256 := shifted rfl (by decide)
  have first : (value >>> 24).toUInt8.toNat = value.toNat / 2 ^ 24 % 256 := shifted rfl (by decide)
  unfold intOptionBytes
  by_cases hasFirst : 2 ^ 24 ≤ value.toNat
  · rw [if_pos (top.mpr hasFirst), if_pos (half.mpr (by omega)), if_pos (low.mpr (by omega))]
    simp [beNat_cons, first, second, third, last]
    omega
  · rw [if_neg (mt top.mp hasFirst)]
    by_cases hasSecond : 2 ^ 16 ≤ value.toNat
    · rw [if_pos (half.mpr hasSecond), if_pos (low.mpr (by omega))]
      simp [beNat_cons, second, third, last]
      omega
    · rw [if_neg (mt half.mp hasSecond)]
      by_cases hasThird : 2 ^ 8 ≤ value.toNat
      · rw [if_pos (low.mpr hasThird)]
        simp [beNat_cons, third, last]
        omega
      · rw [if_neg (mt low.mp hasThird)]
        simp [beNat_cons, last]
        omega

/-- An integer option gives its value back. -/
@[simp] theorem coapParseIntOption_intOptionBytes (value : UInt32) :
    coapParseIntOption (intOptionBytes value) = value := by
  apply UInt32.toNat_inj.mp
  rw [coapParseIntOption_toNat, beNat_intOptionBytes, Nat.mod_eq_of_lt value.toNat_lt]

/-! ## Blocks -/

/-- The block sizes an option can express. -/
def BlockSize (size : UInt16) : Prop := ∃ exponent < 8, size.toNat = 16 * 2 ^ exponent

theorem coapLog2_blockSize {size : UInt16} {exponent : Nat} (bound : exponent < 8)
    (isSize : size.toNat = 16 * 2 ^ exponent) : coapLog2 (size / 16) = exponent := by
  have quotient : (size / 16).toNat = 2 ^ exponent := by
    rw [UInt16.toNat_div, isSize, show (16 : UInt16).toNat = 16 from rfl,
      Nat.mul_div_cancel_left _ (by decide)]
  have powers : ∀ power : Fin 8, coapLog2Loop 16 (2 ^ power.val) 0 = power.val + 1 := by decide
  have looped := powers ⟨exponent, bound⟩
  simp only at looped
  rw [coapLog2, quotient, looped]
  rfl

/-- The fields of a block option's value, as digits of a number. -/
theorem blockOptionValue_toNat {block : Block} {exponent : Nat} (bound : exponent < 8)
    (isSize : block.size.toNat = 16 * 2 ^ exponent) (number : block.num.toNat < 2 ^ 20) :
    (blockOptionValue block).toNat = block.num.toNat * 16 +
      (if block.more then 8 else 0) + exponent := by
  have low : (0xF &&& UInt32.ofNat (coapLog2 (block.size / 16))).toNat = exponent := by
    rw [coapLog2_blockSize bound isSize, UInt32.toNat_and, UInt32.toNat_ofNat',
      show (0xF : UInt32).toNat = 2 ^ 4 - 1 from rfl, Nat.and_comm, Nat.and_two_pow_sub_one_eq_mod]
    omega
  have high : (block.num <<< 4).toNat = block.num.toNat <<< 4 := by
    rw [UInt32.toNat_shiftLeft, show (4 : UInt32).toNat % 32 = 4 from rfl, Nat.shiftLeft_eq]
    omega
  have flag : (if block.more then (0x8 : UInt32) else 0).toNat = if block.more then 8 else 0 := by
    split <;> rfl
  have digits :
      (if block.more then 8 else 0) ||| exponent = (if block.more then 8 else 0) + exponent := by
    have all : ∀ digit : Fin 8, 8 ||| digit.val = 8 + digit.val := by decide
    split
    · exact all ⟨exponent, bound⟩
    · simp
  rw [blockOptionValue, UInt32.toNat_or, UInt32.toNat_or, low, high, flag, Nat.lor_assoc, digits,
    ← Nat.shiftLeft_add_eq_or_of_lt (by split <;> omega), Nat.shiftLeft_eq]
  omega

/-- A block option gives number, flag and size back, with the offset they imply. -/
theorem parseBlock_blockOptionValue {block : Block} (size : BlockSize block.size)
    (number : block.num.toNat < 2 ^ 20) :
    parseBlock (blockOptionValue block) =
      { block with offset := block.num * block.size.toUInt32 } := by
  obtain ⟨exponent, bound, isSize⟩ := size
  have value := blockOptionValue_toNat bound isSize number
  have flagBound : (if block.more then 8 else 0) ≤ 8 := by split <;> omega
  have low : (blockOptionValue block &&& 0x07).toNat = exponent := by
    rw [UInt32.toNat_and, value, show (0x07 : UInt32).toNat = 2 ^ 3 - 1 from rfl,
      Nat.and_two_pow_sub_one_eq_mod]
    split <;> omega
  have flag : ((blockOptionValue block &&& 0x08) >>> 3 ≠ 0) ↔ block.more = true := by
    rw [ne_eq, ← UInt32.toNat_inj, UInt32.toNat_shiftRight, UInt32.toNat_and, value,
      show (0x08 : UInt32).toNat = 2 ^ 3 from rfl, Nat.and_two_pow, Nat.toNat_testBit,
      show (3 : UInt32).toNat % 32 = 3 from rfl, Nat.shiftRight_eq_div_pow, UInt32.toNat_zero]
    cases block.more <;> simp <;> omega
  have high : blockOptionValue block >>> 4 = block.num := by
    apply UInt32.toNat_inj.mp
    rw [UInt32.toNat_shiftRight, value, show (4 : UInt32).toNat % 32 = 4 from rfl,
      Nat.shiftRight_eq_div_pow]
    split <;> omega
  have powerBound : 2 ^ exponent ≤ 2 ^ 7 := Nat.pow_le_pow_right (by decide) (by omega)
  have sizeBack : (16 <<< (blockOptionValue block &&& 0x07)).toUInt16 = block.size := by
    apply UInt16.toNat_inj.mp
    rw [UInt32.toNat_toUInt16, UInt32.toNat_shiftLeft, low, isSize, Nat.shiftLeft_eq,
      show (16 : UInt32).toNat = 16 from rfl, Nat.mod_eq_of_lt (by omega : exponent < 32)]
    omega
  have offset : (blockOptionValue block &&& 0xFFFFFFF0) <<< (blockOptionValue block &&& 0x07) =
      block.num * block.size.toUInt32 := by
    apply UInt32.toNat_inj.mp
    rw [UInt32.toNat_shiftLeft, low, UInt32.toNat_and, Nat.and_comm,
      show (0xFFFFFFF0 : UInt32).toNat = 2 ^ 32 - 2 ^ 4 from rfl,
      and_highMask (blockOptionValue block).toNat_lt (by decide), value, UInt32.toNat_mul,
      UInt16.toNat_toUInt32, isSize, Nat.mod_eq_of_lt (by omega : exponent < 32), Nat.shiftLeft_eq]
    have shifted : (block.num.toNat * 16 + (if block.more then 8 else 0) + exponent) / 2 ^ 4 * 2 ^
        4 = block.num.toNat * 16 := by
      split <;> omega
    rw [shifted, Nat.mul_assoc]
  rw [parseBlock, high, sizeBack, offset]
  congr 1
  rw [Bool.eq_iff_iff, decide_eq_true_iff]
  exact flag

/-! ## Whole options -/

/-- The separator of the options that are split. -/
def CoapOption.separator : CoapOption → Option UInt8
  | .locationPath => some slash
  | .uriPath => some slash
  | .uriQuery => some ampersand
  | .locationQuery => some ampersand
  | _ => none

variable {option : CoapOption} {separator : UInt8}

/-- Two segments taken one after the other are one segment joined before. -/
theorem acceptEntry_join
    (splits : option.separator = some separator) {front back : List UInt8} (filled : front ≠ [])
    (packet : Packet) :
    acceptEntry (acceptEntry packet (option, front)) (option, back) =
      acceptEntry packet (option, front ++ [separator] ++ back) := by
  have length : front.length > 0 := length_pos_iff.mpr filled
  have join : ∀ field, joinSegment (joinSegment field separator front) separator back =
      joinSegment field separator (front ++ [separator] ++ back) := by
    intro field
    unfold joinSegment
    by_cases started : field.length > 0
    · simp [started]
    · simp [started, length]
  cases option <;>
    simp only [CoapOption.separator, Option.some.injEq, reduceCtorEq] at splits <;>
    subst splits <;>
    simp only [acceptEntry, storeValue, join, Finset.insert_idem]

/-- The segments of a string, taken one by one, are the string. -/
theorem foldl_acceptEntry_segments
    (splits : option.separator = some separator) (segment : List UInt8) (more : List (List UInt8))
    (filled : more = [] ∨ segment ≠ []) (packet : Packet) :
    ((segment :: more).map fun part => (option, part)).foldl acceptEntry packet =
      acceptEntry packet (option, [separator].intercalate (segment :: more)) := by
  induction more generalizing segment with
  | nil => simp
  | cons next others ih =>
    have nonempty : segment ≠ [] := by simpa using filled
    have joined := ih (segment ++ [separator] ++ next) (.inr (by simp))
    have flat : [separator].intercalate ((segment ++ [separator] ++ next) :: others) =
        [separator].intercalate (segment :: next :: others) := by
      cases others with
      | nil => simp [intercalate_cons_cons]
      | cons third rest => simp [intercalate_cons_cons]
    rw [← flat, ← joined]
    simp only [map_cons, foldl_cons, acceptEntry_join splits nonempty]

/-- Whether a packet has taken no segment of a string option yet. -/
def Unset (packet : Packet) : CoapOption → Prop
  | .locationPath => packet.locationPath = []
  | .uriPath => packet.uriPath = []
  | .uriQuery => packet.uriQuery = []
  | .locationQuery => packet.locationQuery = []
  | _ => True

/-- A packet with one option of another one copied over, if it is there. -/
def copyOption (sent packet : Packet) (option : CoapOption) : Packet :=
  let packet := { packet with
    options := if sent.isOption option then insert option.number packet.options
      else packet.options }
  match option with
  | .ifMatch =>
    { packet with ifMatch := if sent.isOption .ifMatch then sent.ifMatch else packet.ifMatch }
  | .uriHost =>
    { packet with uriHost := if sent.isOption .uriHost then sent.uriHost else packet.uriHost }
  | .etag => { packet with etag := if sent.isOption .etag then sent.etag else packet.etag }
  | .ifNoneMatch => { packet with ifNoneMatch := sent.isOption .ifNoneMatch || packet.ifNoneMatch }
  | .observe =>
    { packet with observe := if sent.isOption .observe then sent.observe else packet.observe }
  | .uriPort =>
    { packet with uriPort := if sent.isOption .uriPort then sent.uriPort else packet.uriPort }
  | .locationPath => { packet with
      locationPath := if sent.isOption .locationPath then sent.locationPath
        else packet.locationPath }
  | .uriPath =>
    { packet with uriPath := if sent.isOption .uriPath then sent.uriPath else packet.uriPath }
  | .contentFormat => { packet with
      contentFormat := if sent.isOption .contentFormat then sent.contentFormat
        else packet.contentFormat }
  | .maxAge =>
    { packet with maxAge := if sent.isOption .maxAge then sent.maxAge else packet.maxAge }
  | .uriQuery => { packet with
      uriQuery := if sent.isOption .uriQuery then sent.uriQuery else packet.uriQuery }
  | .accept =>
    { packet with accept := if sent.isOption .accept then sent.accept else packet.accept }
  | .locationQuery => { packet with
      locationQuery := if sent.isOption .locationQuery then sent.locationQuery
        else packet.locationQuery }
  | .block2 => { packet with
      block2 := if sent.isOption .block2 then parseBlock (blockOptionValue sent.block2)
        else packet.block2 }
  | .block1 => { packet with
      block1 := if sent.isOption .block1 then parseBlock (blockOptionValue sent.block1)
        else packet.block1 }
  | .size2 => { packet with size2 := if sent.isOption .size2 then sent.size2 else packet.size2 }
  | .proxyUri => packet
  | .proxyScheme => packet
  | .size1 => { packet with size1 := if sent.isOption .size1 then sent.size1 else packet.size1 }

variable {sent packet : Packet}

/-- Copying one option leaves the strings of the others alone. -/
theorem Unset.copyOption {option other : CoapOption} (different : other ≠ option)
    (unset : Unset packet other) : Unset (copyOption sent packet option) other := by
  cases other <;>
    first | exact trivial | (cases option <;> first | exact absurd rfl different | exact unset)

/-- An absent option changes nothing. -/
theorem copyOption_absent
    (absent : sent.isOption option = false) : copyOption sent packet option = packet := by
  cases option <;> simp [copyOption, absent]

/-- Taking a whole string into a packet that has none of it copies it. -/
theorem acceptEntry_string
    (splits : option.separator = some separator) (present : sent.isOption option = true)
    (unset : Unset packet option) :
    ∃ bytes, optionValue sent option = .array bytes separator ∧ separator ≠ 0 ∧
      acceptEntry packet (option, bytes) = copyOption sent packet option := by
  cases option <;>
    simp only [CoapOption.separator, Option.some.injEq, reduceCtorEq] at splits <;>
    subst splits <;>
    exact ⟨_, rfl, by decide, by
      simp_all [Unset, acceptEntry, storeValue, joinSegment, Idrm.Coap.copyOption]⟩

/-- The entries of one option copy it over. -/
theorem foldl_acceptEntry_option (clean : CleanStrings sent)
    (supported : sent.isOption option = true → option.supported = true)
    (unset : Unset packet option) :
    (optionEntries sent option).foldl acceptEntry packet = copyOption sent packet option := by
  by_cases present : sent.isOption option = true
  · unfold optionEntries
    rw [if_pos present]
    cases splits : option.separator with
    | none =>
      have handled := supported present
      cases option <;>
        simp_all [CoapOption.separator, CoapOption.supported, optionValue, acceptEntry, storeValue,
          Idrm.Coap.copyOption]
    | some separator =>
      obtain ⟨bytes, value, nonzero, copied⟩ := acceptEntry_string splits present unset
      obtain ⟨segment, more, parts⟩ :=
        exists_cons_of_ne_nil (splitOn_ne_nil separator bytes)
      have filled : more = [] ∨ segment ≠ [] := by
        rcases clean option present bytes separator value nonzero with rfl | clean
        · rw [splitOn_nil] at parts
          cases parts
          exact .inl rfl
        · right
          intro empty
          exact clean (by rw [parts, empty]; exact mem_cons_self)
      rw [value]
      simp only [nonzero, if_false, parts]
      rw [foldl_acceptEntry_segments splits segment more filled, ← parts,
        intercalate_splitOn, copied]
  · rw [copyOption_absent (by simpa using present), optionEntries, if_neg present]
    rfl

/-- The numbers of the options present among some. -/
theorem mem_foldl_copyOption_options {sent : Packet} (options : List CoapOption) (packet : Packet)
    (number : Nat) : number ∈ (options.foldl (copyOption sent) packet).options ↔
    number ∈ packet.options ∨ ∃ option ∈ options,
    sent.isOption option = true ∧ option.number = number := by
  induction options generalizing packet with
  | nil => simp
  | cons option rest ih =>
    have first : number ∈ (copyOption sent packet option).options ↔
        number ∈ packet.options ∨ (sent.isOption option = true ∧ option.number = number) := by
      have options : (copyOption sent packet option).options =
          if sent.isOption option then insert option.number packet.options else packet.options := by
        cases option <;> rfl
      rw [options]
      split
      · rename_i present
        rw [Finset.mem_insert, or_comm]
        simp [present, eq_comm]
      · rename_i absent
        simp [absent]
    rw [foldl_cons, ih, first, or_assoc]
    simp

/-- The entries of a packet copy its options, one after the other. -/
theorem foldl_acceptEntry_all (clean : CleanStrings sent)
    (supported : ∀ option, sent.isOption option = true → option.supported = true)
    {options : List CoapOption}
    (distinct : options.Nodup) (unset : ∀ option ∈ options, Unset packet option) :
    (options.flatMap (optionEntries sent)).foldl acceptEntry packet =
      options.foldl (copyOption sent) packet := by
  induction options generalizing packet with
  | nil => rfl
  | cons option rest ih =>
    obtain ⟨fresh, restDistinct⟩ := nodup_cons.mp distinct
    rw [flatMap_cons, foldl_append, foldl_cons,
      foldl_acceptEntry_option clean (supported option) (unset option mem_cons_self)]
    refine ih restDistinct fun other member => ?_
    exact (unset other (mem_cons_of_mem _ member)).copyOption fun same => fresh (same ▸ member)

/-- A packet whose options the writer and the parser agree on: none is a proxy
option, strings have no empty segments, blocks fit their option. -/
structure Expressible (packet : Packet) : Prop where
  options : ∀ number ∈ packet.options, ∃ option : CoapOption, option.number = number ∧
    option.supported = true
  clean : CleanStrings packet
  block2 : packet.isOption .block2 = true →
    BlockSize packet.block2.size ∧ packet.block2.num.toNat < 2 ^ 20
  block1 : packet.isOption .block1 = true →
    BlockSize packet.block1.size ∧ packet.block1.num.toNat < 2 ^ 20

/-- Only paths and queries are split. -/
theorem cleanStrings_of {packet : Packet}
    (locationPath : packet.isOption .locationPath = true → NoEmptySegment slash packet.locationPath)
    (uriPath : packet.isOption .uriPath = true → NoEmptySegment slash packet.uriPath)
    (uriQuery : packet.isOption .uriQuery = true → NoEmptySegment ampersand packet.uriQuery)
    (locationQuery : packet.isOption .locationQuery = true →
      NoEmptySegment ampersand packet.locationQuery) : CleanStrings packet := by
  intro option present bytes splitChar value splits
  cases option with
  | locationPath => cases value; exact locationPath present
  | uriPath => cases value; exact uriPath present
  | uriQuery => cases value; exact uriQuery present
  | locationQuery => cases value; exact locationQuery present
  | _ => cases value <;> exact absurd rfl splits

theorem Expressible.supported {packet : Packet} (expressible : Expressible packet)
    (option : CoapOption) (present : packet.isOption option = true) : option.supported = true := by
  obtain ⟨other, same, supported⟩ :=
    expressible.options option.number (by simpa [CoapPacket.isOption] using present)
  rw [← number_injective same]
  exact supported

/-- The options of a packet, as a parser gives them back: those that are present,
with their values. -/
structure SameOptions (sent received : Packet) : Prop where
  options : received.options = sent.options
  ifMatch : sent.isOption .ifMatch = true → received.ifMatch = sent.ifMatch
  uriHost : sent.isOption .uriHost = true → received.uriHost = sent.uriHost
  etag : sent.isOption .etag = true → received.etag = sent.etag
  ifNoneMatch : sent.isOption .ifNoneMatch = true → received.ifNoneMatch = true
  observe : sent.isOption .observe = true → received.observe = sent.observe
  uriPort : sent.isOption .uriPort = true → received.uriPort = sent.uriPort
  locationPath : sent.isOption .locationPath = true → received.locationPath = sent.locationPath
  uriPath : sent.isOption .uriPath = true → received.uriPath = sent.uriPath
  contentFormat : sent.isOption .contentFormat = true → received.contentFormat = sent.contentFormat
  maxAge : sent.isOption .maxAge = true → received.maxAge = sent.maxAge
  uriQuery : sent.isOption .uriQuery = true → received.uriQuery = sent.uriQuery
  accept : sent.isOption .accept = true → received.accept = sent.accept
  locationQuery : sent.isOption .locationQuery = true → received.locationQuery = sent.locationQuery
  block2 : sent.isOption .block2 = true → received.block2.num = sent.block2.num ∧
    received.block2.more = sent.block2.more ∧ received.block2.size = sent.block2.size
  block1 : sent.isOption .block1 = true → received.block1.num = sent.block1.num ∧
    received.block1.more = sent.block1.more ∧ received.block1.size = sent.block1.size
  size2 : sent.isOption .size2 = true → received.size2 = sent.size2
  size1 : sent.isOption .size1 = true → received.size1 = sent.size1

/-- Copying all options into a packet without any gives the same options. -/
theorem sameOptions_copied (expressible : Expressible sent) (fresh : packet.options = ∅) :
    SameOptions sent (CoapOption.all.foldl (copyOption sent) packet) where
  options := by
    ext number
    rw [mem_foldl_copyOption_options, fresh]
    simp only [Finset.notMem_empty, false_or]
    constructor
    · rintro ⟨option, -, present, rfl⟩
      simpa [CoapPacket.isOption] using present
    · intro member
      obtain ⟨option, same, -⟩ := expressible.options number member
      refine ⟨option, by cases option <;> decide, ?_, same⟩
      simpa [CoapPacket.isOption, same] using member
  ifMatch := fun present => if_pos present
  uriHost := fun present => if_pos present
  etag := fun present => if_pos present
  ifNoneMatch := fun present => by
    have copied : (CoapOption.all.foldl (copyOption sent) packet).ifNoneMatch =
        (sent.isOption .ifNoneMatch || packet.ifNoneMatch) := rfl
    rw [copied, present, Bool.true_or]
  observe := fun present => if_pos present
  uriPort := fun present => if_pos present
  locationPath := fun present => if_pos present
  uriPath := fun present => if_pos present
  contentFormat := fun present => if_pos present
  maxAge := fun present => if_pos present
  uriQuery := fun present => if_pos present
  accept := fun present => if_pos present
  locationQuery := fun present => if_pos present
  block2 := fun present => by
    obtain ⟨size, number⟩ := expressible.block2 present
    have copied : (CoapOption.all.foldl (copyOption sent) packet).block2 =
        parseBlock (blockOptionValue sent.block2) := if_pos present
    rw [copied, parseBlock_blockOptionValue size number]
    exact ⟨rfl, rfl, rfl⟩
  block1 := fun present => by
    obtain ⟨size, number⟩ := expressible.block1 present
    have copied : (CoapOption.all.foldl (copyOption sent) packet).block1 =
        parseBlock (blockOptionValue sent.block1) := if_pos present
    rw [copied, parseBlock_blockOptionValue size number]
    exact ⟨rfl, rfl, rfl⟩
  size2 := fun present => if_pos present
  size1 := fun present => if_pos present

/-! ## The written sequence -/

/-- The parts of an encoded sequence are no longer than the whole. -/
theorem encodeOptions_bounds (current : Nat) (entries : List (CoapOption × List UInt8)) :
    entries.length ≤ (encodeOptions current entries).length ∧
      ∀ entry ∈ entries, entry.2.length ≤ (encodeOptions current entries).length := by
  induction entries generalizing current with
  | nil => simp [encodeOptions]
  | cons entry rest ih =>
    obtain ⟨option, value⟩ := entry
    obtain ⟨count, parts⟩ := ih option.number
    simp only [encodeOptions, coapSetOptionHeader, cons_append, length_cons,
      length_append, mem_cons, forall_eq_or_imp]
    refine ⟨by omega, by omega, fun other member => ?_⟩
    have bound := parts other member
    omega

theorem mem_writtenEntries {packet : Packet} {entry : CoapOption × List UInt8}
    (member : entry ∈ writtenEntries packet option) : packet.isOption option = true ∧
    entry.1 = option := by
  unfold writtenEntries at member
  split at member
  · rename_i present
    refine ⟨present, ?_⟩
    split at member
    · rw [mem_singleton.mp member]
    · split at member
      · rw [mem_singleton.mp member]
      · obtain ⟨part, -, rfl⟩ := mem_map.mp member
        rfl
  · cases member

/-- Options are written in the order of their numbers. -/
theorem writtenOptions_ordered (packet : Packet) :
    (writtenOptions packet).Pairwise fun front back => front.1.number ≤ back.1.number := by
  rw [writtenOptions, pairwise_flatMap]
  constructor
  · intro option _
    refine List.Pairwise.imp_of_mem (fun {front back} frontMember backMember _ => ?_)
      (pairwise_of_forall fun _ _ => True.intro)
    rw [(mem_writtenEntries frontMember).2, (mem_writtenEntries backMember).2]
  · have numbers : CoapOption.all.Pairwise fun one other => one.number ≤ other.number := by decide
    refine numbers.imp fun {one other} ordered front frontMember back backMember => ?_
    rw [(mem_writtenEntries frontMember).2, (mem_writtenEntries backMember).2]
    exact ordered

/-- No value is longer than all options together. -/
theorem writtenOptions_short {packet : Packet} (small : (serializeOptions packet).length < 65536) :
    ∀ entry ∈ writtenOptions packet, entry.2.length < 65536 := by
  intro entry member
  rw [serializeOptions_written] at small
  exact Nat.lt_of_le_of_lt ((encodeOptions_bounds 0 _).2 entry member) small

/-- The parser takes an ascending sequence as a whole, and goes on behind it. -/
theorem parseOptions_entries {entries : List (CoapOption × List UInt8)} {data tail : List UInt8}
    {current : Nat}
    (here : data.drop current = encodeOptions 0 entries ++ tail) (inside : current ≤ data.length)
    (ascending : Ascending 0 entries) (start : Packet) :
    ∃ fuel, parseOptions byValue data current start = parseOptionsLoop byValue
      (fuel + 1) data (current + (encodeOptions 0 entries).length) (lastNumber 0 entries)
    (entries.foldl acceptEntry start) := by
  have lengths := congrArg List.length here
  simp only [length_drop, length_append] at lengths
  have count := (encodeOptions_bounds 0 entries).1
  obtain ⟨fuel, enough⟩ : ∃ fuel, data.length + 1 = entries.length + (fuel + 1) :=
    ⟨data.length - entries.length, by omega⟩
  refine ⟨fuel, ?_⟩
  rw [parseOptions, enough, parseOptionsLoop_entries here inside ascending]

/-- A packet that has taken no string yet. -/
def Blank (packet : Packet) : Prop :=
  packet.options = ∅ ∧ packet.locationPath = [] ∧ packet.uriPath = [] ∧ packet.uriQuery = [] ∧
    packet.locationQuery = []

theorem Blank.unset {packet : Packet} (blank : Blank packet) (option : CoapOption) :
    Unset packet option := by
  obtain ⟨-, locationPath, uriPath, uriQuery, locationQuery⟩ := blank
  cases option <;> first | exact trivial | assumption

section Serialized

variable {sent start : Packet} {data : List UInt8} {current : Nat}

/-- The option loop takes the written options and goes on behind them. -/
theorem parseOptions_serialized (expressible : Expressible sent)
    (blank : Blank start) {tail : List UInt8}
    (here : data.drop current = serializeOptions sent ++ tail) (inside : current ≤ data.length)
    (small : (serializeOptions sent).length < 65536) :
    ∃ fuel number, parseOptions byValue data current start =
      parseOptionsLoop byValue (fuel + 1) data (current + (serializeOptions sent).length) number
      (CoapOption.all.foldl (copyOption sent) start) := by
  have supported : ∀ entry ∈ writtenOptions sent, entry.1.supported = true := by
    intro entry member
    obtain ⟨option, -, entryMember⟩ := mem_flatMap.mp member
    obtain ⟨present, same⟩ := mem_writtenEntries entryMember
    rw [same]
    exact expressible.supported option present
  have ascending : Ascending 0 (writtenOptions sent) :=
    ⟨fun _ _ => Nat.zero_le _, writtenOptions_ordered sent, supported, writtenOptions_short small⟩
  have copied : (writtenOptions sent).foldl acceptEntry start = CoapOption.all.foldl
      (copyOption sent) start := by
    rw [writtenOptions, funext (writtenEntries_clean expressible.clean)]
    exact foldl_acceptEntry_all expressible.clean expressible.supported
      (by decide : CoapOption.all.Nodup)
      (fun option _ => blank.unset option)
  rw [serializeOptions_written] at here ⊢
  obtain ⟨fuel, taken⟩ := parseOptions_entries here inside ascending start
  exact ⟨fuel, _, copied ▸ taken⟩

end Serialized

end Idrm.Coap
