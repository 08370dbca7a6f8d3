import Idrm.Lib.Window
import Idrm.Rest.Engine

/-!
# The listing of the resources

`well_known_core_get_handler` writes a listing of the resources in the link format, of which it
keeps the part that its buffer is for. It lists the resources that cover the path of the request,
and stops at the first one that does not fit. Filters are not compiled in.
-/

namespace Idrm.Rest

open Idrm.Lib Idrm.Coap List

/-- `APPLICATION_LINK_FORMAT` -/
def applicationLinkFormat : UInt32 := 40

/-- The position in the whole listing, the position in the buffer, and the memory at the buffer. -/
structure Listing where
  strpos : Nat
  bufpos : Nat
  buffer : List UInt8

/-- `ADD_CHAR_IF_POSSIBLE` -/
def addChar (offset : Int32) (size : Nat) (char : UInt8) (listing : Listing) : Option Listing :=
  if listing.strpos ≥ asSize offset ∧ listing.bufpos < size then
    (store listing.buffer listing.bufpos char).map fun buffer =>
      ⟨listing.strpos + 1, listing.bufpos + 1, buffer⟩
  else some { listing with strpos := listing.strpos + 1 }

/-- What `snprintf` writes with a bound. -/
def snprintfBytes (bound : Nat) (text : List UInt8) : List UInt8 :=
  if bound = 0 then [] else text.take (bound - 1) ++ [0]

/-- `ADD_STRING_IF_POSSIBLE`, with the comparison it breaks at, and whether it did. A bound that
wraps around is `none`. -/
def addString (offset : Int32) (size : Nat) (full : Nat → Bool) (string : CString)
    (listing : Listing) : Option (Listing × Bool) :=
  let strpos := listing.strpos + string.bytes.length
  if strpos > asSize offset then
    if listing.bufpos > size + 1 then none
    else
      let rest := string.bytes.drop (offset.toInt - listing.strpos).toNat
      let bufpos := listing.bufpos + rest.length
      (storeAll listing.buffer listing.bufpos (snprintfBytes (size + 1 - listing.bufpos) rest)).map
        fun buffer =>
        if full bufpos then ({ listing with bufpos := bufpos, buffer := buffer }, true)
          else (⟨strpos, bufpos, buffer⟩, false)
  else some ({ listing with strpos := strpos }, false)

/-- The comma behind an earlier resource. -/
def addComma (offset : Int32) (size : Nat) (listing : Listing) : Option Listing :=
  if listing.strpos > 0 then addChar offset size 44 listing else some listing

/-- The attributes of a resource, if it has any. -/
def addAttributes (offset : Int32) (size : Nat) (attributes : Option CString) (listing : Listing) :
    Option (Listing × Bool) :=
  match attributes with
  | none => some (listing, false)
  | some attributes =>
    if attributes.bytes = [] then some (listing, false)
    else (addChar offset size 59 listing).bind
      (addString offset size (fun bufpos => bufpos > size) attributes)

/-- The body of the loop for a resource that is listed, and whether it leaves the loop. -/
def listService (offset : Int32) (size : Nat) (service : Service) (listing : Listing) :
    Option (Listing × Bool) := do
  let listing ← addComma offset size listing
  let listing ← addChar offset size 60 listing
  let listing ← addChar offset size 47 listing
  let (listing, broke) ← addString offset size (fun bufpos => bufpos ≥ size) service.url listing
  if broke then return (listing, true)
  let listing ← addChar offset size 62 listing
  let (listing, broke) ← addAttributes offset size service.attributes listing
  if broke then return (listing, true)
  return (listing, listing.bufpos > size && listing.strpos - listing.bufpos > asSize offset)

/-- The loop over the resources. -/
def listServices (path : List UInt8) (offset : Int32) (size : Nat) : List Service → Listing →
    Option (Listing × Bool)
  | [], listing => some (listing, false)
  | service :: rest, listing =>
    if service.covers path then
      (listService offset size service listing).bind fun (listing, broke) =>
        if broke then some (listing, true) else listServices path offset size rest listing
    else listServices path offset size rest listing

/-- `well_known_core_get_handler` -/
def wellKnownCoreGetHandler {E : Type} : RestfulHandler E :=
  fun services request response buffer size offset app =>
  (listServices (coapGetHeaderUriPath request) offset size.toNat services ⟨0, 0, buffer⟩).map
    fun (listing, broke) =>
    let response :=
      if listing.bufpos > 0 then
        coapSetHeaderContentFormat applicationLinkFormat
          (coapSetPayload (listing.buffer.take listing.bufpos) response)
      else if listing.strpos > 0 then
        coapSetPayload blockOutOfScope (coapSetStatusCode badOption402 response)
      else response
    (response, if broke then offset + size.toUInt32.toInt32 else -1, app)

/-! ## The whole listing -/

/-- The attributes of a resource in the link format. -/
def attributesText (attributes : Option CString) : List UInt8 :=
  match attributes with
  | none => []
  | some attributes => if attributes.bytes = [] then [] else 59 :: attributes.bytes

/-- A resource in the link format. -/
def serviceText (service : Service) : List UInt8 :=
  60 :: 47 :: service.url.bytes ++ 62 :: attributesText service.attributes

/-- A listing with one more resource. -/
def addedTo (text : List UInt8) (service : Service) : List UInt8 :=
  text ++ (if text = [] then [] else [44]) ++ serviceText service

/-- The listing of the resources that cover a path. -/
def listingText (path : List UInt8) (services : List Service) : List UInt8 :=
  (services.filter (·.covers path)).foldl addedTo []

theorem addedTo_eq (text : List UInt8) (service : Service) :
    addedTo text service = text ++ (if text = [] then [] else [44]) ++ [60] ++ [47] ++
      service.url.bytes ++ [62] ++ attributesText service.attributes := by
  simp [addedTo, serviceText]

/-- A listing grows at its end. -/
theorem foldl_addedTo (services : List Service) (text : List UInt8) :
    ∃ tail, services.foldl addedTo text = text ++ tail := by
  induction services generalizing text with
  | nil => exact ⟨[], (append_nil text).symm⟩
  | cons service rest ih =>
    obtain ⟨tail, whole⟩ := ih (addedTo text service)
    exact ⟨_, whole.trans (by rw [addedTo, append_assoc, append_assoc])⟩

section Written

variable {offset : Int32} {start size memory : Nat} {text : List UInt8} {listing : Listing}

/-- The buffer has the window of the listing up to now. -/
structure Shows (start size memory : Nat) (text : List UInt8) (listing : Listing) : Prop where
  strpos : listing.strpos = text.length
  bufpos : listing.bufpos = min size (text.length - start)
  content : listing.buffer.take listing.bufpos = window start size text
  memory : listing.buffer.length = memory

theorem shows_empty (start size : Nat) (buffer : List UInt8) :
    Shows start size buffer.length [] ⟨0, 0, buffer⟩ :=
  ⟨rfl, by simp, by simp, rfl⟩

theorem asSize_eq (here : offset.toInt = start) : asSize offset = start := by
  have small := offset.toInt_lt
  rw [asSize, here]
  omega

/-- A character shows up if there is room for it. -/
theorem Shows.addChar (shows : Shows start size memory text listing) (here : offset.toInt = start)
    (char : UInt8) (room : min size ((text ++ [char]).length - start) ≤ memory) :
    ∃ after, addChar offset size char listing = some after ∧
    Shows start size memory (text ++ [char]) after := by
  obtain ⟨strpos, bufpos, content, length⟩ := shows
  rw [length_append, length_singleton] at room
  rw [Rest.addChar, asSize_eq here]
  by_cases fits : listing.strpos ≥ start ∧ listing.bufpos < size
  · rw [if_pos fits, store, if_pos (by omega)]
    refine ⟨_, rfl, ?_, ?_, ?_, ?_⟩
    · rw [length_append, strpos, length_singleton]
    · show listing.bufpos + 1 = _
      rw [length_append, length_singleton]
      omega
    · have isLast : start - text.length = 0 := by omega
      have room : size - (text.length - start) = (size - (text.length - start) - 1) + 1 := by omega
      have inside : listing.bufpos < listing.buffer.length := by omega
      rw [window_append, isLast, room, ← content]
      show (listing.buffer.set listing.bufpos char).take (listing.bufpos + 1) = _
      rw [set_eq_take_append_cons_drop, if_pos inside, take_append, length_take,
        Nat.min_eq_left (Nat.le_of_lt inside)]
      simp [window]
    · rw [length_set, length]
  · rw [if_neg fits]
    refine ⟨_, rfl, ?_, ?_, ?_, length⟩
    · rw [length_append, strpos, length_singleton]
    · show listing.bufpos = _
      rw [length_append, length_singleton]
      omega
    · have nothing : window (start - text.length) (size - (text.length - start)) [char] = [] := by
        rw [window]
        rcases Nat.lt_or_ge text.length start with before | behind
        · rw [drop_of_length_le (by rw [length_singleton]; omega), take_nil]
        · have full : size - (text.length - start) = 0 := by omega
          rw [full, take_zero]
      rw [window_append, nothing, append_nil, ← content]

/-- Where a string ends in the buffer, whether or not it fits. -/
def stringEnd (start size : Nat) (text : List UInt8) (string : CString) : Nat :=
  min size (text.length - start) + (string.bytes.length - (start - text.length))

/-- A string in front of the window is passed over. -/
theorem Shows.addString_passed (shows : Shows start size memory text listing)
    (here : offset.toInt = start) {string : CString}
    (passed : (text ++ string.bytes).length ≤ start) (full : Nat → Bool) :
    ∃ after, addString offset size full string listing = some (after, false) ∧
    Shows start size memory (text ++ string.bytes) after := by
  rw [length_append] at passed
  have total : listing.strpos + string.bytes.length = (text ++ string.bytes).length := by
    rw [shows.strpos, length_append]
  simp only [addString, asSize_eq here]
  rw [if_neg (by rw [shows.strpos]; omega)]
  refine ⟨_, rfl, total, ?_, ?_, shows.memory⟩
  · show listing.bufpos = _
    rw [shows.bufpos, length_append]
    omega
  · have nothing :
        window (start - text.length) (size - (text.length - start)) string.bytes = [] := by
      rw [window, drop_of_length_le (by omega), take_nil]
    rw [window_append, nothing, append_nil, ← shows.content]

/-- A string that reaches the window shows up as far as there is room for it. -/
theorem Shows.addString_reaching (shows : Shows start size memory text listing)
    (here : offset.toInt = start)
    {string : CString} (room : min size ((text ++ string.bytes).length - start) < memory)
    (reaching : start < (text ++ string.bytes).length) (full : Nat → Bool) :
    ∃ buffer, addString offset size full string listing =
      some (if full (stringEnd start size text string) then
            ({ listing with bufpos := stringEnd start size text string, buffer := buffer }, true)
          else (⟨(text ++ string.bytes).length, stringEnd start size text string, buffer⟩, false)) ∧
      buffer.take (window start size (text ++ string.bytes)).length = window start size
        (text ++ string.bytes) ∧
      buffer.length = memory := by
  obtain ⟨strpos, bufpos, content, length⟩ := shows
  have total : listing.strpos + string.bytes.length = (text ++ string.bytes).length := by
    rw [strpos, length_append]
  have skipped : (offset.toInt - listing.strpos).toNat = start - text.length := by
    rw [here, strpos]
    omega
  have bound : size + 1 - listing.bufpos - 1 = size - (text.length - start) := by omega
  have ends : listing.bufpos + (string.bytes.drop (start - text.length)).length =
      stringEnd start size text string := by
    rw [length_drop, stringEnd, bufpos]
  have written :
      snprintfBytes (size + 1 - listing.bufpos) (string.bytes.drop (start - text.length)) =
      window (start - text.length) (size - (text.length - start)) string.bytes ++ [0] := by
    rw [snprintfBytes, if_neg (by omega), bound, window]
  have inBuffer : listing.bufpos + (window (start - text.length)
      (size - (text.length - start)) string.bytes ++ [0]).length ≤ listing.buffer.length := by
    rw [length_append] at room reaching
    rw [length_append, window_length, length_singleton]
    omega
  simp only [addString, asSize_eq here, total, skipped, ends, written]
  rw [if_pos reaching, if_neg (by omega), storeAll_inside _ _ _ inBuffer, Option.map_some]
  refine ⟨_, rfl, ?_, ?_⟩
  · have shape (shown added rest : List UInt8) :
      shown ++ (added ++ [0]) ++ rest = (shown ++ added) ++ ([0] ++ rest) := by simp
    rw [window_append, content, shape, take_left]
  · simp only [length_append, length_take, length_drop] at inBuffer ⊢
    omega

/-- The buffer is full, with more of the listing behind the window. -/
structure Stopped (start size memory : Nat) (text : List UInt8) (listing : Listing) : Prop where
  behind : start + size ≤ text.length
  bufpos : size ≤ listing.bufpos
  content : listing.buffer.take size = window start size text
  memory : listing.buffer.length = memory

/-- The loop is left at a url that does not end inside of the window. -/
theorem Shows.addUrl (shows : Shows start size memory text listing)
    (here : offset.toInt = start) (positive : 0 < size)
    (url : CString) (room : min size ((text ++ url.bytes).length - start) < memory) : ∃ after broke,
    addString offset size (fun bufpos => bufpos ≥ size) url listing = some (after, broke) ∧
    if broke then Stopped start size memory (text ++ url.bytes) after else Shows start size memory
      (text ++ url.bytes) after ∧ (text ++ url.bytes).length < start + size := by
  rcases Nat.lt_or_ge start (text ++ url.bytes).length with reaching | passed
  · obtain ⟨buffer, added, content, length⟩ :=
      shows.addString_reaching here room reaching (fun bufpos => bufpos ≥ size)
    rw [length_append] at reaching
    rw [added]
    by_cases full : stringEnd start size text url ≥ size
    · refine ⟨_, true, by rw [if_pos (decide_eq_true full)], ?_⟩
      have behind : start + size ≤ (text ++ url.bytes).length := by
        rw [length_append]
        rw [stringEnd] at full
        omega
      have whole : (window start size (text ++ url.bytes)).length = size := by
        rw [window_length]
        omega
      rw [whole] at content
      exact ⟨behind, full, content, length⟩
    · refine ⟨_, false, by rw [if_neg (by simpa using full)], ?_⟩
      rw [stringEnd] at full
      have inside : (text ++ url.bytes).length < start + size := by
        rw [length_append]
        omega
      have bufpos :
          stringEnd start size text url = min size ((text ++ url.bytes).length - start) := by
        rw [length_append, stringEnd]
        omega
      refine ⟨⟨rfl, bufpos, ?_, length⟩, inside⟩
      rw [window_length, ← bufpos] at content
      exact content
  · obtain ⟨after, added, next⟩ := shows.addString_passed here passed (fun bufpos => bufpos ≥ size)
    exact ⟨after, false, added, next, by omega⟩

/-- The loop is left at attributes that end behind the window. -/
theorem Shows.addAttributes (shows : Shows start size memory text listing)
    (here : offset.toInt = start)
    (inside : text.length ≤ start + size) (attributes : Option CString)
    (room : min size ((text ++ attributesText attributes).length - start) < memory) :
    ∃ after broke, addAttributes offset size attributes listing = some (after, broke) ∧
    if broke then
        Stopped start size memory (text ++ attributesText attributes) after ∧
          start + size < (text ++ attributesText attributes).length
      else
        Shows start size memory (text ++ attributesText attributes) after ∧
          (text ++ attributesText attributes).length ≤ start + size := by
  cases attributes with
  | none => exact ⟨listing, false, rfl, by rw [attributesText, append_nil]; exact ⟨shows, inside⟩⟩
  | some attributes =>
    rw [attributesText] at room
    rw [Rest.addAttributes, attributesText]
    by_cases empty : attributes.bytes = []
    · rw [if_pos empty, if_pos empty, append_nil]
      exact ⟨listing, false, rfl, shows, inside⟩
    · rw [if_neg empty, append_cons] at room
      rw [if_neg empty, if_neg empty, append_cons]
      have roomBefore : min size ((text ++ [59]).length - start) ≤ memory := by
        rw [length_append] at room
        omega
      obtain ⟨next, added, nextShows⟩ := shows.addChar here 59 roomBefore
      have filled := length_pos_iff.mpr empty
      have longer : (text ++ [59]).length = text.length + 1 := by
        rw [length_append, length_singleton]
      rw [added, Option.bind_some]
      rcases Nat.lt_or_ge start (text ++ [59] ++ attributes.bytes).length with reaching | passed
      · obtain ⟨buffer, done, content, length⟩ :=
          nextShows.addString_reaching here room reaching (fun bufpos => bufpos > size)
        rw [done]
        rw [length_append] at reaching
        by_cases full : stringEnd start size (text ++ [59]) attributes > size
        · refine ⟨_, true, by rw [if_pos (decide_eq_true full)], ?_⟩
          have behind : start + size < (text ++ [59] ++ attributes.bytes).length := by
            rw [length_append]
            rw [stringEnd] at full
            omega
          have whole : (window start size (text ++ [59] ++ attributes.bytes)).length = size := by
            rw [window_length]
            omega
          rw [whole] at content
          exact ⟨⟨behind.le, full.le, content, length⟩, behind⟩
        · refine ⟨_, false, by rw [if_neg (by simpa using full)], ?_⟩
          rw [stringEnd] at full
          have ends : (text ++ [59] ++ attributes.bytes).length ≤ start + size := by
            rw [length_append]
            omega
          have bufpos : stringEnd start size (text ++ [59]) attributes =
              min size ((text ++ [59] ++ attributes.bytes).length - start) := by
            rw [length_append, stringEnd]
            omega
          rw [window_length, ← bufpos] at content
          exact ⟨⟨rfl, bufpos, content, length⟩, ends⟩
      · obtain ⟨after, done, next⟩ :=
          nextShows.addString_passed here passed (fun bufpos => bufpos > size)
        exact ⟨after, false, done, next, by omega⟩

/-- A comma separates a resource from the ones in front of it. -/
theorem Shows.addComma (shows : Shows start size memory text listing) (here : offset.toInt = start)
    (room : min size ((text ++ if text = [] then [] else [44]).length - start) ≤ memory) :
    ∃ after, addComma offset size listing = some after ∧
      Shows start size memory (text ++ if text = [] then [] else [44]) after := by
  rw [Rest.addComma]
  by_cases first : text = []
  · have atStart : ¬listing.strpos > 0 := by
      rw [shows.strpos, first]
      exact Nat.lt_irrefl 0
    rw [if_neg atStart, if_pos first, append_nil]
    exact ⟨listing, rfl, shows⟩
  · have behind : listing.strpos > 0 := by
      rw [shows.strpos]
      exact length_pos_iff.mpr first
    rw [if_neg first] at room
    rw [if_pos behind, if_neg first]
    exact shows.addChar here 44 room

/-- One resource: the buffer shows its text, or it is full and the text goes on behind it. -/
theorem Shows.listService (shows : Shows start size memory text listing)
    (here : offset.toInt = start) (positive : 0 < size)
    {service : Service} (room : min size ((addedTo text service).length - start) < memory) :
    ∃ after broke, listService offset size service listing = some (after, broke) ∧ if broke then
        Stopped start size memory (addedTo text service) after ∧
        start + size < (addedTo text service).length else
        Shows start size memory (addedTo text service) after ∧
        (addedTo text service).length ≤ start + size := by
  have whole := addedTo_eq text service
  have roomFor {front : List UInt8} (inFront : front <+: addedTo text service) :
      min size (front.length - start) < memory := by
    have shorter := inFront.length_le
    omega
  have fifthFront : _ <+: addedTo text service := ⟨_, whole.symm⟩
  have fourthFront := (prefix_append _ _).trans fifthFront
  have thirdFront := (prefix_append _ _).trans fourthFront
  have secondFront := (prefix_append _ _).trans thirdFront
  obtain ⟨first, comma, firstShows⟩ :=
    shows.addComma here (roomFor ((prefix_append _ _).trans secondFront)).le
  obtain ⟨second, bracket, secondShows⟩ := firstShows.addChar here 60 (roomFor secondFront).le
  obtain ⟨third, slash, thirdShows⟩ := secondShows.addChar here 47 (roomFor thirdFront).le
  obtain ⟨fourth, broke, url, urlSpec⟩ :=
    thirdShows.addUrl here positive service.url (roomFor fourthFront)
  rw [Rest.listService]
  simp only [comma, bracket, slash, url, bind, Option.bind, pure]
  cases broke with
  | true =>
    refine ⟨fourth, true, rfl, ?_⟩
    obtain ⟨behind, bufpos, content, length⟩ : Stopped _ _ _ _ _ := urlSpec
    have longer : start + size < (addedTo text service).length := by
      rw [whole, length_append, length_append, length_singleton]
      omega
    refine ⟨⟨longer.le, bufpos, ?_, length⟩, longer⟩
    rw [whole, append_assoc, window_full behind]
    exact content
  | false =>
    obtain ⟨urlShows, inside⟩ : Shows _ _ _ _ _ ∧ _ := urlSpec
    obtain ⟨fifth, close, fifthShows⟩ := urlShows.addChar here 62 (roomFor fifthFront).le
    have fits : (text ++ (if text = [] then [] else [44]) ++ [60] ++ [47] ++ service.url.bytes ++
        [62]).length ≤ start + size := by
      rw [length_append, length_singleton]
      exact inside
    obtain ⟨sixth, attributesBroke, attributes, attributesSpec⟩ :=
      fifthShows.addAttributes here fits service.attributes (by rwa [← whole])
    rw [← whole] at attributesSpec
    simp only [close, attributes, Bool.false_eq_true, if_false]
    cases attributesBroke with
    | true => exact ⟨sixth, true, rfl, attributesSpec⟩
    | false =>
      obtain ⟨sixthShows, ends⟩ : Shows _ _ _ _ _ ∧ _ := attributesSpec
      have goesOn : (decide (sixth.bufpos > size) &&
          decide (sixth.strpos - sixth.bufpos > asSize offset)) = false := by
        rw [Bool.and_eq_false_iff]
        left
        rw [sixthShows.bufpos, decide_eq_false_iff_not]
        omega
      refine ⟨sixth, false, ?_, sixthShows, ends⟩
      simp only [goesOn, Bool.false_eq_true, if_false]

/-- The loop: the buffer shows the whole listing, or it is full and the listing goes on behind
it. -/
theorem Shows.listServices (shows : Shows start size memory text listing)
    (here : offset.toInt = start) (positive : 0 < size)
    (inside : text.length ≤ start + size) {path : List UInt8} {services : List Service} (room :
      min size (((services.filter (·.covers path)).foldl addedTo text).length - start) < memory) :
    ∃ after broke, listServices path offset size services listing = some (after, broke) ∧
    if broke then
        Stopped start size memory ((services.filter (·.covers path)).foldl addedTo text) after ∧
          start + size < ((services.filter (·.covers path)).foldl addedTo text).length
      else
        Shows start size memory ((services.filter (·.covers path)).foldl addedTo text) after ∧
          ((services.filter (·.covers path)).foldl addedTo text).length ≤ start + size := by
  induction services generalizing text listing with
  | nil => exact ⟨listing, false, rfl, shows, inside⟩
  | cons service rest ih =>
    rw [Rest.listServices]
    by_cases covers : service.covers path = true
    · rw [filter_cons_of_pos covers, foldl_cons] at room
      rw [if_pos covers, filter_cons_of_pos covers, foldl_cons]
      have roomHere : min size ((addedTo text service).length - start) < memory := by
        obtain ⟨tail, whole⟩ := foldl_addedTo (rest.filter (·.covers path)) (addedTo text service)
        rw [whole, length_append] at room
        omega
      obtain ⟨next, broke, listed, spec⟩ := shows.listService here positive roomHere
      rw [listed, Option.bind_some]
      cases broke with
      | true =>
        obtain ⟨⟨behind, bufpos, content, length⟩, longer⟩ : Stopped _ _ _ _ _ ∧ _ := spec
        obtain ⟨tail, whole⟩ := foldl_addedTo (rest.filter (·.covers path)) (addedTo text service)
        refine ⟨next, true, rfl, ?_⟩
        have longerStill : start +
            size < ((rest.filter (·.covers path)).foldl addedTo (addedTo text service)).length := by
          rw [whole, length_append]
          omega
        refine ⟨⟨longerStill.le, bufpos, ?_, length⟩, longerStill⟩
        rw [whole, window_full behind]
        exact content
      | false =>
        obtain ⟨nextShows, ends⟩ : Shows _ _ _ _ _ ∧ _ := spec
        exact ih nextShows ends room
    · rw [filter_cons_of_neg covers] at room
      rw [if_neg covers, filter_cons_of_neg covers]
      exact ih shows inside room

end Written

end Idrm.Rest
