import Idrm.Rest.Discovery

/-!
# The terminator of a full listing

`snprintf` puts a terminator behind what it writes, and a full window has none to spare: where the
buffer has just the preferred size, a listing that goes on behind the window is written past its
end. This is so for blocks of `REST_MAX_CHUNK_SIZE`, which are also the ones a request without a
block option is answered with.
-/

namespace Idrm.Rest

open Idrm.Lib Idrm.Coap Option List

theorem storeAll_overflow {α : Type} {block values : List α} {index : Nat} (filled : values ≠ [])
    (past : block.length < index + values.length) : storeAll block index values = none := by
  induction values generalizing block index with
  | nil => exact absurd rfl filled
  | cons value rest ih =>
    rw [storeAll_cons, store]
    split
    · rename_i inside
      rw [bind_some]
      rw [length_cons] at past
      have later : rest ≠ [] := by
        rintro rfl
        rw [length_nil] at past
        omega
      exact ih later (by rw [length_set]; omega)
    · rfl

section Tight

variable {offset : Int32} {start size : Nat} {text : List UInt8} {listing : Listing}

/-- A string that fills the buffer has no room for its terminator. -/
theorem Shows.addString_overflow (shows : Shows start size size text listing)
    (here : offset.toInt = start) (positive : 0 < size)
    {string : CString} (behind : start + size ≤ (text ++ string.bytes).length) (full : Nat → Bool) :
    addString offset size full string listing = none := by
  obtain ⟨strpos, bufpos, content, length⟩ := shows
  have total : listing.strpos + string.bytes.length = (text ++ string.bytes).length := by
    rw [strpos, length_append]
  have skipped : (offset.toInt - listing.strpos).toNat = start - text.length := by
    rw [here, strpos]
    omega
  have past : listing.buffer.length < listing.bufpos + (snprintfBytes (size + 1 - listing.bufpos)
      (string.bytes.drop (start - text.length))).length := by
    rw [length_append] at behind
    rw [snprintfBytes, if_neg (by omega), length_append, length_take, length_drop, length_singleton]
    omega
  have filled :
      snprintfBytes (size + 1 - listing.bufpos) (string.bytes.drop (start - text.length)) ≠ [] := by
    rw [snprintfBytes, if_neg (by omega)]
    exact append_ne_nil_of_right_ne_nil _ (cons_ne_nil _ _)
  simp only [addString, asSize_eq here, total, skipped]
  rw [if_pos (by omega), if_neg (by omega), storeAll_overflow filled past, map_none]

/-- A url ends in front of the end of the buffer, or it is written past it. -/
theorem Shows.addUrl_tight (shows : Shows start size size text listing)
    (here : offset.toInt = start) (positive : 0 < size)
    (url : CString) : addString offset size (fun bufpos => bufpos ≥ size) url listing = none ∨
    ∃ after, addString offset size (fun bufpos => bufpos ≥ size) url listing = some (after, false) ∧
    Shows start size size (text ++ url.bytes) after ∧
    (text ++ url.bytes).length < start + size := by
  rcases Nat.lt_or_ge (text ++ url.bytes).length (start + size) with inside | behind
  · obtain ⟨after, broke, added, spec⟩ := shows.addUrl here positive url (by omega)
    cases broke with
    | true =>
      have stopped : Stopped _ _ _ _ _ := spec
      exact absurd stopped.behind (Nat.not_le.mpr inside)
    | false => exact .inr ⟨after, added, spec⟩
  · exact .inl (shows.addString_overflow here positive behind _)

/-- Attributes end in front of the end of the buffer, or they are written past it. -/
theorem Shows.addAttributes_tight (shows : Shows start size size text listing)
    (here : offset.toInt = start) (positive : 0 < size)
    (inside : text.length ≤ start + size) (attributes : Option CString) :
    Rest.addAttributes offset size attributes listing = none ∨
    ∃ after, Rest.addAttributes offset size attributes listing = some (after, false) ∧
    Shows start size size (text ++ attributesText attributes) after ∧
    (text ++ attributesText attributes).length ≤ start + size := by
  cases attributes with
  | none => exact .inr ⟨listing, rfl, by rw [attributesText, append_nil]; exact ⟨shows, inside⟩⟩
  | some attributes =>
    rcases Nat.lt_or_ge (text ++ attributesText (some attributes)).length
      (start + size) with fits | behind
    · obtain ⟨after, broke, added, spec⟩ :=
        shows.addAttributes here inside (some attributes) (by omega)
      cases broke with
      | true => exact absurd spec.2 (Nat.not_lt.mpr fits.le)
      | false => exact .inr ⟨after, added, spec⟩
    · rw [Rest.addAttributes, attributesText] at *
      by_cases empty : attributes.bytes = []
      · rw [if_pos empty, if_pos empty, append_nil]
        exact .inr ⟨listing, rfl, shows, inside⟩
      · rw [if_neg empty, append_cons] at behind
        rw [if_neg empty]
        obtain ⟨next, added, nextShows⟩ := shows.addChar here 59 (Nat.min_le_left _ _)
        rw [added, bind_some]
        exact .inl (nextShows.addString_overflow here positive behind _)

/-- A resource ends in the buffer, or it is written past its end. -/
theorem Shows.listService_tight (shows : Shows start size size text listing)
    (here : offset.toInt = start) (positive : 0 < size)
    (service : Service) : Rest.listService offset size service listing = none ∨
    ∃ after, Rest.listService offset size service listing = some (after, false) ∧ Shows start size
      size (addedTo text service) after ∧ (addedTo text service).length ≤ start + size := by
  obtain ⟨first, comma, firstShows⟩ := shows.addComma here (Nat.min_le_left _ _)
  obtain ⟨second, bracket, secondShows⟩ := firstShows.addChar here 60 (Nat.min_le_left _ _)
  obtain ⟨third, slash, thirdShows⟩ := secondShows.addChar here 47 (Nat.min_le_left _ _)
  rw [Rest.listService, addedTo_eq]
  simp only [comma, bracket, slash, bind, Option.bind, pure]
  rcases thirdShows.addUrl_tight here positive service.url with overflows | ⟨fourth, url,
    urlShows, inside⟩
  · exact .inl (by rw [overflows])
  · obtain ⟨fifth, close, fifthShows⟩ := urlShows.addChar here 62 (Nat.min_le_left _ _)
    have fits : (text ++ (if text = [] then [] else [44]) ++ [60] ++ [47] ++ service.url.bytes ++
        [62]).length ≤ start + size := by
      rw [length_append, length_singleton]
      exact inside
    simp only [url, close, Bool.false_eq_true, if_false]
    rcases fifthShows.addAttributes_tight here positive fits
      service.attributes with overflows | ⟨sixth, attributes, sixthShows, ends⟩
    · exact .inl (by rw [overflows])
    · have goesOn : (decide (sixth.bufpos > size) &&
          decide (sixth.strpos - sixth.bufpos > asSize offset)) = false := by
        rw [Bool.and_eq_false_iff]
        left
        rw [sixthShows.bufpos, decide_eq_false_iff_not]
        omega
      refine .inr ⟨sixth, ?_, sixthShows, ends⟩
      simp only [attributes, goesOn, Bool.false_eq_true, if_false]

/-- The whole listing ends in the buffer, or it is written past its end. -/
theorem Shows.listServices_tight (shows : Shows start size size text listing)
    (here : offset.toInt = start) (positive : 0 < size)
    (inside : text.length ≤ start + size) (path : List UInt8) (services : List Service) :
    Rest.listServices path offset size services listing = none ∨
    ((services.filter (·.covers path)).foldl addedTo text).length ≤ start + size := by
  induction services generalizing text listing with
  | nil => exact .inr inside
  | cons service rest ih =>
    rw [Rest.listServices]
    by_cases covers : service.covers path = true
    · rw [if_pos covers, filter_cons_of_pos covers, foldl_cons]
      rcases shows.listService_tight here positive
        service with overflows | ⟨next, listed, nextShows, ends⟩
      · exact .inl (by rw [overflows, bind_none])
      · rw [listed, bind_some]
        exact ih nextShows ends
    · rw [if_neg covers, filter_cons_of_neg covers]
      exact ih shows inside

end Tight

/-- Whatever else is activated, a `GET` of the listing that is answered with a block of
`REST_MAX_CHUNK_SIZE` writes past the buffer of the datagram if the listing goes on behind the
block. -/
theorem wellKnownCore_overflows {E : Type} (address : Nat) {engine : Engine E}
    (down : engine.initialized = false) {activations : List (Resource E × CString)}
    (others : ∀ activation ∈ activations, activation.1.address ≠ address)
    {services : List Service} {listing buffer : List UInt8} {request : Packet}
    (registered : services = (activateAll activations
      (restInitEngine address engine)).restfulServices.map Resource.toService)
    (isListing : listing = [44].intercalate ((services.filter (·.covers wellKnownCoreUrl.bytes)).map
      serviceText)) (room : buffer.length = restMaxChunkSize) (get : request.code = coapGet)
    (path : coapGetHeaderUriPath request = wellKnownCoreUrl.bytes)
    (chunk : (requestedBlock2 request).size.toNat = restMaxChunkSize)
    (starts : (requestedBlock2 request).offset.toNat < 2 ^ 31)
    (more : (requestedBlock2 request).offset.toNat + restMaxChunkSize < listing.length) :
    serveRequest buffer request
      (activateAll activations (restInitEngine address engine)) = none := by
  have lists := (listsFirst_init address down).activateAll others
  obtain ⟨resource, found, getHandler⟩ := lists.gets
  obtain ⟨type, mid, currentMid, prepared, -⟩ :=
    prepare_spec request (activateAll activations (restInitEngine address engine))
  subst registered
  rw [← listingText_eq] at isListing
  subst isListing
  have here : (requestedBlock2 request).offset.toInt32.toInt =
    (requestedBlock2 request).offset.toNat := toInt32_toInt starts
  have positive : 0 < restMaxChunkSize := by decide
  have overflows :
      listServices wellKnownCoreUrl.bytes (requestedBlock2 request).offset.toInt32 restMaxChunkSize
      ((activateAll activations (restInitEngine address engine)).restfulServices.map
      Resource.toService) ⟨0, 0, buffer⟩ = none := by
    have start := shows_empty (requestedBlock2 request).offset.toNat restMaxChunkSize buffer
    rw [room] at start
    rcases start.listServices_tight here positive (Nat.zero_le _) wellKnownCoreUrl.bytes
      ((activateAll activations (restInitEngine address engine)).restfulServices.map
      Resource.toService) with overflows | fits
    · exact overflows
    · exact absurd more (Nat.not_lt.mpr fits)
  have called : (wellKnownCoreGetHandler : RestfulHandler E)
      ((activateAll activations (restInitEngine address engine)).restfulServices.map
      Resource.toService) request (started type mid request.token) buffer
      (requestedBlock2 request).size (requestedBlock2 request).offset.toInt32
      (activateAll activations (restInitEngine address engine)).app = none := by
    rw [wellKnownCoreGetHandler, path, chunk, overflows, map_none]
  rw [serveRequest, prepared]
  simp only [Engine.serviceCbk, lists.initialized, if_true, restInvokeRestfulService, path, found,
    handlerFor_get get getHandler, called, map_none, bind_none]

/-- Attributes longer than a chunk. -/
def longAttributes : CString :=
  ⟨List.replicate 1100 97, fun member => absurd (eq_of_mem_replicate member) (by decide)⟩

/-- A resource above the listing with long attributes. -/
theorem wellKnownCore_overflows_long : serveRequest (List.replicate 1024 0)
      (coapSetHeaderUriPath wellKnownCoreUrl (coapInitMessage .con coapGet 7))
      (activateAll [((⟨⟨.empty, true, some longAttributes⟩, 1, none, none, none, none⟩ :
      Resource Unit), .ofBytes [46, 119, 101, 108, 108, 45, 107, 110, 111, 119, 110])]
        (restInitEngine 0 ⟨false, [], 0, [], ()⟩)) = none := by
  refine wellKnownCore_overflows 0 rfl ?_ rfl rfl length_replicate rfl rfl rfl ?_ ?_
  · decide
  · decide
  · decide +kernel

end Idrm.Rest
