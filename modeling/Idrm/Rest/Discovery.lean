import Idrm.Rest.Blocks
import Idrm.Rest.WellKnown

/-!
# Discovery

A client that fetches `.well-known/core` in blocks gets the listing of the resources that cover
this path, whatever was activated after the engine was initialized.
-/

namespace Idrm.Rest

open Idrm.Lib Idrm.Coap List

variable {E : Type}

/-! ## The handler -/

/-- The handler hands out the listing, up to a size that leaves room for a terminator. -/
theorem wellKnownCore_provides (services : List Service) (path : List UInt8) :
    Provides (E := E) wellKnownCoreGetHandler services path (listingText path services) := by
  intro request response buffer size offset start app isPath here positive room inside
  have nothing : ([] : List UInt8).length ≤ start + size.toNat := Nat.zero_le _
  have fits : min size.toNat
      ((((services.filter (·.covers path)).foldl addedTo []).length) - start) < buffer.length :=
    (Nat.min_le_left _ _).trans_lt room
  obtain ⟨after, broke, listed, spec⟩ :=
    (shows_empty start size.toNat buffer).listServices here positive nothing fits
  refine ⟨some applicationLinkFormat, after.buffer.take after.bufpos,
    if broke then offset + size.toUInt32.toInt32 else -1, app, ?_, ?_⟩
  · have written : after.bufpos > 0 := by
      cases broke with
      | true =>
        have stopped : Stopped _ _ _ _ _ ∧ _ := spec
        exact Nat.lt_of_lt_of_le positive stopped.1.bufpos
      | false =>
        have shows : Shows _ _ _ _ _ ∧ _ := spec
        rw [shows.1.bufpos]
        have total : start < (((services.filter (·.covers path)).foldl addedTo []).length) := inside
        omega
    rw [wellKnownCoreGetHandler, isPath, listed, Option.map_some]
    simp only [if_pos written]
    rfl
  · cases broke with
    | true =>
      obtain ⟨⟨behind, bufpos, content, length⟩, longer⟩ : Stopped _ _ _ _ _ ∧ _ := spec
      refine .next ?_ longer
      rw [take_take, Nat.min_eq_left bufpos]
      exact content
    | false =>
      obtain ⟨shows, ends⟩ : Shows _ _ _ _ _ ∧ _ := spec
      rw [shows.content]
      exact .last ends

/-! ## The listing -/

/-- A listing behind another one. -/
theorem foldl_addedTo_filled {text : List UInt8} (filled : text ≠ []) (services : List Service) :
    services.foldl addedTo text = text ++
      (services.map fun service => 44 :: serviceText service).flatten := by
  induction services generalizing text with
  | nil => simp
  | cons service rest ih =>
    have next : addedTo text service = text ++ 44 :: serviceText service := by
      rw [addedTo, if_neg filled, append_assoc, singleton_append]
    have stillFilled : addedTo text service ≠ [] := by simp [next]
    rw [foldl_cons, ih stillFilled, next, map_cons, flatten_cons, append_assoc]

/-- Commas in front of all texts but the first. -/
theorem intercalate_comma (first : List UInt8) (rest : List (List UInt8)) :
    [44].intercalate (first :: rest) = first ++ (rest.map (44 :: ·)).flatten := by
  induction rest generalizing first with
  | nil => simp
  | cons next rest ih =>
    rw [intercalate_cons_cons, ih, map_cons, flatten_cons, append_assoc,
      singleton_append, cons_append]

/-- The texts of the resources that cover the path, separated by commas. -/
theorem listingText_eq (path : List UInt8) (services : List Service) : listingText path services =
      [44].intercalate ((services.filter (·.covers path)).map serviceText) := by
  rw [listingText]
  cases services.filter (·.covers path) with
  | nil => rfl
  | cons service rest =>
    have first : addedTo [] service = serviceText service := by simp [addedTo]
    have filled : serviceText service ≠ [] := by simp [serviceText]
    rw [foldl_cons, first, foldl_addedTo_filled filled, map_cons, intercalate_comma, map_map]
    rfl

/-! ## The engine from its start -/

/-- `.well-known/core` -/
def wellKnownCoreUrl : CString :=
  .ofBytes [46, 119, 101, 108, 108, 45, 107, 110, 111, 119, 110, 47, 99, 111, 114, 101]

/-- `res_well_known_core` at its address. -/
def resWellKnownCore (address : Nat) : Resource E where
  url := .empty
  hasSubResources := false
  attributes := some (.ofBytes [99, 116, 61, 52, 48])
  address := address
  getHandler := some wellKnownCoreGetHandler
  postHandler := none
  putHandler := none
  deleteHandler := none

/-- `rest_init_engine` -/
def restInitEngine (address : Nat) (engine : Engine E) : Engine E :=
  if engine.initialized then engine
  else restActivateResource (resWellKnownCore address) wellKnownCoreUrl
    { engine with initialized := true, restfulServices := [] }

/-- The listing under its url. -/
def activeWellKnownCore (address : Nat) : Resource E :=
  { resWellKnownCore address with url := wellKnownCoreUrl }

/-- Resources activated one after the other. -/
def activateAll (activations : List (Resource E × CString)) (engine : Engine E) : Engine E :=
  activations.foldl
    (fun engine activation => restActivateResource activation.1 activation.2 engine) engine

/-- The engine is up with the listing in front of the other resources. -/
structure ListsFirst (address : Nat) (engine : Engine E) : Prop where
  initialized : engine.initialized = true
  first : ∃ rest, engine.restfulServices = activeWellKnownCore address :: rest

variable {engine : Engine E}

theorem listsFirst_init (address : Nat) (down : engine.initialized = false) :
    ListsFirst address (restInitEngine address engine) := by
  rw [restInitEngine, if_neg (by rw [down]; exact Bool.false_ne_true)]
  exact ⟨rfl, [], rfl⟩

/-- The activation of another resource leaves the listing in front. -/
theorem ListsFirst.activate {address : Nat} (lists : ListsFirst address engine)
    {resource : Resource E} (other : resource.address ≠ address) (path : CString) :
    ListsFirst address (restActivateResource resource path engine) := by
  obtain ⟨initialized, rest, services⟩ := lists
  refine ⟨initialized,
    rest.eraseP (·.address = resource.address) ++ [{ resource with url := path }], ?_⟩
  have kept :
      ¬decide ((activeWellKnownCore address : Resource E).address = resource.address) = true :=
    fun same => other (of_decide_eq_true same).symm
  have erased : (activeWellKnownCore address :: rest).eraseP
      (fun active => decide (active.address = resource.address)) = activeWellKnownCore address ::
      rest.eraseP fun active => decide (active.address = resource.address) :=
    eraseP_cons_of_neg kept
  rw [restActivateResource, services]
  simp only [erased, cons_append]

theorem ListsFirst.activateAll {address : Nat} (lists : ListsFirst address engine)
    {activations : List (Resource E × CString)}
    (others : ∀ activation ∈ activations, activation.1.address ≠ address) :
    ListsFirst address (activateAll activations engine) := by
  induction activations generalizing engine with
  | nil => exact lists
  | cons activation rest ih =>
    obtain ⟨here, later⟩ := forall_mem_cons.mp others
    exact ih (lists.activate here activation.2) later

theorem covers_self (service : Service) : service.covers service.url.bytes = true := by
  simp [Service.covers]

theorem ListsFirst.gets {address : Nat} (lists : ListsFirst address engine) :
    GetsFrom engine.restfulServices wellKnownCoreUrl.bytes wellKnownCoreGetHandler := by
  obtain ⟨rest, services⟩ := lists.first
  refine ⟨activeWellKnownCore address, ?_, rfl⟩
  rw [services]
  exact List.find?_cons_of_pos (covers_self (activeWellKnownCore address : Resource E).toService)

/-- Whatever else is activated, a client that fetches the listing in blocks gets the resources that
cover its path. -/
theorem wellKnownCore_fetch (address : Nat) {engine : Engine E} (down : engine.initialized = false)
    {activations : List (Resource E × CString)}
    (others : ∀ activation ∈ activations, activation.1.address ≠ address)
    (size : UInt16) {buffers : Nat → List UInt8} {requests : Nat → Packet} {services : List Service}
    {listing : List UInt8} (registered : services = (activateAll activations
      (restInitEngine address engine)).restfulServices.map Resource.toService)
    (isListing : listing = [44].intercalate ((services.filter (·.covers wellKnownCoreUrl.bytes)).map
      serviceText)) (chunk : size.toNat < restMaxChunkSize) (small : listing.length < 2 ^ 31)
    (room : ∀ index, (buffers index).length = restMaxChunkSize)
    (asks : ∀ index, size.toNat * index < listing.length →
      AsksBlock wellKnownCoreUrl.bytes size index (requests index))
    {fuel : Nat} (enough : listing.length ≤ size.toNat * fuel) :
    ∃ after, fetchBlocks (askBlock buffers requests) fuel 0
      (activateAll activations (restInitEngine address engine)) = some (listing, after) := by
  have lists := (listsFirst_init address down).activateAll others
  subst registered
  rw [← listingText_eq] at isListing
  subst isListing
  obtain ⟨rest, first⟩ := lists.first
  have filled : listingText wellKnownCoreUrl.bytes ((activateAll activations
      (restInitEngine address engine)).restfulServices.map Resource.toService) ≠ [] := by
    have self :
        (activeWellKnownCore address : Resource E).toService.covers wellKnownCoreUrl.bytes = true :=
      covers_self (activeWellKnownCore address : Resource E).toService
    obtain ⟨tail, whole⟩ :=
      foldl_addedTo ((rest.map Resource.toService).filter (·.covers wellKnownCoreUrl.bytes))
      (addedTo [] (activeWellKnownCore address : Resource E).toService)
    rw [first, listingText, map_cons, filter_cons_of_pos self, foldl_cons, whole]
    exact append_ne_nil_of_left_ne_nil (cons_ne_nil _ _) _
  obtain ⟨after, fetched, -⟩ := askBlock_fetch ⟨lists.initialized, rfl⟩ lists.gets
    (wellKnownCore_provides _ wellKnownCoreUrl.bytes) chunk.le filled small
    (fun index => by rw [room]; exact chunk) asks enough
  exact ⟨after, fetched⟩

/-- A `GET` of the listing for one of its blocks. -/
def listingRequest (size : UInt16) (index : Nat) : Packet :=
  CoapPacket.setOption .block2
    { coapSetHeaderUriPath wellKnownCoreUrl (coapInitMessage .con coapGet 7) with
    block2 := ⟨UInt32.ofNat index, false, size, UInt32.ofNat index * size.toUInt32⟩ }

theorem listingRequest_asks {size : UInt16}
    (sized : BlockSize size) {index : Nat} (small : index < 2 ^ 20) :
    AsksBlock wellKnownCoreUrl.bytes size index (listingRequest size index) where
  get := rfl
  path := rfl
  noUpload := rfl
  block := by
    have number : (UInt32.ofNat index).toNat = index :=
      UInt32.toNat_ofNat_of_lt' (small.trans (by decide))
    exact ⟨⟨UInt32.ofNat index, false, size, UInt32.ofNat index * size.toUInt32⟩, rfl,
      ⟨number.symm ▸ small, sized, rfl⟩, number, rfl⟩

/-- With a resource at `reset` the listing is `</.well-known/core>;ct=40`, in two blocks of 16
bytes. -/
theorem wellKnownCore_fetch_itself : ∃ after : Engine Unit,
    fetchBlocks (askBlock (fun _ => List.replicate 1024 0) (listingRequest 16)) 2 0
      (activateAll [(⟨⟨.empty, false, some .empty⟩, 1, none, none, none, none⟩,
      .ofBytes [114, 101, 115, 101, 116])] (restInitEngine 0 ⟨false, [], 0, [], ()⟩)) =
      some ([60, 47, 46, 119, 101, 108, 108, 45, 107, 110, 111, 119, 110, 47, 99, 111, 114, 101, 62,
        59, 99, 116, 61, 52, 48], after) := by
  refine wellKnownCore_fetch 0 rfl ?_ 16 rfl ?_ ?_ ?_ ?_ ?_ ?_
  · decide
  · decide
  · decide
  · decide
  · exact fun _ => length_replicate
  · intro index inside
    exact listingRequest_asks ⟨0, by decide, rfl⟩ (by
      have few : 16 * index < 25 := inside
      omega)
  · decide

end Idrm.Rest
