import Idrm.Coap.TransferSteps

/-!
# What an upload sends

Each answer with the number of the block that was sent last takes an upload one block further.
With `2.04` the callback first looks whether the payload has a next block; with `2.31` it takes
the word of the server for it. The block behind the last one starts behind the payload, the
unsigned rest wraps around, and a whole block is read there.

The calls of a client are followed with the states that the callback of its uploads has made
messages from.
-/

namespace Idrm.Coap

open Idrm.Lib Option List

variable {A U : Type} {ctx after : ClientContext A U} {state stored : RequestState U}

/-! ## The messages of uploads -/

/-- What the uploads of a client have sent behind their first blocks. -/
def uploads (stops : Stops U) (events : List (ClientEvent A U)) (start : ClientContext A U) :
    List (RequestState U) :=
  (visited (ClientEvent.perform stops) events start).filterMap fun visit => visit.2.upload visit.1

/-- The message made from a state has a block of its payload. -/
def SendsInside (state : RequestState U) : Prop :=
  ∃ message count, nextPutBlock state = some message ∧
    message.payload = (state.request.payload.drop (state.blockNum.toNat * 1024)).take count ∧
    state.blockNum.toNat * 1024 + count ≤ state.request.payload.length

/-- Every message has a block of its payload, and with the first block no upload sends more
than there are. -/
structure UploadsWithin (sent : List (RequestState U)) : Prop where
  inside : ∀ state ∈ sent, SendsInside state
  count : ∀ state ∈ sent,
    sent.countP (·.ptr = state.ptr) + 1 ≤ state.request.payload.length / 1024 + 1

/-- A response asks for more with `2.31`, and answers the last block. -/
def AsksBeyond (state : RequestState U) (response : Packet) : Prop :=
  response.type ≠ .rst ∧
    response.code = continue231 ∧ ((coapGetHeaderBlock1 response).getD .zero).more = true ∧
    ((coapGetHeaderBlock1 response).getD .zero).num = state.blockNum ∧
    state.request.payload.length < (state.blockNum.toNat + 1) * 1024

instance (state : RequestState U) (response : Packet) : Decidable (AsksBeyond state response) :=
  inferInstanceAs (Decidable (_ ∧ _ ∧ _ ∧ _ ∧ _ < _))

/-- A server asks an upload for more than there is. -/
def ContinuesLast (ctx : ClientContext A U) (event : ClientEvent A U) : Prop :=
  ∃ answered ∈ event.putAnswered ctx, AsksBeyond answered.1 answered.2

instance (ctx : ClientContext A U) (event : ClientEvent A U) :
    Decidable (ContinuesLast ctx event) :=
  inferInstanceAs (Decidable (∃ _ ∈ _, AsksBeyond _ _))

/-! ## A block and its place -/

section Block

theorem Uploading.start (uploading : Uploading state) :
    (state.blockNum * state.blockSize.toUInt32).toNat = state.blockNum.toNat * 1024 := by
  have small := Nat.lt_of_le_of_lt uploading.inside uploading.length
  have size : (1024 : UInt16).toUInt32.toNat = 1024 := rfl
  rw [uploading.blockSize, UInt32.toNat_mul, size]
  exact Nat.mod_eq_of_lt (Nat.lt_trans small (by decide))

theorem Uploading.succ (uploading : Uploading state) :
    (state.blockNum + 1).toNat = state.blockNum.toNat + 1 := by
  have small := Nat.lt_of_le_of_lt uploading.inside uploading.length
  rw [UInt32.toNat_add]
  exact Nat.mod_eq_of_lt (by change state.blockNum.toNat + 1 < 2 ^ 32; omega)

theorem payload_setBlock1 (num : UInt32) (more : Bool) (size : UInt16) (packet : Packet) :
    (coapSetHeaderBlock1 num more size packet).payload = packet.payload := by
  unfold coapSetHeaderBlock1
  split <;> rfl

/-- Inside the payload the rest does not wrap around. -/
theorem Uploading.sendsInside (uploading : Uploading state) : SendsInside state := by
  have start := uploading.start
  have inside := uploading.inside
  have length : (UInt32.ofNat state.request.payload.length).toNat = state.request.payload.length :=
    UInt32.toNat_ofNat_of_lt' (Nat.lt_trans uploading.length (by decide))
  have left : (UInt32.ofNat state.request.payload.length -
      state.blockNum * state.blockSize.toUInt32).toNat =
      state.request.payload.length - state.blockNum.toNat * 1024 := by
    rw [UInt32.toNat_sub_of_le _ _ (UInt32.le_iff_toNat_le.mpr
      (by rw [start, length]; exact inside)), start, length]
  have size : state.blockSize.toUInt32.toNat = 1024 := by
    rw [uploading.blockSize]
    rfl
  have size16 : state.blockSize.toNat = 1024 := by
    rw [uploading.blockSize]
    rfl
  have fits : (state.blockNum * state.blockSize.toUInt32).toNat + (if ¬ state.blockSize.toUInt32 >
      UInt32.ofNat state.request.payload.length - state.blockNum * state.blockSize.toUInt32 then
      state.blockSize.toNat else (UInt32.ofNat state.request.payload.length - state.blockNum *
      state.blockSize.toUInt32).toNat) ≤ state.request.payload.length := by
    rw [start]
    split
    · rename_i whole
      rw [gt_iff_lt, UInt32.lt_iff_toNat_lt, left, size] at whole
      rw [size16]
      exact Nat.add_le_of_le_sub' inside (Nat.not_lt.mp whole)
    · rw [left]
      exact Nat.le_of_eq (Nat.add_sub_cancel' inside)
  have sends : nextPutBlock state = some (coapSetHeaderBlock1 _ _ _ (coapSetPayload _ _)) :=
    if_pos fits
  rw [start] at fits
  refine ⟨_, min restMaxChunkSize _, sends, ?_,
    Nat.le_trans (Nat.add_le_add_left (Nat.min_le_right _ _) _) fits⟩
  rw [payload_setBlock1, start, ← take_take]
  rfl

end Block

/-! ## Runs -/

/-- The states of a client suit their requests, and what its uploads have sent is in their
payloads. -/
structure KeepsUploads (sent : List (RequestState U)) (ctx : ClientContext A U) : Prop where
  suits : ∀ r ∈ ctx.ongoingRequests, ∀ ptr, r.callback.stateOf = some ptr → ptr < ctx.nextPtr ∧
    ∀ state, stateAt ctx ptr = some state → Suits sent state r.callback
  older : ∀ state ∈ sent, state.ptr < ctx.nextPtr
  within : UploadsWithin sent

section Runs

variable {sent : List (RequestState U)} {callback : ClientCallback U} {ptr : Nat}
  {response : Packet} {event : ClientEvent A U}
  {stops : Stops U}

/-- Messages of another upload do not count. -/
theorem Suits.congr {more : List (RequestState U)}
    (suits : Suits sent state callback) (owner : callback.stateOf = some ptr)
    (same : more.filter (·.ptr = ptr) = sent.filter (·.ptr = ptr)) : Suits more state callback := by
  cases callback with
  | user user => cases owner
  | request other => exact suits
  | put other =>
    obtain rfl := some.inj owner
    refine ⟨suits.1, ?_, fun earlier member here => ?_⟩
    · rw [suits.2.1, countP_eq_length_filter, countP_eq_length_filter, same]
    · have kept : earlier ∈ more.filter (·.ptr = other) :=
        mem_filter.mpr ⟨member, decide_eq_true here⟩
      rw [same] at kept
      exact suits.2.2 earlier (mem_filter.mp kept).1 here

/-- The callbacks that lead to one state are of one kind. -/
theorem Suits.same_kind {one two : ClientCallback U}
    (suits : Suits sent state one) (suitsToo : Suits sent state two)
    (owner : one.stateOf = some ptr) (ownerToo : two.stateOf = some ptr) : one = two := by
  have apart : (1024 : UInt16) ≠ 0 := by decide
  cases one with
  | user user => cases owner
  | put first =>
    obtain rfl := some.inj owner
    cases two with
    | user user => cases ownerToo
    | put second => rw [some.inj ownerToo]
    | request second => exact absurd (suits.1.blockSize.symm.trans suitsToo) apart
  | request first =>
    obtain rfl := some.inj owner
    cases two with
    | user user => cases ownerToo
    | put second => exact absurd (suitsToo.1.blockSize.symm.trans suits) apart
    | request second => rw [some.inj ownerToo]

theorem Uploading.nextNum (uploading : Uploading state) (ctx : ClientContext A U) :
    (nextUpload state ctx).blockNum.toNat = state.blockNum.toNat + 1 := uploading.succ

/-- An upload goes on inside its payload, unless the last block is answered with `2.31`. -/
theorem Uploading.next (uploading : Uploading state)
    (goesOn : PutGoesOn state response) (inside : ¬ AsksBeyond state response)
    (ctx : ClientContext A U) : Uploading (nextUpload state ctx) where
  blockSize := uploading.blockSize
  length := uploading.length
  inside := by
    rw [uploading.nextNum]
    change _ ≤ state.request.payload.length
    obtain ⟨noReset, -, num, ⟨continues, more⟩ | ⟨-, further⟩⟩ := goesOn
    · exact Nat.not_lt.mp fun beyond => inside ⟨noReset, continues, more, num, beyond⟩
    · have length :
          (UInt32.ofNat state.request.payload.length).toNat = state.request.payload.length :=
        UInt32.toNat_ofNat_of_lt' (Nat.lt_trans uploading.length (by decide))
      have size : (1024 : UInt16).toUInt32.toNat = 1024 := rfl
      have small : (state.blockNum.toNat + 1) * 1024 < 2 ^ 32 := by
        have inside := uploading.inside
        have length := uploading.length
        omega
      rw [UInt32.lt_iff_toNat_lt, length, uploading.blockSize, UInt32.toNat_mul, uploading.succ,
        size, Nat.mod_eq_of_lt small] at further
      exact Nat.not_lt.mp further

/-- Asked for more than there is, an upload goes on. -/
theorem AsksBeyond.goesOn (beyond : AsksBeyond state response) : PutGoesOn state response := by
  obtain ⟨noReset, continues, more, num, -⟩ := beyond
  refine ⟨noReset, ?_, num, .inl ⟨continues, more⟩⟩
  rw [continues]
  decide

/-- The upload that a response is for. -/
theorem KeepsUploads.answered (keeps : KeepsUploads sent ctx) {answered : RequestState U × Packet}
    (isAnswered : answered ∈ event.putAnswered ctx) : stateAt ctx answered.1.ptr = some answered.1 ∧
    answered.1.ptr < ctx.nextPtr ∧ Suits sent answered.1 (.put answered.1.ptr) := by
  obtain ⟨r, called, isAnswered⟩ := bind_eq_some_iff.mp isAnswered
  cases isCallback : r.callback with
  | user callback =>
    rw [isCallback] at isAnswered
    cases isAnswered
  | request ptr =>
    rw [isCallback] at isAnswered
    cases isAnswered
  | put ptr =>
    rw [isCallback] at isAnswered
    obtain ⟨state, found, isAnswered⟩ := bind_eq_some_iff.mp isAnswered
    obtain ⟨response, -, rfl⟩ := map_eq_some_iff.mp isAnswered
    have here : state.ptr = ptr := by simpa using List.find?_some found
    subst here
    obtain ⟨bound, suits⟩ :=
      keeps.suits r (event.called_mem called) state.ptr (by rw [isCallback]; rfl)
    rw [isCallback] at suits
    exact ⟨found, bound, suits state found⟩

/-- One more message is in the payload of its upload. -/
theorem UploadsWithin.send (within : UploadsWithin sent) {next : RequestState U}
    (uploading : Uploading next) (num : next.blockNum.toNat = sent.countP (·.ptr = next.ptr) + 1)
    (same : ∀ earlier ∈ sent, earlier.ptr = next.ptr →
      earlier.request.payload = next.request.payload) : UploadsWithin (sent ++ [next]) where
  inside := by
    intro state member
    rcases mem_append.mp member with old | new
    · exact within.inside state old
    · rw [mem_singleton.mp new]
      exact uploading.sendsInside
  count := by
    have own : sent.countP (·.ptr = next.ptr) + 1 ≤ next.request.payload.length / 1024 := by
      rw [← num]
      exact (Nat.le_div_iff_mul_le (by decide)).mpr uploading.inside
    intro state member
    rw [countP_append, countP_singleton]
    rcases mem_append.mp member with old | new
    · by_cases here : state.ptr = next.ptr
      · rw [here, same state old here, if_pos (decide_eq_true rfl)]
        exact Nat.succ_le_succ own
      · rw [if_neg fun this => here (of_decide_eq_true this).symm]
        exact within.count state old
    · rw [mem_singleton.mp new, if_pos (decide_eq_true rfl)]
      exact Nat.succ_le_succ own

/-- What an event makes an upload send is in its payload, unless it asks for more than there is. -/
theorem KeepsUploads.sends (keeps : KeepsUploads sent ctx) {answered : RequestState U × Packet}
    (isAnswered : answered ∈ event.putAnswered ctx)
    (goesOn : PutGoesOn answered.1 answered.2) (inside : ¬ ContinuesLast ctx event) :
    Suits (sent ++ [nextUpload answered.1 ctx]) (nextUpload answered.1 ctx) (.put answered.1.ptr) ∧
    UploadsWithin (sent ++ [nextUpload answered.1 ctx]) := by
  obtain ⟨-, -, uploading, num, same⟩ := keeps.answered isAnswered
  have next := uploading.next goesOn (fun beyond => inside ⟨answered, isAnswered, beyond⟩) ctx
  have nextNum :
      (nextUpload answered.1 ctx).blockNum.toNat = sent.countP (·.ptr = answered.1.ptr) + 1 := by
    rw [uploading.nextNum, num]
  refine ⟨⟨next, ?_, fun earlier member here => ?_⟩, keeps.within.send next nextNum same⟩
  · have here : (nextUpload answered.1 ctx).ptr = answered.1.ptr := rfl
    rw [nextNum, countP_append, countP_singleton, if_pos (decide_eq_true here)]
  · rcases mem_append.mp member with old | new
    · exact same earlier old here
    · rw [mem_singleton.mp new]

theorem upload_some {next : RequestState U} (sends : event.upload ctx = some next) :
    ∃ answered ∈ event.putAnswered ctx, PutGoesOn answered.1 answered.2 ∧
    next = nextUpload answered.1 ctx := by
  obtain ⟨answered, isAnswered, sends⟩ := bind_eq_some_iff.mp sends
  split at sends
  · rename_i goesOn
    exact ⟨answered, isAnswered, goesOn, (some.inj sends).symm⟩
  · cases sends

theorem KeepsUploads.within_upload (keeps : KeepsUploads sent ctx)
    (inside : ¬ ContinuesLast ctx event) : UploadsWithin (sent ++ (event.upload ctx).toList) := by
  cases sends : event.upload ctx with
  | none =>
    rw [toList_none, append_nil]
    exact keeps.within
  | some next =>
    obtain ⟨answered, isAnswered, goesOn, rfl⟩ := upload_some sends
    exact (keeps.sends isAnswered goesOn inside).2

/-- The requests of other states are as before. -/
theorem KeepsUploads.writes (keeps : KeepsUploads sent ctx) {more : List (RequestState U)}
    (writes : WritesState stored callback ctx after) (owner : callback.stateOf = some stored.ptr)
    (bound : stored.ptr < after.nextPtr) (suits : Suits more stored callback)
    (others : ∀ ptr, ptr ≠ stored.ptr → more.filter (·.ptr = ptr) = sent.filter (·.ptr = ptr))
    (kind : ∀ r ∈ ctx.ongoingRequests, r.callback.stateOf = some stored.ptr →
      r.callback = callback) :
    ∀ r ∈ after.ongoingRequests, ∀ ptr, r.callback.stateOf = some ptr → ptr < after.nextPtr ∧
    ∀ state, stateAt after ptr = some state → Suits more state r.callback := by
  have own : ∀ r ∈ after.ongoingRequests, r.callback.stateOf = some stored.ptr →
      r.callback = callback := by
    intro r member isOwner
    rcases writes.waits r member stored.ptr isOwner with isNew | ⟨old, oldMember, same⟩
    · exact isNew
    · rw [← same]
      exact kind old oldMember (by rw [same]; exact isOwner)
  intro r member ptr isOwner
  by_cases here : ptr = stored.ptr
  · subst here
    refine ⟨bound, fun state found => ?_⟩
    obtain ⟨-, rfl⟩ := (writes.states _ state found).resolve_left fun both => both.1 rfl
    rw [own r member isOwner]
    exact suits
  · rcases writes.waits r member ptr isOwner with isNew | ⟨old, oldMember, same⟩
    · rw [isNew, owner] at isOwner
      exact absurd (some.inj isOwner).symm here
    · rw [← same] at isOwner ⊢
      obtain ⟨older, suitsOld⟩ := keeps.suits old oldMember ptr isOwner
      refine ⟨Nat.lt_of_lt_of_le older writes.nextPtr, fun state found => ?_⟩
      have before := ((writes.states ptr state found).resolve_right fun both => here both.1).2
      exact (suitsOld state before).congr isOwner (others ptr here)

theorem KeepsUploads.step (keeps : KeepsUploads sent ctx)
    (sized : event.Sized) (inside : ¬ ContinuesLast ctx event)
    (effect : Effect event ctx after) : KeepsUploads (sent ++ (event.upload ctx).toList) after := by
  have within := keeps.within_upload inside
  have older {next : Nat} (grows : ctx.nextPtr ≤ next) : ∀ state ∈ sent, state.ptr < next :=
    fun state member => Nat.lt_of_lt_of_le (keeps.older state member) grows
  cases effect with
  | less silent less =>
    rw [silent, toList_none, append_nil]
    refine ⟨fun r member ptr owner => ?_, older less.nextPtr, keeps.within⟩
    obtain ⟨old, oldMember, same⟩ := less.waits r member ptr owner
    obtain ⟨bound, suits⟩ := keeps.suits old oldMember ptr (by rw [same]; exact owner)
    rw [same] at suits
    exact ⟨Nat.lt_of_lt_of_le bound less.nextPtr,
      fun state found => suits state (less.states ptr state found)⟩
  | begins stored callback outgoing silent here owner grows suits writes =>
    rw [silent, toList_none, append_nil]
    have fresh : sent.filter (·.ptr = stored.ptr) = ([] : List (RequestState U)).filter
        (·.ptr = stored.ptr) := by
      refine filter_eq_nil_iff.mpr fun state member same => ?_
      have bound := keeps.older state member
      rw [of_decide_eq_true same, here] at bound
      exact Nat.lt_irrefl _ bound
    refine ⟨keeps.writes writes owner (here ▸ grows) ((suits sized).congr owner fresh)
      (fun _ _ => rfl) ?_, older writes.nextPtr, keeps.within⟩
    intro r member isOwner
    have bound := (keeps.suits r member stored.ptr isOwner).1
    rw [here] at bound
    exact absurd bound (Nat.lt_irrefl _)
  | uploads state sends found waits writes =>
    obtain ⟨r, member, isCallback⟩ := waits
    obtain ⟨bound, suitsOld⟩ := keeps.suits r member state.ptr (by rw [isCallback]; rfl)
    rw [isCallback] at suitsOld
    obtain ⟨answered, isAnswered, goesOn, isNext⟩ := upload_some sends
    have sameNext : (nextUpload answered.1 ctx).ptr = (nextUpload state ctx).ptr :=
      congrArg RequestState.ptr isNext.symm
    have samePtr : answered.1.ptr = state.ptr := sameNext
    have suits := (keeps.sends isAnswered goesOn inside).1
    rw [← isNext, samePtr] at suits
    rw [sends, toList_some] at within ⊢
    have bound : state.ptr < after.nextPtr := Nat.lt_of_lt_of_le bound writes.nextPtr
    refine ⟨keeps.writes writes rfl bound suits (fun ptr other => ?_)
      (fun old oldMember owner => ?_), ?_, within⟩
    · have notHere : ¬ (nextUpload state ctx).ptr = ptr := fun same => other same.symm
      rw [filter_append, filter_singleton, decide_eq_false notHere, cond_false, append_nil]
    · exact ((keeps.suits old oldMember state.ptr owner).2 state found).same_kind
        (suitsOld state found) owner rfl
    · intro earlier earlierMember
      rcases mem_append.mp earlierMember with old | new
      · exact older writes.nextPtr earlier old
      · rw [mem_singleton.mp new]
        exact bound
  | downloads state stored silent found waits same size writes =>
    rw [silent, toList_none, append_nil]
    obtain ⟨r, member, isCallback⟩ := waits
    obtain ⟨bound, suits⟩ := keeps.suits r member state.ptr (by rw [isCallback]; rfl)
    rw [isCallback] at suits
    have suitsStored : Suits sent stored (.request state.ptr) := size.trans (suits state found)
    refine ⟨keeps.writes writes (congrArg some same.symm)
      (same ▸ Nat.lt_of_lt_of_le bound writes.nextPtr) suitsStored
      (fun _ _ => rfl) (fun old oldMember owner => ?_), older writes.nextPtr, keeps.within⟩
    rw [same] at owner
    exact ((keeps.suits old oldMember state.ptr owner).2 state found).same_kind
      (suits state found) owner rfl

theorem uploads_cons (stops : Stops U) (event : ClientEvent A U) (rest : List (ClientEvent A U))
    (ctx : ClientContext A U) : uploads stops (event :: rest) ctx = (event.upload ctx).toList ++
      ((event.perform stops ctx).map (uploads stops rest)).getD [] := by
  have behind : (((event.perform stops ctx).map (visited (ClientEvent.perform stops) rest)).getD
      []).filterMap (fun visit => visit.2.upload visit.1) =
      ((event.perform stops ctx).map (uploads stops rest)).getD [] := by
    cases event.perform stops ctx <;> rfl
  unfold uploads at behind ⊢
  rw [visited, filterMap_cons, ← behind]
  cases event.upload ctx <;> rfl

/-- The block behind the last one is outside of the payload. -/
theorem KeepsUploads.beyond (keeps : KeepsUploads sent ctx) (continues : ContinuesLast ctx event) :
    ∃ next, event.upload ctx = some next ∧ ¬ SendsInside next := by
  obtain ⟨answered, isAnswered, beyond⟩ := continues
  obtain ⟨-, -, uploading, -, -⟩ := keeps.answered isAnswered
  refine ⟨nextUpload answered.1 ctx, ?_, ?_⟩
  · have isSome : event.putAnswered ctx = some answered := isAnswered
    rw [ClientEvent.upload, isSome, bind_some, if_pos beyond.goesOn]
  · rintro ⟨message, count, -, -, inside⟩
    rw [uploading.nextNum] at inside
    exact absurd (Nat.le_trans (Nat.le_add_right _ _) inside) (Nat.not_le.mpr beyond.2.2.2.2)

theorem KeepsUploads.within_iff {events : List (ClientEvent A U)} (keeps : KeepsUploads sent ctx)
    (sized : ∀ event ∈ events, event.Sized) : UploadsWithin (sent ++ uploads stops events ctx) ↔
    ∀ visit ∈ visited (ClientEvent.perform stops) events ctx, ¬ ContinuesLast visit.1 visit.2 := by
  induction events generalizing sent ctx with
  | nil =>
    refine iff_of_true ?_ fun visit member => ?_
    · change UploadsWithin (sent ++ [])
      rw [append_nil]
      exact keeps.within
    · cases member
  | cons event rest ih =>
    rw [uploads_cons, visited, forall_mem_cons]
    by_cases continues : ContinuesLast ctx event
    · obtain ⟨next, sends, outside⟩ := keeps.beyond continues
      refine iff_of_false (fun within => outside (within.inside next ?_)) fun both =>
        both.1 continues
      rw [sends]
      exact mem_append_right _ (mem_append_left _ (mem_singleton_self next))
    · rw [and_iff_right continues, ← append_assoc]
      cases performs : event.perform stops ctx with
      | none =>
        rw [map_none, map_none, getD_none, getD_none, append_nil]
        exact iff_of_true (keeps.within_upload continues) fun visit member =>
          absurd member not_mem_nil
      | some next =>
        rw [map_some, map_some, getD_some, getD_some]
        have sizedHere := sized event mem_cons_self
        exact ih (keeps.step sizedHere continues (event.perform_effect performs))
          fun later member => sized later (mem_cons_of_mem _ member)

/-- Whatever the calls of a client and the responses to it, every message of its uploads has a
block of the payload, and no upload sends more blocks than it has, exactly if no server answers
a last block with `2.31` and the more bit. -/
theorem uploadsWithin_iff (stops : Stops U)
    (mid : UInt16) (events : List (ClientEvent A U)) (sized : ∀ event ∈ events, event.Sized) :
    UploadsWithin (uploads stops events (coapContextNew ⟨mid, [], []⟩)) ↔
    ∀ visit ∈ visited (ClientEvent.perform stops) events (coapContextNew ⟨mid, [], []⟩),
    ¬ ContinuesLast visit.1 visit.2 := by
  have keeps : KeepsUploads [] (coapContextNew ⟨mid, [], []⟩ : ClientContext A U) := by
    refine ⟨fun r member => ?_, fun state member => ?_,
      ⟨fun state member => ?_, fun state member => ?_⟩⟩
    · cases member
    · cases member
    · cases member
    · cases member
  exact keeps.within_iff sized

end Runs

/-! ## A payload of two blocks -/

/-- A request with one byte more than a block. -/
def blockAndByte : Packet :=
  { coapSetToken [7] (coapInitMessage .con coapPut 0) with payload := List.replicate 1025 1 }

/-- The server asks for the block behind the one with a number. -/
def moreWanted (mid : UInt16) (num : UInt32) : Packet :=
  coapSetHeaderBlock1 num true 1024 (coapSetToken [7] (coapInitMessage .ack continue231 mid))

/-- Both blocks are sent. -/
def wholeUpload : List (ClientEvent Nat Unit) :=
  [.put 9 blockAndByte none, .packet 9 (moreWanted 1 0)]

theorem wholeUpload_sized : ∀ event ∈ wholeUpload, event.Sized := by
  intro event member
  rcases mem_cons.mp member with rfl | member
  · change (List.replicate 1025 (1 : UInt8)).length < 65536
    rw [length_replicate]
    decide
  · rw [mem_singleton.mp member]
    exact trivial

theorem uploadsWithin_wholeUpload :
    UploadsWithin (uploads (fun _ => false) wholeUpload idleClient) :=
  (uploadsWithin_iff (fun _ => false) 0 wholeUpload wholeUpload_sized).mpr (by decide +kernel)

/-- The server asks for a third block, and 1024 bytes behind the payload are read. -/
theorem uploadsWithin_fails :
    ¬ ∀ events : List (ClientEvent Nat Unit), (∀ event ∈ events, event.Sized) →
      UploadsWithin (uploads (fun _ => false) events idleClient) := by
  intro claimed
  have within := claimed (wholeUpload ++ [.packet 9 (moreWanted 2 1)]) (fun event member => by
    rcases mem_append.mp member with whole | last
    · exact wholeUpload_sized event whole
    · rw [mem_singleton.mp last]
      exact trivial)
  have unread : (uploads (fun _ => false) (wholeUpload ++ [.packet 9 (moreWanted 2 1)])
      idleClient).any (fun state => (nextPutBlock state).isNone) = true := by
    decide +kernel
  obtain ⟨state, member, outside⟩ := List.any_eq_true.mp unread
  obtain ⟨message, count, sends, -⟩ := within.inside state member
  rw [sends] at outside
  cases outside

end Idrm.Coap
