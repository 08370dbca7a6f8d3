import Idrm.Lib.Bytes
import Idrm.Trans.Sync

/-!
# Waiting for a response

`bh_wait_response` and the calls of `bh_feed_response` for its id, as the sections they take
under a lock. A feed takes the node off the list in its first section, and fills it and links it
again in its second one; the thread that waits takes the node off the list when it is woken
or its time is over, whatever the feeds have done by then.
-/

namespace Idrm.Trans

open Idrm.Lib Option List

/-- Where the wait stands. `*response` is written only where the node was found. -/
inductive Wait (α : Type) where
  | calling
  | waiting (ptr : Nat) (id : UInt32)
  | returned (ret : Int32) (response : Option (Option α))
deriving DecidableEq

/-- The wait and the feeds of its id between two sections. A feeder holds the node it took off
the list. Remembered besides: the responses whose feed began while the node was registered, and the
copies that were made of them. -/
structure Waiting (α κ ω : Type) where
  world : World α κ ω
  wait : Wait α
  feeders : List (Response α × SyncNode α κ ω)
  fed : List (Response α)
  copies : List α
deriving DecidableEq

/-- The sections: those of the wait, before it and behind it, and those of a feed. -/
inductive Section (α : Type) where
  | register
  | resume
  | lookUp (response : Response α)
  | deposit (index : Nat) (malloc : UInt32 → Bool)

section Sections

variable {α κ ω : Type}

/-- Nothing was called yet. -/
def Waiting.start (world : World α κ ω) : Waiting α κ ω := ⟨world, .calling, [], [], []⟩

/-- The second section of a feed, on the node it holds. -/
def feedNode (malloc : UInt32 → Bool) (node : SyncNode α κ ω) (response : Response α)
    (world : World α κ ω) : Option (World α κ ω) :=
  match node.data with
  | .syncData held _ pendingDelete _ =>
    if pendingDelete then some (freeNode node world)
    else
      let copied := decide (response.len ≠ 0) && malloc response.len
      let filled : NodeData α κ ω := .syncData
        (if response.len = 0 then held else if copied then response.data else none)
        (if copied then response.len else 0) false response.format
      some { world with ctx := addSyncNode { node with data := filled } world.ctx }
  | .cbData cb (some workThread) => some (post node cb workThread response world)
  | .cbData _ none => bhFeedTransaction node response world

/-- A feed that no other thread interrupts is its two sections. -/
theorem bhFeedResponse_eq (malloc : UInt32 → Bool) (id : UInt32) (response : Response α)
    (world : World α κ ω) : bhFeedResponse malloc id response world =
      match removeSyncNode id world.ctx with
      | none => some world
      | some (node, ctx) => feedNode malloc node response { world with ctx := ctx } := rfl

/-- The copies a feed makes for the node it holds. -/
def copiesFor (malloc : UInt32 → Bool) (node : SyncNode α κ ω) (response : Response α) : List α :=
  match node.data with
  | .syncData _ _ false _ => if response.len ≠ 0 ∧ malloc response.len then
      response.data.toList else []
  | _ => []

/-- `S_PENDING_DELETE` -/
def markPending (ptr : Nat) (feeder : Response α × SyncNode α κ ω) : Response α × SyncNode α κ ω :=
  match feeder.2.data with
  | .syncData held len _ fmt =>
    if feeder.2.ptr = ptr then
      (feeder.1, { feeder.2 with data := .syncData held len true fmt }) else feeder
  | .cbData .. => feeder

/-- The rest of `bh_wait_response`, which has the result of the assertion. -/
def resumeWait (ptr : Nat) (id : UInt32) (state : Waiting α κ ω) : Option (Waiting α κ ω) :=
  match removeSyncNode id state.world.ctx with
  | some (node, ctx) =>
    match node.data with
    | .syncData held len _ _ =>
      if node.ptr = ptr then
        some
          { state with
            world := freeNode node { state.world with ctx := ctx }
            wait := .returned len.toInt32 (some held) }
      else none
    | .cbData .. => none
  | none => some
      { state with wait := .returned (-1) none, feeders := state.feeders.map (markPending ptr) }

/-- A feed begins. -/
def Waiting.begun (response : Response α) (state : Waiting α κ ω) : Waiting α κ ω :=
  match state.wait with
  | .waiting .. => { state with fed := state.fed ++ [response] }
  | _ => state

/-- One section, in a wait that was called for `requested` and got `id`. The wait is called once. -/
def performSection (requested id : UInt32) : Section α → Waiting α κ ω → Option (Waiting α κ ω)
  | .register, state =>
    match state.wait with
    | .calling =>
      some
        { state with
          world := bhWaitResponse requested state.world
          wait := .waiting state.world.nextPtr (chooseId requested state.world.ctx).1 }
    | _ => some state
  | .resume, state =>
    match state.wait with
    | .waiting ptr id => resumeWait ptr id state
    | _ => some state
  | .lookUp response, state =>
    match removeSyncNode id state.world.ctx with
    | none => some (state.begun response)
    | some (node, ctx) =>
      some
        { state.begun response with
          world := { state.world with ctx := ctx }
          feeders := state.feeders ++ [(response, node)] }
  | .deposit index malloc, state =>
    match state.feeders[index]? with
    | none => some state
    | some (response, node) =>
      (feedNode malloc node response state.world).map fun world =>
        { state with
          world := world
          feeders := state.feeders.eraseIdx index
          copies := state.copies ++ copiesFor malloc node response }

/-! ## What the wait returns -/

/-- What a node holds after a feed. Nothing is copied of an empty response. -/
def Response.delivered (response : Response α) : Option α :=
  if response.len = 0 then none else response.data

/-- Where the wait is over, it returned the first response fed while it was registered, or `-1`
where there was none, and every copy that was made is its own. -/
def Waiting.LosesNone (state : Waiting α κ ω) : Prop :=
  ∀ ret response, state.wait = .returned ret response →
    (ret = -1 ↔ state.fed = []) ∧
      (∀ first ∈ state.fed.head?, ret.toInt = first.len.toNat ∧ response = some first.delivered) ∧
      state.copies = response.join.toList

/-- The node was filled, and no feed is under way. -/
def Waiting.Answered (state : Waiting α κ ω) : Prop := state.fed ≠ [] ∧ state.feeders = []

/-- While the thread waits, no feed finds the node filled, except with an empty response for an
empty one, and it goes on when the node is filled. A copy is made of less than 2 GiB,
and can be allocated. -/
def Waiting.Delivers (state : Waiting α κ ω) : Section α → Prop
  | .register => True
  | .resume => ∀ ptr id, state.wait = .waiting ptr id → state.Answered
  | .lookUp response =>
    ∀ ptr id, state.wait = .waiting ptr id → state.Answered → ∀ first ∈ state.fed.head?,
      first.len = 0 ∧ response.len = 0
  | .deposit index malloc =>
    ∀ feeder ∈ state.feeders[index]?, feeder.1.len.toNat < 2 ^ 31 ∧
      (feeder.1.len ≠ 0 → malloc feeder.1.len = true)

/-! ## The node -/

theorem removeSyncNode_eq_none {id : UInt32} {ctx : SyncCtx α κ ω} :
    removeSyncNode id ctx = none ↔ ∀ node ∈ ctx.list, node.id ≠ id := by
  have walk : ∀ list : List (SyncNode α κ ω), unlinkFirst id list = none ↔ ∀ node ∈ list,
      node.id ≠ id := by
    intro list
    induction list with
    | nil => exact iff_of_true rfl nofun
    | cons current next ih =>
      rw [unlinkFirst, forall_mem_cons]
      by_cases same : id = current.id
      · rw [if_pos same]
        exact iff_of_false nofun (fun others => others.1 same.symm)
      · rw [if_neg same, map_eq_none_iff, ih]
        exact (and_iff_right (Ne.symm same)).symm
  rw [removeSyncNode, map_eq_none_iff, walk]

/-- A node that was linked is the one that is found. -/
theorem removeSyncNode_addSyncNode {id : UInt32} {node : SyncNode α κ ω} (named : node.id = id)
    (ctx : SyncCtx α κ ω) : removeSyncNode id (addSyncNode node ctx) = some (node, ctx) := by
  simp only [removeSyncNode, addSyncNode, unlinkFirst, if_pos named.symm, map_some,
    UInt32.add_sub_cancel]

/-! ## Runs -/

/-- What the node holds after some feeds. -/
def Filled (fed : List (Response α)) (held : Option α) (len : UInt32) : Prop :=
  match fed with
  | [] => held = none ∧ len = 0
  | first :: _ => held = first.delivered ∧ len = first.len ∧ first.len.toNat < 2 ^ 31

/-- Where the node is. A feeder that holds it has the first response, or an empty one for an empty
one. -/
inductive Delivering (requested id : UInt32) : Waiting α κ ω → Prop
  | calling {world : World α κ ω} (chosen : (chooseId requested world.ctx).1 = id)
      (absent : removeSyncNode id world.ctx = none) : Delivering requested id (.start world)
  | listed {world : World α κ ω} {node : SyncNode α κ ω} {rest : SyncCtx α κ ω}
      {fed : List (Response α)} {held : Option α} {len : UInt32} {fmt : UInt8}
      (named : node.id = id) (found : removeSyncNode id world.ctx = some (node, rest))
      (absent : removeSyncNode id rest = none)
      (data : node.data = .syncData held len false fmt) (filled : Filled fed held len) :
      Delivering requested id ⟨world, .waiting node.ptr id, [], fed, held.toList⟩
  | held {world : World α κ ω} {node : SyncNode α κ ω} {response first : Response α}
      {fed : List (Response α)} {fmt : UInt8} (named : node.id = id)
      (absent : removeSyncNode id world.ctx = none) (data : node.data = .syncData none 0 false fmt)
      (answers : response = first ∨ first.len = 0 ∧ response.len = 0) :
      Delivering requested id ⟨world, .waiting node.ptr id, [(response, node)], first :: fed, []⟩
  | returned {world : World α κ ω} {ret : Int32}
      {response : Option (Option α)} {fed : List (Response α)} {copies : List α}
      (absent : removeSyncNode id world.ctx = none) (losesNone : Waiting.LosesNone
      (⟨world, .returned ret response, [], fed, copies⟩ : Waiting α κ ω)) :
      Delivering requested id ⟨world, .returned ret response, [], fed, copies⟩

variable {requested id : UInt32} {state next : Waiting α κ ω}

/-- The wait is registered. -/
theorem Delivering.register (delivering : Delivering requested id state) : ∃ next,
    performSection requested id .register state = some next ∧ Delivering requested id next := by
  cases delivering with
  | @calling world chosen absent =>
    let node : SyncNode α κ ω :=
      ⟨world.nextPtr, (chooseId requested world.ctx).1, 0, .syncData none 0 false 0⟩
    refine ⟨⟨bhWaitResponse requested world, .waiting node.ptr node.id, [], [], []⟩, rfl, ?_⟩
    have stillAbsent : removeSyncNode id (chooseId requested world.ctx).2 = none := by
      rw [removeSyncNode_eq_none, chooseId_list]
      exact removeSyncNode_eq_none.mp absent
    have found : removeSyncNode id (bhWaitResponse requested world).ctx =
        some (node, (chooseId requested world.ctx).2) :=
      removeSyncNode_addSyncNode chosen (chooseId requested world.ctx).2
    have nothing : Filled ([] : List (Response α)) none 0 := ⟨rfl, rfl⟩
    rw [show node.id = id from chosen]
    exact .listed chosen found stillAbsent rfl nothing
  | listed named found absent data filled => exact ⟨_, rfl, .listed named found absent data filled⟩
  | held named absent data answers => exact ⟨_, rfl, .held named absent data answers⟩
  | returned absent losesNone => exact ⟨_, rfl, .returned absent losesNone⟩

/-- The thread goes on with the node in the list, when it is filled. -/
theorem Delivering.resume (delivering : Delivering requested id state)
    (delivers : state.Delivers .resume) : ∃ next,
    performSection requested id .resume state = some next ∧ Delivering requested id next := by
  cases delivering with
  | calling chosen absent => exact ⟨_, rfl, .calling chosen absent⟩
  | @listed world node rest fed held len fmt named found absent data filled =>
    obtain ⟨answered, -⟩ := delivers _ _ rfl
    refine ⟨⟨freeNode node { world with ctx := rest }, .returned len.toInt32 (some held), [], fed,
      held.toList⟩, ?_, .returned absent ?_⟩
    · simp only [performSection, resumeWait, found, data, if_true]
    · obtain _ | ⟨first, fed⟩ := fed
      · exact absurd rfl answered
      obtain ⟨rfl, rfl, short⟩ := filled
      intro ret response returned
      obtain ⟨rfl, rfl⟩ := Wait.returned.inj returned
      refine ⟨iff_of_false (fun timeout => ?_) nofun, ?_, rfl⟩
      · have length := toInt32_toInt short
        rw [timeout] at length
        change (-1 : Int) = _ at length
        omega
      · rintro _ ⟨rfl⟩
        exact ⟨toInt32_toInt short, rfl⟩
  | held named absent data answers => exact absurd (delivers _ _ rfl).2 nofun
  | returned absent losesNone => exact ⟨_, rfl, .returned absent losesNone⟩

/-- A feed begins, and takes the node off the list. -/
theorem Delivering.lookUp (delivering : Delivering requested id state) {response : Response α}
    (delivers : state.Delivers (.lookUp response)) :
    ∃ next, performSection requested id (.lookUp response) state = some next ∧
    Delivering requested id next := by
  cases delivering with
  | calling chosen absent =>
    refine ⟨_, ?_, .calling chosen absent⟩
    simp only [performSection, Waiting.start, absent, Waiting.begun]
  | @listed world node rest fed held len fmt named found absent data filled =>
    refine ⟨⟨{ world with ctx := rest }, .waiting node.ptr id, [(response, node)],
      fed ++ [response], held.toList⟩, ?_, ?_⟩
    · simp only [performSection, found, Waiting.begun, nil_append]
    obtain _ | ⟨first, fed⟩ := fed
    · obtain ⟨rfl, rfl⟩ := filled
      exact .held named absent data (.inl rfl)
    · obtain ⟨rfl, rfl, short⟩ := filled
      obtain ⟨empty, alsoEmpty⟩ := delivers _ _ rfl ⟨nofun, rfl⟩ first rfl
      have nothing : first.delivered = none := if_pos empty
      rw [nothing, empty] at data
      rw [nothing]
      exact .held named absent data (.inr ⟨empty, alsoEmpty⟩)
  | @held world node earlier first fed fmt named absent data answers =>
    refine ⟨⟨world, .waiting node.ptr id, [(earlier, node)], first :: (fed ++ [response]), []⟩, ?_,
      .held named absent data answers⟩
    simp only [performSection, absent, Waiting.begun, cons_append]
  | returned absent losesNone =>
    refine ⟨_, ?_, .returned absent losesNone⟩
    simp only [performSection, absent, Waiting.begun]

/-- What a feeder makes of an empty node, where it gets the memory it asks for. -/
theorem feedNode_empty {node : SyncNode α κ ω} {fmt : UInt8}
    (data : node.data = .syncData none 0 false fmt) {malloc : UInt32 → Bool} {response : Response α}
    (succeeds : response.len ≠ 0 → malloc response.len = true) (world : World α κ ω) :
    feedNode malloc node response world = some { world with
            ctx :=
  addSyncNode { node with data := .syncData response.delivered response.len false response.format }
              world.ctx } ∧
      copiesFor malloc node response = response.delivered.toList := by
  unfold feedNode copiesFor Response.delivered
  rw [data]
  by_cases empty : response.len = 0
  · simp [empty]
  · simp [empty, succeeds empty]

/-- A feeder fills the node that it holds. -/
theorem Delivering.deposit (delivering : Delivering requested id state) {index : Nat}
    {malloc : UInt32 → Bool} (delivers : state.Delivers (.deposit index malloc)) :
    ∃ next, performSection requested id (.deposit index malloc) state = some next ∧
    Delivering requested id next := by
  cases delivering with
  | calling chosen absent => exact ⟨_, rfl, .calling chosen absent⟩
  | listed named found absent data filled => exact ⟨_, rfl, .listed named found absent data filled⟩
  | @held world node response first fed fmt named absent data answers =>
    cases index with
    | succ index => exact ⟨_, rfl, .held named absent data answers⟩
    | zero =>
      obtain ⟨short, succeeds⟩ := delivers _ rfl
      obtain ⟨fed', copied⟩ := feedNode_empty data succeeds world
      have filled : Filled (first :: fed) response.delivered response.len := by
        rcases answers with rfl | ⟨empty, alsoEmpty⟩
        · exact ⟨rfl, rfl, short⟩
        · refine ⟨?_, alsoEmpty.trans empty.symm, ?_⟩
          · rw [Response.delivered, Response.delivered, if_pos empty, if_pos alsoEmpty]
          · rw [empty]
            decide
      let refilled : SyncNode α κ ω :=
        { node with data := .syncData response.delivered response.len false response.format }
      have named : refilled.id = id := named
      refine ⟨⟨{ world with ctx := addSyncNode refilled world.ctx },
        .waiting refilled.ptr id, [], first :: fed, response.delivered.toList⟩, ?_,
        .listed named (removeSyncNode_addSyncNode named _) absent rfl filled⟩
      simp only [performSection, List.getElem?_cons_zero, fed', copied, map_some,
        eraseIdx_cons_zero, nil_append]
      rfl
  | returned absent losesNone => exact ⟨_, rfl, .returned absent losesNone⟩

/-- A section that delivers is performed, and the node is where the feeds and the wait expect it. -/
theorem Delivering.performSection (delivering : Delivering requested id state)
    {event : Section α} (delivers : state.Delivers event) :
    ∃ next, performSection requested id event state = some next ∧ Delivering requested id next := by
  cases event with
  | register => exact delivering.register
  | resume => exact delivering.resume delivers
  | lookUp response => exact delivering.lookUp delivers
  | deposit index malloc => exact delivering.deposit delivers

theorem Delivering.losesNone (delivering : Delivering requested id state) : state.LosesNone := by
  cases delivering with
  | calling chosen absent => exact nofun
  | listed named found absent data filled => exact nofun
  | held named absent data answers => exact nofun
  | returned absent losesNone => exact losesNone

/-- In every run whose sections all deliver, the wait loses no response. -/
theorem bhWaitResponse_losesNone {world : World α κ ω}
    {events : List (Section α)} {final : Waiting α κ ω}
    (alone : ∀ node ∈ world.ctx.list, node.id ≠ (chooseId requested world.ctx).1)
    (runs : RunsUnder (Trans.performSection requested (chooseId requested world.ctx).1)
      Waiting.Delivers (.start world) events final) : final.LosesNone := by
  refine Delivering.losesNone (runs.keeps ?_ (.calling rfl (removeSyncNode_eq_none.mpr alone)))
  intro state next event delivering delivers performed
  obtain ⟨state, performed', kept⟩ := delivering.performSection delivers
  obtain rfl := some.inj (performed'.symm.trans performed)
  exact kept

/-- A wait for the id 5, with nothing outstanding besides. -/
def sampleWait (events : List (Section Nat)) : Option (Waiting Nat Unit Unit) :=
  runAll (performSection 5 5) events (.start (.start 0))

/-- A feed between the registration and the end of the wait. -/
def sampleFeed (response : Response Nat) : List (Section Nat) :=
  [.lookUp response, .deposit 0 fun _ => true]

/-- The response comes while the thread waits. -/
def sampleSections : List (Section Nat) := .register :: sampleFeed ⟨some 7, 4, 0⟩ ++ [.resume]

theorem bhWaitResponse_losesNone_fed : ∃ final : Waiting Nat Unit Unit,
    RunsUnder (performSection 5 5) Waiting.Delivers (.start (.start 0)) sampleSections final ∧
    final.LosesNone := by
  have runs : ∃ final : Waiting Nat Unit Unit,
      RunsUnder (performSection 5 5) Waiting.Delivers (.start (.start 0)) sampleSections final := by
    refine ⟨_, .call trivial rfl (.call ?_ rfl (.call ?_ rfl (.call ?_ rfl (.done _))))⟩
    · rintro ptr id - ⟨none, -⟩
      exact absurd rfl none
    · rintro feeder ⟨rfl⟩
      exact ⟨by decide, fun _ => rfl⟩
    · exact fun ptr id _ => ⟨nofun, rfl⟩
  obtain ⟨final, runs⟩ := runs
  exact ⟨final, runs,
    bhWaitResponse_losesNone (show ∀ node ∈ (World.start 0).ctx.list, node.id ≠ 5 from nofun) runs⟩

/-- A wait that times out returns 0 and not `-1`; of two responses it returns the second one, and
the copy of the first is lost; and a feed under way at the timeout gets it `-1`. -/
theorem bhWaitResponse_loses :
    (∃ final, sampleWait [.register, .resume] = some final ∧ ¬final.LosesNone) ∧
    (∃ final, sampleWait (.register :: sampleFeed ⟨some 7,
      4, 0⟩ ++ sampleFeed ⟨some 8, 2, 0⟩ ++ [.resume]) = some final ∧ ¬final.LosesNone) ∧ ∃ final,
    sampleWait [.register, .lookUp ⟨some 7, 4, 0⟩, .resume] = some final ∧ ¬final.LosesNone := by
  refine ⟨⟨_, rfl, fun losesNone => ?_⟩, ⟨_, rfl, fun losesNone => ?_⟩,
    ⟨_, rfl, fun losesNone => ?_⟩⟩
  · exact absurd ((losesNone _ _ rfl).1.mpr rfl) (by decide)
  · exact absurd (losesNone _ _ rfl).2.2 (by decide)
  · exact absurd ((losesNone _ _ rfl).1.mp rfl) nofun

end Sections

end Idrm.Trans
