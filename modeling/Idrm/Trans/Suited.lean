import Idrm.Trans.Sync

/-!
# Responses made for their callbacks

`bh_feed_response` hands a response to the node that has its id, whoever registered it.
`Suited` says that every callback that ran, and every posted one that still will, has a
response of the kind it was written for. A call keeps this as long as it feeds no response
to a callback it does not suit; a timeout suits every callback.
-/

namespace Idrm.Trans

open List

section Suited

variable {α κ ω : Type}

/-- The callback of a node, if it has one. -/
def SyncNode.callback (node : SyncNode α κ ω) : Option κ :=
  match node.data with
  | .syncData .. => none
  | .cbData cb _ => cb

/-- The callback a response with an id would be handed to. -/
def World.answers (id : UInt32) (world : World α κ ω) : Option κ :=
  (unlinkFirst id world.ctx.list).bind fun (node, _) => node.callback

/-- Callbacks ran, and will run, only with responses that suit them. -/
structure Suited (suits : κ → Response α → Prop) (world : World α κ ω) : Prop where
  posted : ∀ callback ∈ world.posted, ∀ cb ∈ callback.transaction.callback,
    suits cb callback.response
  invoked : ∀ invocation ∈ world.invoked, suits invocation.cb invocation.response

variable {suits : κ → Response α → Prop} {world next : World α κ ω}

theorem suited_start (now : UInt64) : Suited suits (World.start now : World α κ ω) where
  posted _ member := absurd member not_mem_nil
  invoked _ member := absurd member not_mem_nil

variable {response : Response α} {node : SyncNode α κ ω}

theorem Suited.invoke (suited : Suited suits world) {cb : Option κ}
    (fits : ∀ callback ∈ cb, suits callback response) :
    Suited suits (invoke node cb response world) := by
  cases cb with
  | none => exact suited
  | some callback =>
    refine ⟨suited.posted, fun invocation member => ?_⟩
    rcases mem_append.mp member with before | new
    · exact suited.invoked invocation before
    · rw [mem_singleton.mp new]
      exact fits callback rfl

theorem Suited.post (suited : Suited suits world) {cb : Option κ} {workThread : ω}
    (fits : ∀ callback ∈ cb, suits callback response) :
    Suited suits (post node cb workThread response world) := by
  refine ⟨fun callback member => ?_, suited.invoked⟩
  rcases mem_append.mp member with before | new
  · exact suited.posted callback before
  · rw [mem_singleton.mp new]
    exact fits

theorem Suited.free (suited : Suited suits world) (node : SyncNode α κ ω) :
    Suited suits (freeNode node world) :=
  ⟨suited.posted, suited.invoked⟩

theorem Suited.feedTransaction (suited : Suited suits world)
    (fits : ∀ cb ∈ node.callback, suits cb response)
    (fed : bhFeedTransaction node response world = some next) : Suited suits next := by
  unfold bhFeedTransaction at fed
  unfold SyncNode.callback at fits
  split at fed
  · rename_i cb data
    rw [data] at fits
    cases fed
    exact (suited.invoke fits).free node
  · cases fed
  · cases fed
    exact suited.free node

/-- A response keeps a world suited where it suits the callback with its id. -/
theorem Suited.feedResponse (suited : Suited suits world)
    {malloc : UInt32 → Bool} {id : UInt32} (fits : ∀ cb ∈ world.answers id, suits cb response)
    (fed : bhFeedResponse malloc id response world = some next) : Suited suits next := by
  unfold bhFeedResponse at fed
  split at fed
  · cases fed
    exact suited
  · rename_i node ctx removed
    obtain ⟨⟨found, rest⟩, unlinked, built⟩ := Option.map_eq_some_iff.mp removed
    cases built
    have fitsNode : ∀ cb ∈ node.callback, suits cb response := by
      intro cb member
      refine fits cb ?_
      rw [World.answers, unlinked]
      exact member
    have unlinkedSuited : Suited suits
        { world with ctx := { world.ctx with list := rest, cnt := world.ctx.cnt - 1 } } :=
      ⟨suited.posted, suited.invoked⟩
    dsimp only at fed
    split at fed
    · split at fed
      · cases fed
        exact unlinkedSuited.free node
      · cases fed
        exact ⟨suited.posted, suited.invoked⟩
    · rename_i cb workThread data
      cases fed
      refine unlinkedSuited.post fun callback member => fitsNode callback ?_
      rw [SyncNode.callback, data]
      exact member
    · exact unlinkedSuited.feedTransaction fitsNode fed

theorem Suited.handleExpired (timeout : ∀ cb, suits cb ⟨none, 0, tEmpty⟩)
    {expired : List (SyncNode α κ ω)}
    (suited : Suited suits world) : Suited suits (expired.foldl handleExpiredNode world) := by
  induction expired generalizing world with
  | nil => exact suited
  | cons node rest ih =>
    refine ih ?_
    unfold handleExpiredNode
    split
    · exact suited.post fun cb _ => timeout cb
    · exact (suited.invoke fun cb _ => timeout cb).free node
    · exact suited.free node

theorem Suited.handleExpiredTrans (timeout : ∀ cb, suits cb ⟨none, 0, tEmpty⟩)
    (suited : Suited suits world)
    (now : UInt64) : Suited suits (bhHandleExpiredTrans now world).2 :=
  Suited.handleExpired timeout ⟨suited.posted, suited.invoked⟩

theorem Suited.executeCallbackNode (suited : Suited suits world) {index : Nat}
    (executed : executeCallbackNode index world = some next) : Suited suits next := by
  unfold Trans.executeCallbackNode at executed
  split at executed
  · cases executed
    exact suited
  · rename_i callback found
    have remaining : Suited suits { world with posted := world.posted.eraseIdx index } :=
      ⟨fun other left => suited.posted other (mem_of_mem_eraseIdx left), suited.invoked⟩
    exact remaining.feedTransaction (suited.posted callback (mem_of_getElem? found)) executed

end Suited

end Idrm.Trans
