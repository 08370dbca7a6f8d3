import Idrm.Coap.RequestHandler
import Idrm.Lib.Inevitable
import Idrm.Plugin.RequestService

/-!
# Dispatch in a plugin

`idrm_handle_bus_message` walks the table of registered handlers up to an entry
  whose url matches and
that serves the action. It steps forward at the end of a round only: an entry that
  matches and serves
neither the action nor the rest is looked at again in the next round.
-/

namespace Idrm.Plugin

open Idrm.Lib Idrm.Bus Idrm.Coap

/-- `T_Default` -/
def tDefault : Nat := 0

/-- `T_Post` -/
def tPost : Nat := 2

/-- `MAX_RESTFUL_ACTION` -/
def maxRestfulAction : Nat := 5

section Dispatch

variable {H : Type}

/-- `resource_handler_node_t` -/
structure ResourceHandlerNode (H : Type) where
  url : CString
  resHandlers : Nat → Option H

/-- The handler for an action, or else the default one. -/
def ResourceHandlerNode.handlerFor (action : Nat) (node : ResourceHandlerNode H) : Option H :=
  match node.resHandlers action with
  | some handler => some handler
  | none => node.resHandlers tDefault

/-- The entry of a url gets a handler, if there is one. -/
def setHandler (url : CString) (handler : Option H) (action : Nat) :
    List (ResourceHandlerNode H) → Option (List (ResourceHandlerNode H))
  | [] => none
  | node :: rest =>
    if node.url = url then
      some ({ node with resHandlers := Function.update node.resHandlers action handler } :: rest)
    else (setHandler url handler action rest).map (node :: ·)

/-- `idrm_register_resource_handler`, on the table. -/
def idrmRegisterResourceHandler (url : CString) (handler : Option H) (action : Nat)
    (table : List (ResourceHandlerNode H)) : Option (List (ResourceHandlerNode H)) :=
  if maxRestfulAction ≤ action then none
  else some ((setHandler url handler action table).getD
    (⟨url, Function.update (fun _ => none) action handler⟩ :: table))

/-- `framework_ctx_t`, as far as requests and events go. `internalQueue` tells whether
`internal_queue` is not `NULL`; what is posted there reaches nobody (`createDlist`). -/
structure Framework (H : Type) where
  moduleName : CString
  internalQueue : Bool
  resourcesHandlers : List (ResourceHandlerNode H)

/-- What a message leads to. -/
inductive Effect (H : Type) where
  /-- the message is posted to the working thread, as an event or as a request -/
  | posted (event : Bool) (message : BusMessage) (handler : H)
  | calledForEvent (handler : H) (request : RestfulRequest)
  | calledForRequest (handler : H) (request : RestfulRequest)
  | published (message : BusMessage)

/-- The message is passed to a handler; `answers` is the response of a handler, if it has one. -/
def Framework.pass (answers : H → RestfulRequest → Option RestfulResponse) (framework : Framework H)
    (event : Bool) (message : BusMessage) (handler : H) : List (Effect H) :=
  let request := decodeRequest message
  if framework.internalQueue then [.posted event message handler]
  else if event then [.calledForEvent handler request]
  else
    let response := answers handler request
    .calledForRequest handler request :: (response.map fun response =>
      .published (encodeResponse
        { response with mid := request.mid, destModule := message.properties .src })).toList

/-- The action and the uri that the table is searched for, and whether the message is an event;
`none` for a message that is neither an event nor a request to this module, or lacks something. -/
def Framework.target (framework : Framework H) (message : BusMessage) :
    Option (Bool × Nat × CString) :=
  let properties := message.properties
  if (properties .dest).any (· ≠ framework.moduleName) then none
  else
    let event := decide (properties .tag = some tagEvent)
    if ¬event ∧ ¬(properties .tag = some tagRestReq ∧ (properties .src).isSome ∧
      (properties .mid).isSome) then none
    else
      let action := match properties .action with
        | none => if event then some tPost else none
        | some action => (actionFromString action).filter (· < maxRestfulAction)
      match action, properties .uri with
      | some action, some uri => some (event, action, uri)
      | _, _ => none

/-- `idrm_handle_bus_message` stands at an entry of the table, or has ended. -/
inductive Handling (H : Type) where
  | searching (event : Bool) (action : Nat) (uri : CString) (node : List (ResourceHandlerNode H))
  | ended (effects : List (Effect H))

/-- `idrm_handle_bus_message`, up to its loop. -/
def Framework.idrmHandleBusMessage (framework : Framework H) (message : BusMessage) : Handling H :=
  match framework.target message with
  | none => .ended []
  | some (event, action, uri) => .searching event action uri framework.resourcesHandlers

/-- One round of the loop. -/
def Framework.round (answers : H → RestfulRequest → Option RestfulResponse)
    (framework : Framework H) (message : BusMessage) : Handling H → Option (Handling H)
  | .searching _ _ _ [] => some (.ended [])
  | .searching event action uri (node :: rest) =>
    if matchUrl node.url uri then
      match node.handlerFor action with
      -- `continue` goes on with the same entry
      | none => some (.searching event action uri (node :: rest))
      | some handler => some (.ended (framework.pass answers event message handler))
    else some (.searching event action uri rest)
  | .ended _ => none

/-! ## The right handler -/

/-- The first handler whose url matches, for the action or for all. -/
def rightHandler (action : Nat) (uri : CString) (table : List (ResourceHandlerNode H)) : Option H :=
  table.findSome? fun node => if matchUrl node.url uri then node.handlerFor action else none

/-- What a message should lead to. -/
def Framework.rightEffects (answers : H → RestfulRequest → Option RestfulResponse)
    (framework : Framework H) (message : BusMessage) : List (Effect H) :=
  match framework.target message with
  | none => []
  | some (event, action, uri) =>
    ((rightHandler action uri framework.resourcesHandlers).map
      (framework.pass answers event message)).getD []

/-- The loop ends, and the right handler got the message. -/
def Framework.Dispatches (answers : H → RestfulRequest → Option RestfulResponse)
    (framework : Framework H) (message : BusMessage) : Prop :=
  Inevitably (fun state next => framework.round answers message state = some next)
    (fun state => state = .ended (framework.rightEffects answers message))
    (framework.idrmHandleBusMessage message)

/-- The first entry whose url matches serves the action. -/
def FirstServes (action : Nat) (uri : CString) (table : List (ResourceHandlerNode H)) : Prop :=
  ∀ node, table.find? (fun node => matchUrl node.url uri) = some node →
    (node.handlerFor action).isSome

section Rounds

variable {answers : H → RestfulRequest → Option RestfulResponse} {framework : Framework H}
  {message : BusMessage}

/-- The loop from an entry on. -/
theorem inevitably_searching_iff (event : Bool)
    (action : Nat) (uri : CString) (table : List (ResourceHandlerNode H)) :
    Inevitably (fun state next => framework.round answers message state = some next)
      (fun state => state = .ended
      (((rightHandler action uri table).map (framework.pass answers event message)).getD []))
      (.searching event action uri table) ↔
      FirstServes action uri table := by
  induction table with
  | nil =>
    refine iff_of_true (.after ⟨_, rfl⟩ fun next stepped => .here ?_) fun node found => ?_
    · exact (Option.some.inj stepped).symm
    · cases found
  | cons node rest ih =>
    by_cases named : matchUrl node.url uri = true
    · have found : (node :: rest).find? (fun node => matchUrl node.url uri) = some node :=
        List.find?_cons_of_pos named
      cases serves : node.handlerFor action with
      | none =>
        have again : framework.round answers message (.searching event action uri (node :: rest)) =
            some (.searching event action uri (node :: rest)) := by
          rw [Framework.round, if_pos named, serves]
        refine iff_of_false ?_ fun first => ?_
        · refine @not_inevitably _ _ _ _ (fun state =>
            state = .searching event action uri (node :: rest)) ?_ ?_ rfl
          · rintro _ rfl ended
            cases ended
          · rintro _ rfl
            exact ⟨_, again, rfl⟩
        · have served := first node found
          rw [serves] at served
          cases served
      | some handler =>
        have ends : framework.round answers message (.searching event action uri (node :: rest)) =
            some (.ended (framework.pass answers event message handler)) := by
          rw [Framework.round, if_pos named, serves]
        have right : rightHandler action uri (node :: rest) = some handler := by
          rw [rightHandler, List.findSome?_cons, if_pos named, serves]
        refine iff_of_true (.after ⟨_, ends⟩ fun next stepped => .here ?_) fun other isOther => ?_
        · rw [right]
          exact Option.some.inj (stepped.symm.trans ends)
        · rw [← Option.some.inj (found.symm.trans isOther), serves]
          rfl
    · have goesOn : framework.round answers message (.searching event action uri (node :: rest)) =
          some (.searching event action uri rest) := by
        rw [Framework.round, if_neg named]
      have right : rightHandler action uri (node :: rest) = rightHandler action uri rest := by
        rw [rightHandler, List.findSome?_cons, if_neg named]
        rfl
      have first : FirstServes action uri (node :: rest) ↔ FirstServes action uri rest := by
        have skips : (node :: rest).find? (fun node => matchUrl node.url uri) = rest.find?
            fun node => matchUrl node.url uri :=
          List.find?_cons_of_neg named
        rw [FirstServes, skips]
        rfl
      rw [right, first, ← ih]
      refine inevitably_next (fun next => ?_) fun ended => ?_
      · rw [goesOn, Option.some_inj, eq_comm]
      · cases ended

end Rounds

/-- Whatever handlers are registered, the loop ends with the right handler exactly if the first
entry whose url matches the message serves its action. -/
theorem Framework.dispatches_iff (answers : H → RestfulRequest → Option RestfulResponse)
    (framework : Framework H) (message : BusMessage) : framework.Dispatches answers message ↔
    ∀ event action uri, framework.target message = some (event, action, uri) →
    FirstServes action uri framework.resourcesHandlers := by
  unfold Framework.Dispatches Framework.rightEffects Framework.idrmHandleBusMessage
  cases found : framework.target message with
  | none =>
    refine iff_of_true (.here rfl) fun event action uri impossible => ?_
    cases impossible
  | some target =>
    obtain ⟨event, action, uri⟩ := target
    refine (inevitably_searching_iff event action uri framework.resourcesHandlers).trans
      ⟨fun first _ _ _ same => ?_, fun first => ?_⟩
    · cases same
      exact first
    · exact first event action uri rfl

end Dispatch

/-- `"/a"` -/
def urlA : CString := .ofBytes [0x2F, 0x61]

/-- A request from the module `"m"` for `"/a"`. -/
def requestA (action : Nat) : BusMessage :=
  let properties : Properties := fun _ => none
  let properties := properties.addOrUpdate .tag tagRestReq
  let properties := properties.addOrUpdate .src (.ofBytes [0x6D])
  let properties := properties.addOrUpdate .mid (.ofBytes [0x31])
  let properties := properties.addOrUpdate .action (restActionStr action)
  ⟨properties.addOrUpdate .uri urlA, []⟩

/-- A plugin that serves `GET` of `"/a"`. -/
def getOnly : Framework Unit :=
  ⟨.empty, false, [⟨urlA, Function.update (fun _ => none) 1 (some ())⟩]⟩

/-- One handler is registered, for `GET`; a `POST` of its url keeps the loop at its entry for
ever. -/
theorem dispatches_otherAction_fails :
    idrmRegisterResourceHandler urlA (some ()) 1 [] = some getOnly.resourcesHandlers ∧
    getOnly.idrmHandleBusMessage (requestA tPost) =
      .searching false tPost urlA getOnly.resourcesHandlers ∧
    getOnly.round (fun _ _ => none) (requestA tPost) (.searching false tPost urlA
      getOnly.resourcesHandlers) = some (.searching false tPost urlA getOnly.resourcesHandlers) ∧
    ¬ getOnly.Dispatches (fun _ _ => none) (requestA tPost) := by
  have starts : getOnly.idrmHandleBusMessage (requestA tPost) =
      .searching false tPost urlA getOnly.resourcesHandlers := by
    rfl
  have again : getOnly.round
      (fun _ _ => none) (requestA tPost) (.searching false tPost urlA getOnly.resourcesHandlers) =
      some (.searching false tPost urlA getOnly.resourcesHandlers) := by
    rfl
  refine ⟨rfl, starts, again, ?_⟩
  rw [Framework.Dispatches, starts]
  refine @not_inevitably _ _ _ _ (fun state =>
    state = .searching false tPost urlA getOnly.resourcesHandlers) ?_ ?_ rfl
  · rintro _ rfl ended
    cases ended
  · rintro _ rfl
    exact ⟨_, again, rfl⟩

end Idrm.Plugin
