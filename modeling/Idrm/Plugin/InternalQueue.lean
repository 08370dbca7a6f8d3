import Mathlib.Data.List.Infix
import Idrm.Plugin.Dispatch

/-!
# The internal queues

The working thread of a plugin and the ports thread of the agent take elements from a queue until
`dlist_get` returns `NULL`. It does so for an empty queue, and also when it has run a callback or a
handler itself. Other threads, and the handlers, post to the queue in the meantime. The agent's
queue is a static one; a plugin's comes from `create_dlist`, which does not return it.
-/

namespace Idrm.Plugin

open Idrm.Lib Idrm.Bus List

/-- `dlist_node_t`, by its `E_Msg_Type`; `C` is what `dlist_get` can run. -/
inductive DlistNode (C H : Type) where
  /-- `T_Callback` -/
  | callback (callback : C)
  /-- `T_Message_Handler`, a handler with its message -/
  | messageHandler (call : C)
  /-- `T_Bus_Message` -/
  | busMessage (message : BusMessage)
  /-- `T_MESSAGE_REQUEST` -/
  | messageRequest (message : BusMessage) (handler : H)
  /-- `T_MESSAGE_EVENT` -/
  | messageEvent (message : BusMessage) (handler : H)

/-- What is done with an element of a queue. -/
inductive QueueEffect (C H : Type) where
  /-- `execute_callback_node`, or the call of a `T_Message_Handler` -/
  | executed (call : C)
  | calledForEvent (handler : H) (request : RestfulRequest)
  | calledForRequest (handler : H) (request : RestfulRequest)
  | published (message : BusMessage)
  /-- the element is freed, and nothing else -/
  | dropped

section Queues

variable {C H : Type}

/-- An element with what is done with it. -/
abbrev HandledNode (C H : Type) := DlistNode C H × List (QueueEffect C H)

/-- `dlist_get`: the element it returns, the one it has run itself, and the queue behind it. -/
def dlistGet : List (DlistNode C H) →
    Option (DlistNode C H) × List (HandledNode C H) × List (DlistNode C H)
  | [] => (none, [], [])
  | .callback callback :: rest => (none, [(.callback callback, [.executed callback])], rest)
  | .messageHandler call :: rest => (none, [(.messageHandler call, [.executed call])], rest)
  | node :: rest => (some node, [], rest)

/-- A pass over the queue. -/
structure QueuePass (C H : Type) where
  queue : List (DlistNode C H)
  handled : List (HandledNode C H)
  ended : Bool

/-- A round of a loop that leaves on a `NULL` of `dlist_get`; `handles` is its body. -/
def QueuePass.round (handles : DlistNode C H → List (QueueEffect C H)) (pass : QueuePass C H) :
    QueuePass C H :=
  match dlistGet pass.queue with
  | (none, ran, rest) => ⟨rest, pass.handled ++ ran, true⟩
  | (some node, ran, rest) => ⟨rest, pass.handled ++ ran ++ [(node, handles node)], false⟩

/-- A request or an event in the working thread; a request with the message id -1 is taken for an
event. `answers` is the response of a handler, if it has one. -/
def callHandler (answers : H → RestfulRequest → Option RestfulResponse) (event : Bool)
    (message : BusMessage) (handler : H) : List (QueueEffect C H) :=
  let request := decodeRequest message
  if request.mid = -1 ∨ event = true then [.calledForEvent handler request]
  else
    let response := answers handler request
    .calledForRequest handler request :: (response.map fun response =>
      .published (encodeResponse
        { response with mid := request.mid, destModule := request.srcModule })).toList

/-- The body of the loop in `idrm_process_in_working_thread`. -/
def workingThreadBody (answers : H → RestfulRequest → Option RestfulResponse) :
    DlistNode C H → List (QueueEffect C H)
  | .messageRequest message handler => callHandler answers false message handler
  | .messageEvent message handler => callHandler answers true message handler
  | _ => [.dropped]

/-- A round of `idrm_process_in_working_thread`. -/
def idrmProcessRound (answers : H → RestfulRequest → Option RestfulResponse) :
    QueuePass C H → QueuePass C H :=
  QueuePass.round (workingThreadBody answers)

/-- Whose queue it is: the agent's, or a plugin's, whose framework was made with a separate thread
or without. -/
inductive QueueOwner where
  | agent
  | plugin (separateThread : Bool)

/-- A round of `check_internal_message`. -/
def checkInternalRound : QueuePass C H → QueuePass C H := QueuePass.round fun _ => [.dropped]

/-- The pass after some rounds; `posted` is what is posted before each of them, since the one before
it. -/
def passAfter (round : QueuePass C H → QueuePass C H) (posted : Nat → List (DlistNode C H))
    (queue : List (DlistNode C H)) : Nat → QueuePass C H
  | 0 => ⟨queue, [], false⟩
  | rounds + 1 =>
    let before := passAfter round posted queue rounds
    let found := { before with queue := before.queue ++ posted rounds }
    if found.ended then found else round found

/-! ## What a pass handles -/

/-- Elements that `dlist_get` runs itself. -/
def DlistNode.runs : DlistNode C H → Bool
  | .callback _ => true
  | .messageHandler _ => true
  | _ => false

/-- What should be done with an element by a loop with a body. -/
def handlingOf (handles : DlistNode C H → List (QueueEffect C H)) : DlistNode C H → HandledNode C H
  | .callback callback => (.callback callback, [.executed callback])
  | .messageHandler call => (.messageHandler call, [.executed call])
  | node => (node, handles node)

/-- Every element that was in the queue at the start is handled in the pass, in order and before any
other. -/
def Drains (round : QueuePass C H → QueuePass C H)
    (handles : DlistNode C H → List (QueueEffect C H))
    (posted : Nat → List (DlistNode C H)) (queue : List (DlistNode C H)) : Prop :=
  ∃ rounds, queue.map (handlingOf handles) <+: (passAfter round posted queue rounds).handled

/-- The elements that were posted in the first rounds. -/
def postedBefore (posted : Nat → List (DlistNode C H)) (rounds : Nat) : List (DlistNode C H) :=
  (List.range rounds).flatMap posted

variable {handles : DlistNode C H → List (QueueEffect C H)} {posted : Nat → List (DlistNode C H)}
  {queue : List (DlistNode C H)}

@[simp] theorem handlingOf_fst (node : DlistNode C H) : (handlingOf handles node).1 = node := by
  cases node <;> rfl

/-- A round on an empty queue ends the pass. -/
theorem round_empty (handled : List (HandledNode C H)) (ended : Bool) :
    QueuePass.round handles ⟨[], handled, ended⟩ = ⟨[], handled, true⟩ := by
  simp [QueuePass.round, dlistGet]

/-- A round handles the first element, and ends the pass if `dlist_get` runs it itself. -/
theorem round_cons (node : DlistNode C H) (rest : List (DlistNode C H))
    (handled : List (HandledNode C H)) (ended : Bool) : QueuePass.round handles ⟨node :: rest,
      handled, ended⟩ = ⟨rest, handled ++ [handlingOf handles node], node.runs⟩ := by
  cases node <;> simp [QueuePass.round, dlistGet, handlingOf, DlistNode.runs]

/-- The elements that a pass has handled. -/
abbrev QueuePass.taken (pass : QueuePass C H) : List (DlistNode C H) := pass.handled.map Prod.fst

/-- What holds of a pass after some rounds. -/
structure Passed (handles : DlistNode C H → List (QueueEffect C H)) (came : List (DlistNode C H))
    (queue : List (DlistNode C H)) (rounds : Nat) (pass : QueuePass C H) : Prop where
  /-- Every element is either still queued or was taken, in the order in which they came. -/
  inOrder : pass.taken ++ pass.queue = came
  asShould : pass.handled = pass.taken.map (handlingOf handles)
  /-- A pass that goes on has handled one element a round, and none that `dlist_get` runs. -/
  goesOn : pass.ended = false → pass.handled.length = rounds ∧ ∀ node ∈ pass.taken,
    node.runs = false
  /-- A pass ends behind the first element that `dlist_get` runs, or when there is none left. -/
  ends : pass.ended = true → (∀ node ∈ pass.taken.dropLast, node.runs = false) ∧
    ((∃ node, pass.taken.getLast? = some node ∧ node.runs = true) ∨ queue <+: pass.taken)

/-- The next round. -/
theorem Passed.round {came more : List (DlistNode C H)} {rounds : Nat} {pass : QueuePass C H}
    (passed : Passed handles came queue rounds pass) (started : queue <+: came)
    (running : pass.ended = false) : Passed handles (came ++ more) queue (rounds + 1)
    (QueuePass.round handles { pass with queue := pass.queue ++ more }) := by
  obtain ⟨inOrder, asShould, goesOn, -⟩ := passed
  obtain ⟨length, plain⟩ := goesOn running
  obtain ⟨waiting, handled, ended⟩ := pass
  cases found : waiting ++ more with
  | nil =>
    obtain ⟨rfl, rfl⟩ := append_eq_nil_iff.mp found
    have allTaken : handled.map Prod.fst = came := (append_nil _).symm.trans inOrder
    rw [round_empty, append_nil]
    refine ⟨inOrder, asShould, ?_,
      fun _ => ⟨fun node member => plain node (dropLast_subset _ member), .inr ?_⟩⟩
    · intro impossible
      cases impossible
    · rw [← allTaken] at started
      exact started
  | cons node rest =>
    rw [round_cons]
    have taken :
        (handled ++ [handlingOf handles node]).map Prod.fst = handled.map Prod.fst ++ [node] := by
      rw [map_append, map_cons, map_nil, handlingOf_fst]
    refine ⟨?_, ?_, fun goes => ⟨?_, ?_⟩, fun stops => ⟨?_, .inl ⟨node, ?_, stops⟩⟩⟩
    · change (handled ++ [handlingOf handles node]).map Prod.fst ++ rest = came ++ more
      rw [taken, append_assoc, singleton_append, ← found, ← append_assoc]
      exact congrArg (· ++ more) inOrder
    · change handled ++ [handlingOf handles node] =
        ((handled ++ [handlingOf handles node]).map Prod.fst).map (handlingOf handles)
      rw [taken, map_append]
      exact congrArg (· ++ [handlingOf handles node]) asShould
    · change (handled ++ [handlingOf handles node]).length = rounds + 1
      rw [length_append, length_singleton]
      exact congrArg (· + 1) length
    · change ∀ other ∈ (handled ++ [handlingOf handles node]).map Prod.fst, other.runs = false
      rw [taken]
      intro other member
      rcases mem_append.mp member with earlier | last
      · exact plain other earlier
      · rw [mem_singleton.mp last]
        exact goes
    · change ∀ other ∈ ((handled ++ [handlingOf handles node]).map Prod.fst).dropLast,
        other.runs = false
      rw [taken, dropLast_concat]
      exact plain
    · change ((handled ++ [handlingOf handles node]).map Prod.fst).getLast? = some node
      rw [taken, List.getLast?_concat]

/-- The pass after every number of rounds. -/
theorem passed_passAfter (handles : DlistNode C H → List (QueueEffect C H))
    (posted : Nat → List (DlistNode C H)) (queue : List (DlistNode C H)) (rounds : Nat) :
    Passed handles (queue ++ postedBefore posted rounds) queue rounds
      (passAfter (QueuePass.round handles) posted queue rounds) := by
  induction rounds with
  | zero =>
    refine ⟨?_, rfl, fun _ => ⟨rfl, ?_⟩, ?_⟩
    · simp [passAfter, postedBefore]
    · intro node member
      cases member
    · intro impossible
      cases impossible
  | succ rounds ih =>
    have grown : queue ++ postedBefore posted (rounds + 1) = queue ++ postedBefore posted rounds ++
        posted rounds := by
      rw [postedBefore, range_succ, flatMap_append, ← postedBefore, append_assoc]
      simp
    rw [passAfter, grown]
    dsimp only
    cases running : (passAfter (QueuePass.round handles) posted queue rounds).ended with
    | false =>
      rw [if_neg Bool.false_ne_true]
      exact ih.round (prefix_append _ _) running
    | true =>
      rw [if_pos rfl]
      obtain ⟨inOrder, asShould, -, ends⟩ := ih
      refine ⟨?_, asShould, ?_, fun _ => ends running⟩
      · rw [← inOrder, append_assoc]
      · intro goes
        cases goes

/-- Whatever is posted in the meantime, a pass handles what was queued at its start exactly if no
element before the last one is run by `dlist_get` itself. -/
theorem drains_iff (handles : DlistNode C H → List (QueueEffect C H))
    (posted : Nat → List (DlistNode C H))
    (queue : List (DlistNode C H)) : Drains (QueuePass.round handles) handles posted queue ↔
    ∀ node ∈ queue.dropLast, node.runs = false := by
  constructor
  · rintro ⟨rounds, shown⟩ node member
    obtain ⟨-, asShould, goesOn, ends⟩ := passed_passAfter handles posted queue rounds
    have first : queue <+: (passAfter (QueuePass.round handles) posted queue rounds).taken := by
      have names : (queue.map (handlingOf handles)).map Prod.fst = queue := by
        simp [Function.comp_def]
      have shownTaken := shown.map Prod.fst
      rw [names] at shownTaken
      exact shownTaken
    have earlier :
        node ∈ (passAfter (QueuePass.round handles) posted queue rounds).taken.dropLast := by
      obtain ⟨later, split⟩ := first
      rw [← split]
      cases later with
      | nil => exact (append_nil queue).symm ▸ member
      | cons next others =>
        rw [dropLast_append_of_ne_nil (cons_ne_nil next others)]
        exact mem_append_left _ (dropLast_subset _ member)
    cases running : (passAfter (QueuePass.round handles) posted queue rounds).ended with
    | false => exact (goesOn running).2 node (dropLast_subset _ earlier)
    | true => exact (ends running).1 node earlier
  · intro plain
    refine ⟨queue.length, ?_⟩
    obtain ⟨inOrder, asShould, goesOn, ends⟩ := passed_passAfter handles posted queue queue.length
    have all : queue <+: (passAfter (QueuePass.round handles) posted queue queue.length).taken := by
      have isPrefix := inOrder ▸
        prefix_append (passAfter (QueuePass.round handles) posted queue queue.length).taken _
      refine prefix_of_prefix_length_le (prefix_append queue _) isPrefix ?_
      cases running : (passAfter (QueuePass.round handles) posted queue queue.length).ended with
      | false => rw [length_map, (goesOn running).1]
      | true =>
        rcases (ends running).2 with ⟨node, last, runs⟩ | done
        · by_contra shorter
          obtain ⟨rest, split⟩ :=
            prefix_of_prefix_length_le isPrefix (prefix_append queue _) (by omega)
          have filled : rest ≠ [] := by
            rintro rfl
            rw [append_nil] at split
            exact shorter (congrArg List.length split).ge
          have inside : node ∈ queue.dropLast := by
            rw [← split, dropLast_append_of_ne_nil filled]
            exact mem_append_left _ (mem_of_getLast? last)
          exact Bool.false_ne_true ((plain node inside).symm.trans runs)
        · exact done.length_le
    rw [asShould]
    exact all.map _

/-- One call handles what was queued at its start. A plugin has to have a framework, and its loop
runs only if `internal_queue` is not `NULL`. -/
def OneCallDrains (answers : H → RestfulRequest → Option RestfulResponse)
    (posted : Nat → List (DlistNode C H)) (queue : List (DlistNode C H)) : QueueOwner → Prop
  | .agent => Drains checkInternalRound (fun _ => [.dropped]) posted queue
  | .plugin separateThread => ∃ internalQueue : Option Unit,
      initInternalQueue separateThread = some internalQueue ∧ (internalQueue.isSome →
      Drains (idrmProcessRound answers) (workingThreadBody answers) posted queue)

/-- In the agent's queue no element before the last one is run by `dlist_get` itself; a plugin has
no separate thread. -/
def QueueOwner.Allows (queue : List (DlistNode C H)) : QueueOwner → Prop
  | .agent => ∀ node ∈ queue.dropLast, node.runs = false
  | .plugin separateThread => separateThread = false

/-- One call of `check_internal_message` handles what was queued at its start exactly if no element
before the last one is a callback or has a handler of its own, and what it handled is what came, in
order, up to what is still queued. One call of `idrm_process_in_working_thread` has a queue to work
on in no framework: without a separate thread nothing is queued, and with one there is none. -/
theorem oneCall_drains_iff (answers : H → RestfulRequest → Option RestfulResponse)
    (posted : Nat → List (DlistNode C H)) (queue : List (DlistNode C H)) :
    (∀ owner : QueueOwner, OneCallDrains answers posted queue owner ↔ owner.Allows queue) ∧
    ∀ rounds, (passAfter checkInternalRound posted queue rounds).taken ++
      (passAfter checkInternalRound posted queue rounds).queue = queue ++
      postedBefore posted rounds := by
  refine ⟨fun owner => ?_,
    fun rounds => (passed_passAfter (fun _ => [.dropped]) posted queue rounds).inOrder⟩
  cases owner with
  | agent => exact drains_iff _ posted queue
  | plugin separateThread =>
    constructor
    · rintro ⟨internalQueue, inits, -⟩
      cases separateThread with
      | false => rfl
      | true => cases inits
    · rintro rfl
      exact ⟨none, rfl, fun isSome => by cases isSome⟩

end Queues

/-- Of two callbacks in the agent's queue only the first is run; a plugin with a separate thread has
no queue. -/
theorem oneCall_drains_callbacks_fails :
    let queue : List (DlistNode Nat Unit) := [.callback 0, .callback 1]
    (passAfter checkInternalRound (fun _ => []) queue 1).handled = [(.callback 0, [.executed 0])] ∧
      (passAfter checkInternalRound (fun _ => []) queue 1).queue = [.callback 1] ∧
      (passAfter checkInternalRound (fun _ => []) queue 1).ended = true ∧
      ¬OneCallDrains (fun _ _ => none) (fun _ => []) queue .agent ∧
      ¬OneCallDrains (fun _ _ => none) (fun _ => []) queue (.plugin true) := by
  refine ⟨rfl, rfl, rfl, fun drains => ?_, ?_⟩
  · exact Bool.noConfusion ((drains_iff _ _ _).mp drains (.callback 0) mem_cons_self)
  · rintro ⟨internalQueue, inits, -⟩
    cases inits

end Idrm.Plugin
