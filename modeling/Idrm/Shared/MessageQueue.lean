import Mathlib.Data.Fintype.Card
import Idrm.Lib.Doubly
import Idrm.Lib.Run

/-!
# The message queue

A queue of messages that link to each other in both directions. `post_msg2` looks at the number
of messages before it takes the lock, and `get_msg` gives the lock up while it waits: posters and
getters run in between. A message belongs to whoever allocated it or took it, up to the call that
posts it.
-/

namespace Idrm.Shared

open Idrm.Lib Function Option
open List hiding map_map

/-- `msg_t`; the content is everything but the links. -/
structure Msg (M : Type) where
  next : Option Nat
  prev : Option Nat
  content : M

instance (M : Type) : DoublyChained (Msg M) where
  next := Msg.next
  setNext pointer msg := { msg with next := pointer }
  next_setNext _ _ := rfl
  setNext_setNext _ _ _ := rfl
  prev := Msg.prev
  setPrev pointer msg := { msg with prev := pointer }
  prev_setPrev _ _ := rfl
  next_setPrev _ _ := rfl
  prev_setNext _ _ := rfl

/-- `msg_queue_t`, and the memory. -/
structure MsgQueue (M : Type) where
  heap : Heap (Msg M)
  cnt : Nat
  max : Nat
  drops : Nat
  head : Option Nat
  tail : Option Nat

section Queue

variable {M : Type}

/-- `create_queue`, with a capacity. -/
def createQueue (max : Nat) : MsgQueue M := ⟨fun _ => none, 0, max, 0, none, none⟩

/-- `post_msg2` up to its lock: whether it goes on; if not, the message is freed. -/
def postMsgCheck (msg : Nat) (queue : MsgQueue M) : Bool × MsgQueue M :=
  if queue.cnt ≥ queue.max then
    (false, { queue with heap := update queue.heap msg none, drops := queue.drops + 1 })
  else (true, queue)

/-- The locked section of `post_msg2`; `none` is a failed assertion, or an access to no message. -/
def postMsgLocked (msg : Nat) (queue : MsgQueue M) : Option (MsgQueue M) := do
  let node ← queue.heap msg
  if queue.cnt = 0 then
    if queue.head = none ∧ queue.tail = none then
      some { queue with
        head := some msg
        tail := some msg
        heap := update queue.heap msg (some { node with next := none, prev := none })
        cnt := 1 }
    else none
  else
    let last ← queue.tail
    let _ ← queue.heap last
    let heap : Heap (Msg M) :=
      update queue.heap msg (some { node with next := none, prev := some last })
    some { queue with heap := heap.relink last (some msg), tail := some msg, cnt := queue.cnt + 1 }

/-- The locked section of `get_msg` up to its wait: whether it waits. -/
def getMsgBefore (queue : MsgQueue M) : Option Bool :=
  if queue.cnt = 0 then if queue.head = none ∧ queue.tail = none then some true else none
  else some false

/-- The locked section of `get_msg` from its wait on. -/
def getMsgAfter (queue : MsgQueue M) : Option (Option Nat × MsgQueue M) :=
  if queue.cnt = 0 then if queue.head = none ∧ queue.tail = none then some (none, queue) else none
  else if queue.cnt = 1 then
    if queue.head = queue.tail then
      some (queue.head, { queue with head := none, tail := none, cnt := 0 }) else none
  else do
    let first ← queue.head
    let node ← queue.heap first
    let second ← node.next
    let _ ← queue.heap second
    some (some first, { queue with
      head := some second
      heap := queue.heap.backlink second none
      cnt := queue.cnt - 1 })

/-! ## The list of a queue -/

/-- A queue consists of the messages at some addresses. -/
structure MsgQueue.Holds (queue : MsgQueue M) (items : List Nat) : Prop where
  doubly : Doubly queue.heap none queue.head items queue.tail
  counted : queue.cnt = items.length
  distinct : items.Nodup

/-- Messages are where they were, with the same contents. -/
def SameContents (before after : Heap (Msg M)) : Prop :=
  ∀ address, (after address).map Msg.content = (before address).map Msg.content

variable {queue after : MsgQueue M} {items : List Nat} {msg : Nat}

theorem sameContents_relink (address : Nat) (pointer : Option Nat) (heap : Heap (Msg M)) :
    SameContents heap (heap.relink address pointer) := by
  intro other
  by_cases same : other = address
  · rw [same, Heap.relink_self, map_map]
    rfl
  · rw [Heap.relink_other _ same]

theorem sameContents_backlink (address : Nat) (pointer : Option Nat) (heap : Heap (Msg M)) :
    SameContents heap (heap.backlink address pointer) := by
  intro other
  by_cases same : other = address
  · rw [same, Heap.backlink, update_self, map_map]
    rfl
  · rw [Heap.backlink, update_of_ne same]

theorem sameContents_update {heap : Heap (Msg M)}
    {address : Nat} {node : Msg M} (here : heap address = some node) (next prev : Option Nat) :
    SameContents heap (update heap address (some { node with next := next, prev := prev })) := by
  intro other
  by_cases same : other = address
  · rw [same, update_self, here]
    rfl
  · rw [update_of_ne same]

/-- Nothing is at the ends of an empty queue. -/
theorem MsgQueue.Holds.ends (holds : queue.Holds []) : queue.head = none ∧ queue.tail = none :=
  ⟨holds.doubly.1, holds.doubly.2⟩

/-- A message that is not in the queue is linked behind the others. -/
theorem postMsgLocked_holds (holds : queue.Holds items) (fresh : msg ∉ items) {node : Msg M}
    (here : queue.heap msg = some node) : ∃ after, postMsgLocked msg queue = some after ∧
    after.Holds (items ++ [msg]) ∧ after.max = queue.max ∧ SameContents queue.heap after.heap := by
  have distinct : (items ++ [msg]).Nodup := nodup_append.mpr
    ⟨holds.distinct, nodup_singleton msg, fun one member two same => by
      rw [mem_singleton.mp same]
      rintro rfl
      exact fresh member⟩
  rcases eq_nil_or_concat items with rfl | ⟨front, last, rfl⟩
  · have empty : queue.cnt = 0 := holds.counted
    have ran : postMsgLocked msg queue = some { queue with
        head := some msg
        tail := some msg
        heap := update queue.heap msg (some { node with next := none, prev := none })
        cnt := 1 } := by
      simp only [postMsgLocked, here, bind_eq_bind, bind_some, if_pos empty, if_pos holds.ends]
    refine ⟨_, ran, ⟨?_, rfl, distinct⟩, rfl, sameContents_update here none none⟩
    exact doubly_single (update_self ..) rfl rfl
  · rw [concat_eq_append] at holds fresh distinct ⊢
    have filled : queue.cnt ≠ 0 := by
      have length := holds.counted
      rw [length_append, length_singleton] at length
      omega
    have tail : queue.tail = some last := by simpa using holds.doubly.tail_eq
    obtain ⟨lastNode, there⟩ := holds.doubly.allocated (mem_append_right _ mem_cons_self)
    have pushed : Doubly (Heap.relink last (some msg)
        (update queue.heap msg (some { node with next := none, prev := some last }))) none
        queue.head (front ++ [last, msg]) (some msg) :=
      holds.doubly.push holds.distinct fresh rfl rfl
    have ran : postMsgLocked msg queue = some { queue with
        heap := Heap.relink last (some msg)
          (update queue.heap msg (some { node with next := none, prev := some last }))
        tail := some msg
        cnt := queue.cnt + 1 } := by
      simp only [postMsgLocked, here, tail, there, bind_eq_bind, bind_some, if_neg filled]
    refine ⟨_, ran, ⟨?_, ?_, distinct⟩, rfl, ?_⟩
    · rw [append_assoc]
      exact pushed
    · change queue.cnt + 1 = (front ++ [last] ++ [msg]).length
      rw [length_append, ← holds.counted]
      rfl
    · intro address
      exact (sameContents_relink last (some msg) _ address).trans
        (sameContents_update here none (some last) address)

/-- The assertions before the wait hold. -/
theorem getMsgBefore_holds (holds : queue.Holds items) :
    getMsgBefore queue = some items.isEmpty := by
  unfold getMsgBefore
  cases items with
  | nil =>
    have empty : queue.cnt = 0 := holds.counted
    rw [if_pos empty, if_pos holds.ends]
    rfl
  | cons first rest =>
    have filled : queue.cnt ≠ 0 := by simp [holds.counted]
    rw [if_neg filled]
    rfl

theorem getMsgAfter_empty (holds : queue.Holds []) : getMsgAfter queue = some (none, queue) := by
  have empty : queue.cnt = 0 := holds.counted
  rw [getMsgAfter, if_pos empty, if_pos holds.ends]

/-- The first message is taken. -/
theorem getMsgAfter_holds (holds : queue.Holds (msg :: items)) : ∃ after,
    getMsgAfter queue = some (some msg, after) ∧ after.Holds items ∧ after.max = queue.max ∧
    SameContents queue.heap after.heap := by
  have head : queue.head = some msg := holds.doubly.start_eq
  have filled : queue.cnt ≠ 0 := by simp [holds.counted]
  cases items with
  | nil =>
    have one : queue.cnt = 1 := holds.counted
    have tail : queue.tail = some msg := holds.doubly.tail_eq
    have ran : getMsgAfter queue =
        some (some msg, { queue with head := none, tail := none, cnt := 0 }) := by
      rw [getMsgAfter, if_neg filled, if_pos one, if_pos (head.trans tail.symm), head]
    exact ⟨_, ran, ⟨⟨rfl, rfl⟩, rfl, nodup_nil⟩, rfl, fun _ => rfl⟩
  | cons second rest =>
    have more : queue.cnt ≠ 1 := by simp [holds.counted]
    have later := (nodup_cons.mp holds.distinct).2
    obtain ⟨node, here, points, popped⟩ := holds.doubly.pop (nodup_cons.mp later).1
    have points : node.next = some second := points
    obtain ⟨other, there⟩ := holds.doubly.allocated (mem_cons_of_mem _ mem_cons_self)
    have ran : getMsgAfter queue = some (some msg, { queue with
        head := some second
        heap := queue.heap.backlink second none
        cnt := queue.cnt - 1 }) := by
      simp only [getMsgAfter, if_neg filled, if_neg more, head, here, points, there,
        bind_eq_bind, bind_some]
    refine ⟨_, ran, ⟨popped, ?_, later⟩, rfl, sameContents_backlink second none queue.heap⟩
    change queue.cnt - 1 = (second :: rest).length
    rw [holds.counted]
    rfl

end Queue

/-! ## Posters and getters -/

section System

variable {M : Type} {k : Nat} {G : Type}

/-- The queue with `k` posters and with getters, and what happened. -/
structure QueueSystem (M : Type) (k : Nat) (G : Type) where
  queue : MsgQueue M
  /-- The message of a poster between its check and its locked section. -/
  posters : Fin k → Option Nat
  /-- Whether a getter waits. -/
  waiting : G → Bool
  /-- The messages in the order in which they were linked, with their contents then. -/
  linked : List (Nat × M)
  /-- The messages in the order in which they were taken, with their contents then. -/
  taken : List (Nat × M)
  /-- The messages that were dropped, with the number of messages the poster saw. -/
  dropped : List (Nat × Nat)

/-- A new queue. -/
def QueueSystem.start (max : Nat) : QueueSystem M k G :=
  ⟨createQueue max, fun _ => none, fun _ => false, [], [], []⟩

/-- The atomic steps. -/
inductive QueueEvent (M : Type) (k : Nat) (G : Type) where
  /-- the owner of an address allocates, writes or frees what is there -/
  | memory (address : Nat) (msg : Option (Msg M))
  | check (poster : Fin k) (msg : Nat)
  | lockedPost (poster : Fin k)
  | get (getter : G)
  | wake (getter : G)

/-- The messages that were linked and not taken yet. -/
def QueueSystem.queued (state : QueueSystem M k G) : List (Nat × M) :=
  state.linked.drop state.taken.length

/-- An address that is neither in the queue nor in the hands of a poster that goes on. -/
def QueueSystem.Free (state : QueueSystem M k G) (address : Nat) : Prop :=
  address ∉ state.queued.map Prod.fst ∧ ∀ poster, state.posters poster ≠ some address

/-- What the callers keep to. -/
def Callable (state : QueueSystem M k G) : QueueEvent M k G → Prop
  | .memory address _ => state.Free address
  | .check poster msg => state.posters poster = none ∧ state.Free msg ∧
      (state.queue.heap msg).isSome = true
  | .lockedPost poster => (state.posters poster).isSome = true
  | .get getter => state.waiting getter = false
  | .wake getter => state.waiting getter = true

/-- A getter takes what there is, and returns. -/
def QueueSystem.take (state : QueueSystem M k G) : Option (QueueSystem M k G) := do
  let (msg, queue) ← getMsgAfter state.queue
  match msg with
  | none => some { state with queue := queue }
  | some msg =>
    let node ← queue.heap msg
    some { state with queue := queue, taken := state.taken ++ [(msg, node.content)] }

/-- One step; `none` is a failed assertion or an access to no message. -/
def performQueue [DecidableEq G] : QueueEvent M k G → QueueSystem M k G → Option (QueueSystem M k G)
  | .memory address msg, state =>
    some { state with queue := { state.queue with heap := update state.queue.heap address msg } }
  | .check poster msg, state =>
    let (goesOn, queue) := postMsgCheck msg state.queue
    if goesOn then some { state with posters := update state.posters poster (some msg) }
    else some { state with queue := queue, dropped := state.dropped ++ [(msg, state.queue.cnt)] }
  | .lockedPost poster, state => do
      let msg ← state.posters poster
      let queue ← postMsgLocked msg state.queue
      let node ← queue.heap msg
      some { state with
        queue := queue
        posters := update state.posters poster none
        linked := state.linked ++ [(msg, node.content)] }
  | .get getter, state => do
      let waits ← getMsgBefore state.queue
      if waits then some { state with waiting := update state.waiting getter true } else state.take
  | .wake getter, state => { state with waiting := update state.waiting getter false }.take

/-- The posters that are past their check. -/
def QueueSystem.passed (state : QueueSystem M k G) : Finset (Fin k) :=
  {poster | (state.posters poster).isSome = true}

/-- The queue is a list, in and out in the same order, and not much longer than its capacity. -/
structure QueueSystem.Fifo (state : QueueSystem M k G) : Prop where
  /-- Messages come out in the order in which they were linked, each once. -/
  inOrder : state.taken ++ state.queued = state.linked
  /-- Head, tail and links describe the list, which has as many messages as are counted. -/
  holds : state.queue.Holds (state.queued.map Prod.fst)
  contents : ∀ entry ∈ state.queued, (state.queue.heap entry.1).map Msg.content = some entry.2
  /-- Only a poster that saw a full queue dropped its message. -/
  sawFull : ∀ entry ∈ state.dropped, state.queue.max ≤ entry.2
  bounded : state.queue.cnt ≤ state.queue.max + k - 1

/-- The invariant of the runs. -/
structure QueueSystem.Kept (state : QueueSystem M k G) (max : Nat) : Prop where
  inOrder : state.taken ++ state.queued = state.linked
  holds : state.queue.Holds (state.queued.map Prod.fst)
  contents : ∀ entry ∈ state.queued, (state.queue.heap entry.1).map Msg.content = some entry.2
  sawFull : ∀ entry ∈ state.dropped, max ≤ entry.2
  capacity : state.queue.max = max
  bounded : state.queue.cnt + state.passed.card < max + k
  /-- A poster past its check holds a message of its own. -/
  held : ∀ poster msg, state.posters poster = some msg →
    msg ∉ state.queued.map Prod.fst ∧ (state.queue.heap msg).isSome = true
  apart : ∀ one two msg, state.posters one = some msg → state.posters two = some msg → one = two

variable {state : QueueSystem M k G} {max : Nat}

theorem QueueSystem.Kept.fifo (kept : state.Kept max) : state.Fifo where
  inOrder := kept.inOrder
  holds := kept.holds
  contents := kept.contents
  sawFull entry member := kept.capacity ▸ kept.sawFull entry member
  bounded := by
    have bounded := kept.bounded
    rw [kept.capacity]
    omega

theorem QueueSystem.Kept.start (some_ : 0 < k) (max : Nat) :
    (QueueSystem.start max : QueueSystem M k G).Kept max where
  inOrder := rfl
  holds := ⟨⟨rfl, rfl⟩, rfl, nodup_nil⟩
  contents entry member := by cases member
  sawFull entry member := by cases member
  capacity := rfl
  bounded := by
    have none_ : (QueueSystem.start max : QueueSystem M k G).passed = ∅ :=
      Finset.filter_false_of_mem fun _ _ => by simp [QueueSystem.start]
    rw [none_, Finset.card_empty]
    change 0 + 0 < max + k
    omega
  held poster msg holds := by cases holds
  apart one two msg holds := by cases holds

/-- What was linked and not taken, from a split of what was linked. -/
theorem QueueSystem.queued_eq {rest : List (Nat × M)} (split : state.taken ++ rest = state.linked) :
    state.queued = rest := by
  rw [QueueSystem.queued, ← split, drop_left]

/-- The owner of an address does something to it. -/
theorem QueueSystem.Kept.memory (kept : state.Kept max)
    {address : Nat} (free : state.Free address) (msg : Option (Msg M)) : QueueSystem.Kept
      { state with queue := { state.queue with heap := update state.queue.heap address msg } }
      max := by
  obtain ⟨inOrder, holds, contents, sawFull, capacity, bounded, held, apart⟩ := kept
  have other : ∀ {listed}, listed ∈ state.queued.map Prod.fst → listed ≠ address :=
    fun member same => free.1 (same ▸ member)
  refine ⟨inOrder, ⟨holds.doubly.frame fun listed member => ?_, holds.counted, holds.distinct⟩,
    fun entry member => ?_, sawFull,
    capacity, bounded, fun poster own has => ⟨(held poster own has).1, ?_⟩, apart⟩
  · exact update_of_ne (other member) ..
  · rw [← contents entry member]
    exact congrArg _ (update_of_ne (other (List.mem_map_of_mem member)) ..)
  · have different : own ≠ address := by
      rintro rfl
      exact free.2 poster has
    rw [← (held poster own has).2]
    exact congrArg _ (update_of_ne different ..)

/-- A poster finds the queue not full, and goes on to its locked section. -/
theorem QueueSystem.Kept.passes (kept : state.Kept max)
    (poster : Fin k) {msg : Nat} (free : state.Free msg)
    (here : (state.queue.heap msg).isSome = true) (notFull : state.queue.cnt < state.queue.max) :
    QueueSystem.Kept { state with posters := update state.posters poster (some msg) } max := by
  obtain ⟨inOrder, holds, contents, sawFull, capacity, bounded, held, apart⟩ := kept
  have cases_ : ∀ other own, update state.posters poster (some msg) other = some own →
      other = poster ∧ own = msg ∨ other ≠ poster ∧ state.posters other = some own := by
    intro other own has
    by_cases same : other = poster
    · rw [same, update_self] at has
      exact .inl ⟨same, (some.inj has).symm⟩
    · rw [update_of_ne same] at has
      exact .inr ⟨same, has⟩
  refine ⟨inOrder, holds, contents, sawFull, capacity, ?_, fun other own has => ?_,
    fun one two own first second => ?_⟩
  · have most := Finset.card_le_univ
      (QueueSystem.passed { state with posters := update state.posters poster (some msg) })
    rw [Fintype.card_fin] at most
    rw [← capacity]
    exact Nat.add_lt_add_of_lt_of_le notFull most
  · rcases cases_ other own has with ⟨rfl, rfl⟩ | ⟨-, before⟩
    · exact ⟨free.1, here⟩
    · exact held other own before
  · rcases cases_ one own first with ⟨rfl, rfl⟩ | ⟨-, before⟩ <;>
      rcases cases_ two own second with ⟨rfl, same⟩ | ⟨-, before'⟩
    · rfl
    · exact absurd before' (free.2 two)
    · exact absurd (same ▸ before) (free.2 one)
    · exact apart one two own before before'

/-- A poster finds the queue full, and frees its message. -/
theorem QueueSystem.Kept.drops (kept : state.Kept max) {msg : Nat} (free : state.Free msg)
    (full : state.queue.cnt ≥ state.queue.max) : QueueSystem.Kept { state with
      queue :=
  { state.queue with heap := update state.queue.heap msg none, drops := state.queue.drops + 1 }
      dropped := state.dropped ++ [(msg, state.queue.cnt)] } max := by
  have freed := kept.memory free none
  refine ⟨freed.inOrder, ⟨freed.holds.doubly, freed.holds.counted, freed.holds.distinct⟩,
    freed.contents, fun entry member => ?_, freed.capacity, freed.bounded, freed.held, freed.apart⟩
  rcases mem_append.mp member with before | now
  · exact kept.sawFull entry before
  · rw [mem_singleton.mp now, ← kept.capacity]
    exact full

/-- A poster past its check links its message. -/
theorem QueueSystem.Kept.links (kept : state.Kept max)
    {poster : Fin k} {msg : Nat} (own : state.posters poster = some msg) :
    ∃ queue node, postMsgLocked msg state.queue = some queue ∧ queue.heap msg = some node ∧
    QueueSystem.Kept { state with
        queue := queue
        posters := update state.posters poster none
        linked := state.linked ++ [(msg, node.content)] } max := by
  obtain ⟨inOrder, holds, contents, sawFull, capacity, bounded, held, apart⟩ := kept
  obtain ⟨fresh, allocated⟩ := held poster msg own
  obtain ⟨before, here⟩ := isSome_iff_exists.mp allocated
  obtain ⟨queue, linked, holdsAfter, sameMax, same⟩ := postMsgLocked_holds holds fresh here
  have there := same msg
  rw [here, map_some] at there
  obtain ⟨node, found, -⟩ := map_eq_some_iff.mp there
  refine ⟨queue, node, linked, found, ?_⟩
  let next : QueueSystem M k G := { state with
    queue := queue
    posters := update state.posters poster none
    linked := state.linked ++ [(msg, node.content)] }
  have split : next.taken ++ (state.queued ++ [(msg, node.content)]) = next.linked := by
    rw [← append_assoc]
    exact congrArg (· ++ _) inOrder
  have queued : next.queued = state.queued ++ [(msg, node.content)] := next.queued_eq split
  have others : ∀ other other', update state.posters poster none other = some other' →
      other ≠ poster ∧ state.posters other = some other' := by
    intro other other' has
    by_cases isPoster : other = poster
    · rw [isPoster, update_self] at has
      cases has
    · rw [update_of_ne isPoster] at has
      exact ⟨isPoster, has⟩
  have fewer : next.passed.card < state.passed.card := by
    refine Finset.card_lt_card ⟨fun other member => ?_, fun all => ?_⟩
    · obtain ⟨other', has⟩ := isSome_iff_exists.mp (Finset.mem_filter.mp member).2
      exact Finset.mem_filter.mpr
        ⟨Finset.mem_univ _, isSome_iff_exists.mpr ⟨other', (others other other' has).2⟩⟩
    · have member :=
        all (Finset.mem_filter.mpr ⟨Finset.mem_univ poster, isSome_iff_exists.mpr ⟨msg, own⟩⟩)
      obtain ⟨other', has⟩ := isSome_iff_exists.mp (Finset.mem_filter.mp member).2
      exact (others poster other' has).1 rfl
  have kept : next.Kept max := by
    refine ⟨by rw [queued]; exact split, ?_, ?_, sawFull, sameMax.trans capacity, ?_,
      fun other other' has => ?_, ?_⟩
    · rw [queued, map_append]
      exact holdsAfter
    · rw [queued]
      intro entry member
      rcases mem_append.mp member with earlier | now
      · exact (same entry.1).trans (contents entry earlier)
      · rw [mem_singleton.mp now]
        exact congrArg (Option.map Msg.content) found
    · have more : queue.cnt = state.queue.cnt + 1 := by
        rw [holdsAfter.counted, holds.counted, length_append, length_singleton]
      have step : next.queue.cnt + next.passed.card ≤ state.queue.cnt + state.passed.card := by
        calc queue.cnt + next.passed.card
            = state.queue.cnt + (next.passed.card + 1) := by
              rw [more, Nat.add_right_comm, Nat.add_assoc]
          _ ≤ state.queue.cnt + state.passed.card := Nat.add_le_add_left fewer _
      exact Nat.lt_of_le_of_lt step bounded
    · obtain ⟨isOther, hasBefore⟩ := others other other' has
      obtain ⟨outside, present⟩ := held other other' hasBefore
      have different : other' ≠ msg := by
        rintro rfl
        exact isOther (apart other poster other' hasBefore own)
      refine ⟨?_, ?_⟩
      · rw [queued, map_append]
        intro member
        rcases mem_append.mp member with inside | now
        · exact outside inside
        · exact different (mem_singleton.mp now)
      · have kept := congrArg Option.isSome (same other')
        rw [isSome_map, isSome_map] at kept
        exact kept.trans present
    · intro one two other' first second
      exact apart one two other' (others one other' first).2 (others two other' second).2
  exact kept

/-- A getter takes the first message, if there is one. -/
theorem QueueSystem.Kept.takes (kept : state.Kept max) :
    ∃ next, state.take = some next ∧ next.Kept max := by
  obtain ⟨inOrder, holds, contents, sawFull, capacity, bounded, held, apart⟩ := kept
  cases found : state.queued with
  | nil =>
    have empty : state.queue.Holds [] := by simpa [found] using holds
    refine ⟨state, ?_, inOrder, holds, contents, sawFull, capacity, bounded, held, apart⟩
    rw [QueueSystem.take, getMsgAfter_empty empty]
    rfl
  | cons entry rest =>
    have first : state.queue.Holds (entry.1 :: rest.map Prod.fst) := by simpa [found] using holds
    obtain ⟨queue, taken, holdsAfter, sameMax, same⟩ := getMsgAfter_holds first
    have content : (queue.heap entry.1).map Msg.content = some entry.2 :=
      (same entry.1).trans (contents entry (found ▸ mem_cons_self))
    obtain ⟨node, here, isContent⟩ := map_eq_some_iff.mp content
    let next : QueueSystem M k G :=
      { state with queue := queue, taken := state.taken ++ [(entry.1, node.content)] }
    have ran : state.take = some next := by
      rw [QueueSystem.take, taken, bind_eq_bind, bind_some]
      simp only [here, bind_eq_bind, bind_some]
      rfl
    have split : next.taken ++ rest = next.linked := by
      change state.taken ++ [(entry.1, node.content)] ++ rest = state.linked
      rw [isContent, append_assoc, ← inOrder, found]
      rfl
    have queued : next.queued = rest := next.queued_eq split
    refine ⟨next, ran, by rw [queued]; exact split, ?_, ?_, sawFull, sameMax.trans capacity, ?_,
      fun poster msg has => ?_, apart⟩
    · rw [queued]
      exact holdsAfter
    · rw [queued]
      intro other member
      exact (same other.1).trans (contents other (found ▸ mem_cons_of_mem _ member))
    · have fewer : queue.cnt ≤ state.queue.cnt := by
        rw [holdsAfter.counted, first.counted]
        exact Nat.le_succ _
      exact Nat.lt_of_le_of_lt (Nat.add_le_add_right fewer _) bounded
    · obtain ⟨outside, present⟩ := held poster msg has
      refine ⟨?_, ?_⟩
      · rw [queued]
        intro member
        exact outside (found ▸ mem_cons_of_mem _ member)
      · have kept := congrArg Option.isSome (same msg)
        rw [isSome_map, isSome_map] at kept
        exact kept.trans present

/-- A change of who waits. -/
theorem QueueSystem.Kept.waits (kept : state.Kept max) (waiting : G → Bool) :
    QueueSystem.Kept { state with waiting := waiting } max :=
  ⟨kept.inOrder, kept.holds, kept.contents, kept.sawFull, kept.capacity, kept.bounded,
    kept.held, kept.apart⟩

/-- Every step that the callers may take passes its assertions, and keeps the invariant. -/
theorem QueueSystem.Kept.event [DecidableEq G] (kept : state.Kept max)
    {event : QueueEvent M k G} (callable : Callable state event) :
    ∃ next, performQueue event state = some next ∧ next.Kept max := by
  cases event with
  | memory address msg => exact ⟨_, rfl, kept.memory callable msg⟩
  | check poster msg =>
    obtain ⟨-, free, here⟩ := callable
    by_cases full : state.queue.cnt ≥ state.queue.max
    · refine ⟨_, ?_, kept.drops free full⟩
      simp [performQueue, postMsgCheck, full]
    · refine ⟨_, ?_, kept.passes poster free here (Nat.lt_of_not_le full)⟩
      simp [performQueue, postMsgCheck, full]
  | lockedPost poster =>
    obtain ⟨msg, own⟩ := isSome_iff_exists.mp callable
    obtain ⟨queue, node, linked, here, kept⟩ := kept.links own
    refine ⟨_, ?_, kept⟩
    simp only [performQueue, own, linked, here, bind_eq_bind, bind_some]
  | get getter =>
    have before := getMsgBefore_holds kept.holds
    cases waits : (state.queued.map Prod.fst).isEmpty with
    | true =>
      refine ⟨_, ?_, kept.waits (update state.waiting getter true)⟩
      simp [performQueue, before, waits]
    | false =>
      obtain ⟨next, took, keeps⟩ := kept.takes
      refine ⟨next, ?_, keeps⟩
      simp [performQueue, before, waits, took]
  | wake getter => exact (kept.waits _).takes

/-- In every interleaving of posters and getters the queue is a list from which messages come in the
order in which they were linked, it is at most the number of posters less one over its capacity, and
no assertion fails. -/
theorem msgQueue_fifo [DecidableEq G] (posters : 0 < k)
    {events : List (QueueEvent M k G)} {state : QueueSystem M k G}
    (runs : RunsUnder performQueue Callable (QueueSystem.start max) events state) :
    state.Fifo ∧ ∀ event, Callable state event → ∃ next, performQueue event state = some next := by
  have step : ∀ {before after : QueueSystem M k G} {event : QueueEvent M k G}, before.Kept max →
      Callable before event → performQueue event before = some after → after.Kept max := by
    intro before after event kept callable performed
    obtain ⟨next, performs, keeps⟩ := kept.event callable
    rw [performs] at performed
    exact some.inj performed ▸ keeps
  have kept : state.Kept max := runs.keeps step (QueueSystem.Kept.start posters max)
  refine ⟨kept.fifo, fun event callable => ?_⟩
  exact (kept.event callable).imp fun next performed => performed.1

end System

/-- Two posters check a queue of capacity one before either of them links its message; a getter that
waited takes one. -/
def overshoot : List (QueueEvent Nat 2 Unit) :=
  [.get (), .memory 0 (some ⟨none, none, 7⟩), .memory 1 (some ⟨none, none, 8⟩), .check 0 0,
    .check 1 1, .lockedPost 1, .lockedPost 0, .wake ()]

theorem msgQueue_fifo_overshoot : ∃ state : QueueSystem Nat 2 Unit,
    RunsUnder performQueue Callable (QueueSystem.start 1) overshoot state ∧
    state.linked = [(1, 8), (0, 7)] ∧ state.taken = [(1, 8)] ∧ state.Fifo := by
  have runs : RunsUnder performQueue Callable
      (QueueSystem.start 1 : QueueSystem Nat 2 Unit) overshoot _ :=
    .call rfl rfl (.call ⟨by decide, by decide⟩ rfl (.call ⟨by decide, by decide⟩ rfl
      (.call ⟨rfl, ⟨by decide, by decide⟩, rfl⟩ rfl (.call ⟨rfl, ⟨by decide, by decide⟩, rfl⟩ rfl
        (.call rfl rfl (.call rfl rfl (.call rfl rfl (.done _))))))))
  exact ⟨_, runs, rfl, rfl, (msgQueue_fifo (by decide) runs).1⟩

end Idrm.Shared
