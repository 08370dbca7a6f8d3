import Mathlib.Tactic.Linarith
import Idrm.Lib.Chain
import Idrm.Lib.CString
import Idrm.Lib.Run

/-!
# The task list

Scheduled tasks are kept in a list by the time of their next execution. `bh_check_task` looks at
the first task alone: it takes the task if it is due, and tells how long to wait for it if not.
-/

namespace Idrm.Shared

open Idrm.Lib Function Option
open List hiding map_map

/-- `bh_task_t`, as far as the list is concerned. Times are in seconds. -/
structure Task where
  next : Option Nat
  taskType : CString
  taskData : Option Nat
  nextExecution : Int

instance : Chained Task where
  next := Task.next
  setNext pointer task := { task with next := pointer }
  next_setNext _ _ := rfl
  setNext_setNext _ _ _ := rfl

/-- `task_ctx_t`, and the memory. -/
structure TaskCtx where
  heap : Heap Task
  taskList : Option Nat

/-- The walk of `bh_schedule_task`, from a task on; `none` is an access to no task, or a walk that
goes on. -/
def insertWalk (task : Nat) (nextExecution : Int) : Nat → Nat → Heap Task → Option (Heap Task)
  | 0, _, _ => none
  | steps + 1, t, heap => do
      let node ← heap t
      match node.next with
      | none => some (heap.relink t (some task))
      | some later =>
        let laterNode ← heap later
        if nextExecution < laterNode.nextExecution then
          some ((heap.relink task (some later)).relink t (some task))
        else insertWalk task nextExecution steps later heap

/-- `bh_schedule_task`, at a time; `none` is also a failed assertion. -/
def bhScheduleTask (steps task : Nat) (secsFromNow : Int32) (now : Int) (ctx : TaskCtx) :
    Option TaskCtx := do
  let node ← ctx.heap task
  let nextExecution := now + secsFromNow.toInt
  let heap : Heap Task :=
    update ctx.heap task (some { node with nextExecution := nextExecution, next := none })
  match ctx.taskList with
  | none => some ⟨heap, some task⟩
  | some first =>
    let firstNode ← heap first
    if nextExecution ≤ firstNode.nextExecution then some ⟨heap.relink task (some first), some task⟩
    else if firstNode.nextExecution < nextExecution then
      (insertWalk task nextExecution steps first heap).map fun heap => ⟨heap, some first⟩
    else none

/-- `bh_check_task`: the task it returns, and the seconds it leaves. -/
def bhCheckTask (now : Int) (secsToFirstTask : Int32) (ctx : TaskCtx) :
    Option (Option Nat × Int32 × TaskCtx) :=
  match ctx.taskList with
  | none => some (none, 120, ctx)
  | some first => do
      let node ← ctx.heap first
      if node.nextExecution ≤ now then
        some (some first, secsToFirstTask, { ctx with taskList := node.next })
      else some (none, Int32.ofInt (node.nextExecution - now), ctx)

/-- The walk of the removals, from a task on. -/
def removeWalk (isIt : Task → Bool) : Nat → Option Nat → Option Nat → TaskCtx →
    Option (Option Nat × TaskCtx)
  | _, _, none, ctx => some (none, ctx)
  | 0, _, some _, _ => none
  | steps + 1, prev, some t, ctx => do
      let node ← ctx.heap t
      if isIt node then
        let (taskList, heap) := ctx.heap.bypass prev node.next ctx.taskList
        some (some t, ⟨heap, taskList⟩)
      else removeWalk isIt steps (some t) node.next ctx

/-- A removal of the first task with a property. -/
def removeTask (isIt : Task → Bool) (steps : Nat) (ctx : TaskCtx) : Option (Option Nat × TaskCtx) :=
  removeWalk isIt steps none ctx.taskList ctx

/-- `bh_remove_task_by_data` -/
def bhRemoveTaskByData (steps : Nat) (dataPtr : Option Nat) (ctx : TaskCtx) :
    Option (Option Nat × TaskCtx) :=
  removeTask (fun task => task.taskData = dataPtr) steps ctx

/-- `bh_remove_task_by_name` -/
def bhRemoveTaskByName (steps : Nat) (name : CString) (ctx : TaskCtx) :
    Option (Option Nat × TaskCtx) :=
  removeTask (fun task => task.taskType = name) steps ctx

/-! ## Insertion in order -/

/-- When the task at an address is executed next. -/
def due (heap : Heap Task) (task : Nat) : Int := ((heap task).map Task.nextExecution).getD 0

/-- A list of tasks by the time of their next execution. -/
def ByTime (heap : Heap Task) (items : List Nat) : Prop :=
  items.Pairwise fun earlier later => due heap earlier ≤ due heap later

/-- A task is put before the first one that is later. -/
def insertBehind (times : Nat → Int) (nextExecution : Int) (task : Nat) : List Nat → List Nat
  | [] => [task]
  | later :: rest =>
    if nextExecution < times later then task :: later :: rest
      else later :: insertBehind times nextExecution task rest

/-- A task that is not later than the first one is put before it. -/
def insertTask (times : Nat → Int) (nextExecution : Int) (task : Nat) : List Nat → List Nat
  | [] => [task]
  | first :: rest =>
    if nextExecution ≤ times first then task :: first :: rest
      else first :: insertBehind times nextExecution task rest

section Insertion

variable {times : Nat → Int} {nextExecution : Int} {task : Nat} {items : List Nat}

theorem insertBehind_perm : (insertBehind times nextExecution task items).Perm (task :: items) := by
  induction items with
  | nil => exact .refl _
  | cons later rest ih =>
    rw [insertBehind]
    split
    · exact .refl _
    · exact (ih.cons later).trans (.swap task later rest)

theorem insertTask_perm : (insertTask times nextExecution task items).Perm (task :: items) := by
  cases items with
  | nil => exact .refl _
  | cons first rest =>
    rw [insertTask]
    split
    · exact .refl _
    · exact (insertBehind_perm.cons first).trans (.swap task first rest)

theorem insertBehind_sorted
      (sorted : items.Pairwise fun earlier later => times earlier ≤ times later)
    (isTime : times task = nextExecution) : (insertBehind times nextExecution task items).Pairwise
      fun earlier later => times earlier ≤ times later := by
  induction items with
  | nil => exact pairwise_singleton _ _
  | cons later rest ih =>
    obtain ⟨first, sorted'⟩ := pairwise_cons.mp sorted
    rw [insertBehind]
    split
    · rename_i before
      refine pairwise_cons.mpr ⟨fun other member => ?_, sorted⟩
      rw [isTime]
      rcases mem_cons.mp member with rfl | member
      · exact Int.le_of_lt before
      · exact Int.le_trans (Int.le_of_lt before) (first other member)
    · rename_i behind
      refine pairwise_cons.mpr ⟨fun other member => ?_, ih sorted'⟩
      rcases mem_cons.mp (insertBehind_perm.subset member) with rfl | member
      · rw [isTime]
        exact Int.not_lt.mp behind
      · exact first other member

theorem insertTask_sorted (sorted : items.Pairwise fun earlier later => times earlier ≤ times later)
    (isTime : times task = nextExecution) : (insertTask times nextExecution task items).Pairwise
      fun earlier later => times earlier ≤ times later := by
  cases items with
  | nil => exact pairwise_singleton _ _
  | cons first rest =>
    obtain ⟨least, sorted'⟩ := pairwise_cons.mp sorted
    rw [insertTask]
    split
    · rename_i before
      refine pairwise_cons.mpr ⟨fun other member => ?_, sorted⟩
      rw [isTime]
      rcases mem_cons.mp member with rfl | member
      · exact before
      · exact Int.le_trans before (least other member)
    · rename_i behind
      refine pairwise_cons.mpr ⟨fun other member => ?_, insertBehind_sorted sorted' isTime⟩
      rcases mem_cons.mp (insertBehind_perm.subset member) with rfl | member
      · rw [isTime]
        exact Int.le_of_lt (Int.not_le.mp behind)
      · exact least other member

end Insertion

/-! ## The operations on a list -/

section Operations

variable {heap after : Heap Task} {items front back : List Nat} {t task steps : Nat} {ctx : TaskCtx}
  {isIt : Task → Bool} {node : Task}

theorem due_eq (here : heap task = some node) : due heap task = node.nextExecution := by
  rw [due, here]
  rfl

/-- Other pointers do not change the times. -/
theorem Relinked.due (relinked : Relinked heap after) (task : Nat) :
    due after task = due heap task := by
  have same := congrArg (Option.map Task.nextExecution) (relinked task)
  rw [map_map, map_map] at same
  exact congrArg (·.getD 0) same

theorem Relinked.byTime (relinked : Relinked heap after) (byTime : ByTime heap items) :
    ByTime after items := by
  refine List.Pairwise.imp ?_ byTime
  intro earlier later ordered
  rw [Relinked.due relinked, Relinked.due relinked]
  exact ordered

/-- The walk puts the task behind `t`, where it belongs. -/
theorem insertWalk_spec (nextExecution : Int) (linked : Linked heap (some t) (t :: items))
    (distinct : (t :: items).Nodup) (fresh : task ∉ t :: items)
    (here : heap task = some node) (last : node.next = none) (enough : items.length < steps) :
    ∃ after, insertWalk task nextExecution steps t heap = some after ∧ Linked after (some t)
    (t :: insertBehind (due heap) nextExecution task items) ∧ Relinked heap after ∧
    ∀ address, address ≠ task → address ∉ t :: items → after address = heap address := by
  induction items generalizing t steps with
  | nil =>
    obtain ⟨-, tNode, there, ends⟩ := linked
    have ends : tNode.next = none := ends
    have apart : task ≠ t := fun same => fresh (same ▸ mem_cons_self)
    cases steps with
    | zero => exact absurd enough (Nat.not_lt_zero _)
    | succ steps =>
      have walked :
          insertWalk task nextExecution (steps + 1) t heap = some (heap.relink t (some task)) := by
        simp [insertWalk, there, ends]
      refine ⟨_, walked, ⟨rfl, { tNode with next := some task }, ?_, rfl, node, ?_, last⟩,
        relinked_relink _ _ _, fun address _ outside => ?_⟩
      · rw [Heap.relink_self, there]
        rfl
      · rw [Heap.relink_other _ apart, here]
      · have notT : address ≠ t := fun same => outside (same ▸ mem_cons_self)
        rw [Heap.relink_other _ notT]
  | cons later rest ih =>
    obtain ⟨-, tNode, there, points, laterNode, hereLater, behind⟩ := linked
    have points : tNode.next = some later := points
    obtain ⟨notAgain, distinct'⟩ := nodup_cons.mp distinct
    have apart : task ≠ t := fun same => fresh (same ▸ mem_cons_self)
    have fresh' : task ∉ later :: rest := fun member => fresh (mem_cons_of_mem _ member)
    cases steps with
    | zero => exact absurd enough (Nat.not_lt_zero _)
    | succ steps =>
      rw [insertBehind, due_eq hereLater]
      by_cases before : nextExecution < laterNode.nextExecution
      · rw [if_pos before]
        have rest' : Linked ((heap.relink task (some later)).relink t (some task)) (some later)
            (later :: rest) := by
          have whole : Linked heap (some later) (later :: rest) :=
            ⟨rfl, laterNode, hereLater, behind⟩
          exact (whole.relink fresh' _).relink notAgain _
        have walked : insertWalk task nextExecution (steps + 1) t heap =
            some ((heap.relink task (some later)).relink t (some task)) := by
          simp [insertWalk, there, points, hereLater, before]
        refine ⟨_, walked, ⟨rfl, { tNode with next := some task },
          ?_, rfl, { node with next := some later }, ?_, rest'⟩,
          (relinked_relink _ _ _).trans (relinked_relink _ _ _), fun address notTask outside => ?_⟩
        · rw [Heap.relink_self, Heap.relink_other _ (Ne.symm apart), there]
          rfl
        · rw [Heap.relink_other _ apart, Heap.relink_self, here]
          rfl
        · have notT : address ≠ t := fun same => outside (same ▸ mem_cons_self)
          rw [Heap.relink_other _ notT, Heap.relink_other _ notTask]
      · rw [if_neg before]
        obtain ⟨after, walked, linked', relinked, same⟩ :=
          ih ⟨rfl, laterNode, hereLater, behind⟩ distinct' fresh' (Nat.lt_of_succ_lt_succ enough)
        refine ⟨after, by simp [insertWalk, there, points, hereLater, before, walked],
          ⟨rfl, tNode, ?_, ?_⟩, relinked, fun address notTask outside => same address notTask
          fun member => outside (mem_cons_of_mem _ member)⟩
        · rw [same t (Ne.symm apart) notAgain, there]
        · change Linked after tNode.next _
          rw [points]
          exact linked'

/-- A removal walks past the tasks that are not meant. -/
theorem removeWalk_found {element : Option Nat} (previous : Option Nat)
    (linked : Linked ctx.heap element (front ++ t :: back)) (others : ∀ other ∈ front,
      ∀ otherNode, ctx.heap other = some otherNode → isIt otherNode = false)
    (here : ctx.heap t = some node) (isThis : isIt node = true) (enough : front.length < steps) :
    removeWalk isIt steps previous element ctx =
      some (some t, ⟨(ctx.heap.bypass (front.getLast?.or previous) node.next ctx.taskList).2,
      (ctx.heap.bypass (front.getLast?.or previous) node.next ctx.taskList).1⟩) := by
  induction front generalizing element previous steps with
  | nil =>
    obtain ⟨rfl, -, -, -⟩ := linked
    cases steps with
    | zero => exact absurd enough (Nat.not_lt_zero _)
    | succ steps => simp [removeWalk, here, isThis]
  | cons first front ih =>
    obtain ⟨rfl, firstNode, there, rest⟩ := linked
    have notThis := others first mem_cons_self firstNode there
    cases steps with
    | zero => exact absurd enough (Nat.not_lt_zero _)
    | succ steps =>
      have later := ih (some first) rest
        (fun other member => others other (mem_cons_of_mem _ member))
        (Nat.lt_of_succ_lt_succ enough)
      rw [removeWalk, there, bind_eq_bind, bind_some,
        if_neg (Bool.eq_false_iff.mp notThis), lastOr_cons]
      exact later

theorem removeWalk_absent {element : Option Nat} (previous : Option Nat)
    (linked : Linked ctx.heap element items) (others : ∀ other ∈ items, ∀ otherNode,
      ctx.heap other = some otherNode → isIt otherNode = false) (enough : items.length ≤ steps) :
    removeWalk isIt steps previous element ctx = some (none, ctx) := by
  induction items generalizing element previous steps with
  | nil =>
    obtain rfl : element = none := linked
    simp [removeWalk]
  | cons first items ih =>
    obtain ⟨rfl, firstNode, there, rest⟩ := linked
    have notThis := others first mem_cons_self firstNode there
    cases steps with
    | zero => exact absurd enough (Nat.not_succ_le_zero _)
    | succ steps =>
      rw [removeWalk, there, bind_eq_bind, bind_some, if_neg (Bool.eq_false_iff.mp notThis)]
      exact ih (some first) rest (fun other member => others other (mem_cons_of_mem _ member))
        (Nat.le_of_succ_le_succ enough)

/-- The list consists of the tasks at some addresses, by the time of their next execution. -/
structure TaskCtx.Lists (ctx : TaskCtx) (items : List Nat) : Prop where
  linked : Linked ctx.heap ctx.taskList items
  distinct : items.Nodup
  byTime : ByTime ctx.heap items

/-- Once the time of a task is set, the list is in order again when only pointers are written. -/
theorem TaskCtx.Lists.inserted {next : TaskCtx} (lists : ctx.Lists items) (fresh : task ∉ items)
    (here : heap task = some node) (elsewhere : ∀ other, other ≠ task → heap other = ctx.heap other)
    (relinked : Relinked heap next.heap) (linked : Linked next.heap next.taskList
      (insertTask (due heap) node.nextExecution task items)) :
    next.Lists (insertTask (due next.heap) node.nextExecution task items) ∧ due next.heap task =
      node.nextExecution ∧ ∀ other, other ≠ task → due next.heap other = due ctx.heap other := by
  have times : due next.heap = due heap := funext (Relinked.due relinked)
  have isTime : due heap task = node.nextExecution := due_eq here
  have others : ∀ other, other ≠ task → due heap other = due ctx.heap other :=
    fun other different => by
    rw [due, elsewhere other different, due]
  have member_ne : ∀ other ∈ items, other ≠ task := fun other member same => fresh (same ▸ member)
  have sorted : ByTime heap items := by
    refine List.Pairwise.imp_of_mem ?_ lists.byTime
    intro earlier later one two ordered
    rw [others earlier (member_ne earlier one), others later (member_ne later two)]
    exact ordered
  rw [times]
  refine ⟨⟨linked, ?_, ?_⟩, isTime, others⟩
  · exact insertTask_perm.nodup_iff.mpr (nodup_cons.mpr ⟨fresh, lists.distinct⟩)
  · rw [ByTime, times]
    exact insertTask_sorted sorted isTime

/-- A task that is not in the list is put where it belongs; the assertion holds. -/
theorem bhScheduleTask_lists (lists : ctx.Lists items)
    (fresh : task ∉ items) (here : ctx.heap task = some node)
    (enough : items.length ≤ steps) (secsFromNow : Int32) (now : Int) :
    ∃ next, bhScheduleTask steps task secsFromNow now ctx = some next ∧
    next.Lists (insertTask (due next.heap) (now + secsFromNow.toInt) task items) ∧
    due next.heap task = now + secsFromNow.toInt ∧ ∀ other, other ≠ task →
    due next.heap other = due ctx.heap other := by
  let nextExecution := now + secsFromNow.toInt
  let set : Task := { node with nextExecution := nextExecution, next := none }
  let heap : Heap Task := update ctx.heap task (some set)
  have elsewhere : ∀ other, other ≠ task → heap other = ctx.heap other :=
    fun other different => update_of_ne different ..
  have isSet : heap task = some set := update_self ..
  have linkedSet : Linked heap ctx.taskList items := lists.linked.frame fun other member => by
    rw [elsewhere other fun same => fresh (same ▸ member)]
  cases items with
  | nil =>
    have empty : ctx.taskList = none := linkedSet
    have ran : bhScheduleTask steps task secsFromNow now ctx = some ⟨heap, some task⟩ := by
      simp [bhScheduleTask, here, empty, heap, set, nextExecution]
    exact ⟨_, ran, lists.inserted fresh isSet elsewhere (.refl heap) ⟨rfl, set, isSet, rfl⟩⟩
  | cons first rest =>
    obtain ⟨head, firstNode, there, behind⟩ := linkedSet
    have firstDue := due_eq there
    by_cases before : nextExecution ≤ firstNode.nextExecution
    · have ran : bhScheduleTask steps task secsFromNow now ctx =
          some ⟨heap.relink task (some first), some task⟩ := by
        simp [bhScheduleTask, here, head, there, before, heap, set, nextExecution]
      refine ⟨_, ran, lists.inserted fresh isSet elsewhere (relinked_relink _ _ _) ?_⟩
      have whole : Linked heap (some first) (first :: rest) := ⟨rfl, firstNode, there, behind⟩
      rw [insertTask, firstDue, if_pos before]
      refine ⟨rfl, { set with next := some first }, ?_, whole.relink fresh _⟩
      exact (Heap.relink_self task (some first) heap).trans (by rw [isSet]; rfl)
    · have later : firstNode.nextExecution < nextExecution := Int.not_le.mp before
      obtain ⟨after, walked, linkedAfter, relinked, -⟩ := insertWalk_spec nextExecution
        (⟨rfl, firstNode, there, behind⟩ : Linked heap (some first) (first :: rest)) lists.distinct
        fresh isSet rfl enough
      have ran : bhScheduleTask steps task secsFromNow now ctx = some ⟨after, some first⟩ := by
        have notBefore : ¬ now + secsFromNow.toInt ≤ firstNode.nextExecution := before
        have isLater : firstNode.nextExecution < now + secsFromNow.toInt := later
        have there' : update ctx.heap task (some set) first = some firstNode := there
        have walked' : insertWalk task
            (now + secsFromNow.toInt) steps first (update ctx.heap task (some set)) = some after :=
          walked
        simp only [bhScheduleTask, here, head, bind_eq_bind, bind_some]
        rw [there', bind_some, if_neg notBefore, if_pos isLater, walked', map_some]
      refine ⟨_, ran, lists.inserted fresh isSet elsewhere relinked ?_⟩
      rw [insertTask, firstDue, if_neg before]
      exact linkedAfter

theorem bhCheckTask_empty (lists : ctx.Lists []) (now : Int) (secs : Int32) :
    bhCheckTask now secs ctx = some (none, 120, ctx) := by
  have empty : ctx.taskList = none := lists.linked
  rw [bhCheckTask, empty]

/-- The first task is taken if it is due. -/
theorem bhCheckTask_due {first : Nat} (lists : ctx.Lists (first :: items))
    {now : Int} (isDue : due ctx.heap first ≤ now) (secs : Int32) :
    ∃ next, bhCheckTask now secs ctx = some (some first, secs, next) ∧ next.Lists items ∧
    next.heap = ctx.heap := by
  obtain ⟨⟨head, node, here, rest⟩, distinct, byTime⟩ := lists
  rw [due_eq here] at isDue
  refine ⟨{ ctx with taskList := node.next }, ?_,
    ⟨rest, (nodup_cons.mp distinct).2, (pairwise_cons.mp byTime).2⟩, rfl⟩
  rw [bhCheckTask, head]
  simp [here, isDue]

theorem bhCheckTask_early {first : Nat} (lists : ctx.Lists (first :: items))
    {now : Int} (early : now < due ctx.heap first) (secs : Int32) :
    bhCheckTask now secs ctx = some (none, Int32.ofInt (due ctx.heap first - now), ctx) := by
  obtain ⟨⟨head, node, here, rest⟩, -, -⟩ := lists
  rw [due_eq here] at early ⊢
  rw [bhCheckTask, head]
  simp [here, Int.not_le.mpr early]

theorem not_meant (others : ∀ other ∈ items, ¬(heap other).any isIt = true) :
    ∀ other ∈ items, ∀ otherNode, heap other = some otherNode → isIt otherNode = false := by
  intro other member otherNode there
  have notThis := others other member
  rw [there] at notThis
  exact Bool.eq_false_iff.mpr notThis

/-- The first task that is meant is removed, and the others stay in order. -/
theorem removeTask_lists (lists : ctx.Lists items)
    (isIt : Task → Bool) (enough : items.length ≤ steps) : ∃ next,
    removeTask isIt steps ctx = some (items.find? fun task => (ctx.heap task).any isIt, next) ∧
    next.Lists (items.eraseP fun task => (ctx.heap task).any isIt) ∧
    Relinked ctx.heap next.heap := by
  obtain ⟨linked, distinct, byTime⟩ := lists
  cases found : items.find? fun task => (ctx.heap task).any isIt with
  | none =>
    have others := List.find?_eq_none.mp found
    refine ⟨ctx, removeWalk_absent none linked (not_meant others) enough, ?_, .refl _⟩
    rw [eraseP_of_forall_not others]
    exact ⟨linked, distinct, byTime⟩
  | some task =>
    obtain ⟨isThis, front, back, rfl, before⟩ := List.find?_eq_some_iff_append.mp found
    obtain ⟨node, here, isNode⟩ := (any_eq_true isIt _).mp isThis
    have others : ∀ other ∈ front, ¬(ctx.heap other).any isIt = true := fun other member => by
      simpa using before other member
    have fewer : front.length < steps := by
      rw [length_append, length_cons] at enough
      omega
    have ran := removeWalk_found none linked (not_meant others) here isNode fewer
    rw [or_none] at ran
    refine ⟨_, ran, ?_, relinked_bypass _ _ _ _⟩
    have erased : (front ++ task :: back).eraseP (fun task => (ctx.heap task).any isIt) =
        front ++ back := by
      rw [eraseP_append_right _ others,
        eraseP_cons_of_pos (p := fun task => (ctx.heap task).any isIt) isThis]
    have part : (front ++ back).Sublist (front ++ task :: back) :=
      List.Sublist.append_left (sublist_cons_self _ _) _
    rw [erased]
    refine ⟨bypass_linked linked distinct here, distinct.sublist part, ?_⟩
    exact Relinked.byTime (relinked_bypass _ _ _ _) (byTime.sublist part)

end Operations

/-! ## Sequences of calls -/

/-- The list, with the tasks that were scheduled and neither taken nor removed since. -/
structure TaskSystem where
  ctx : TaskCtx
  pending : List Nat
  /-- The time of the last call. -/
  now : Int
  /-- What the last call returned. -/
  returned : Option Nat
  /-- The seconds to the first task, as the caller has them. -/
  secsToFirstTask : Int32

/-- `bh_init_task_scheduler` -/
def TaskSystem.start (now : Int) : TaskSystem := ⟨⟨fun _ => none, none⟩, [], now, none, 0⟩

/-- The calls. -/
inductive TaskEvent where
  /-- the owner of an address allocates, writes or frees what is there -/
  | memory (address : Nat) (task : Option Task)
  | schedule (task : Nat) (secsFromNow : Int32) (now : Int)
  | check (now : Int)
  | removeByData (dataPtr : Option Nat)
  | removeByName (name : CString)

/-- What the callers keep to: time does not go back, and a queued task is neither scheduled again
nor written. -/
def Schedulable (state : TaskSystem) : TaskEvent → Prop
  | .memory address _ => address ∉ state.pending
  | .schedule task _ now => task ∉ state.pending ∧
      (state.ctx.heap task).isSome = true ∧ state.now ≤ now
  | .check now => state.now ≤ now
  | .removeByData _ => True
  | .removeByName _ => True

/-- A call that returned a task, if it did, took it out of the list. -/
def TaskSystem.takes (returned : Option Nat) (ctx : TaskCtx) (state : TaskSystem) : TaskSystem :=
  { state with
    ctx := ctx
    pending := (returned.map state.pending.erase).getD state.pending
    returned := returned }

/-- One call. A walk over the list may take as many steps as there are tasks. -/
def performTask : TaskEvent → TaskSystem → Option TaskSystem
  | .memory address task, state =>
    some { state with ctx := { state.ctx with heap := update state.ctx.heap address task } }
  | .schedule task secsFromNow now, state =>
    (bhScheduleTask state.pending.length task secsFromNow now state.ctx).map fun ctx =>
      { state with ctx := ctx, pending := task :: state.pending, now := now, returned := none }
  | .check now, state =>
    (bhCheckTask now state.secsToFirstTask state.ctx).map fun result =>
      { state.takes result.1 result.2.2 with now := now, secsToFirstTask := result.2.1 }
  | .removeByData dataPtr, state =>
    (bhRemoveTaskByData state.pending.length dataPtr state.ctx).map fun result =>
      state.takes result.1 result.2
  | .removeByName name, state =>
    (bhRemoveTaskByName state.pending.length name state.ctx).map fun result =>
      state.takes result.1 result.2

/-- The list is in order and has exactly the pending tasks, each once. -/
def TaskSystem.Scheduled (state : TaskSystem) : Prop :=
  ∃ items, state.ctx.Lists items ∧ items.Perm state.pending

/-- `bh_check_task` returns a task that is due and that no other is before, or tells how far the
first one is. -/
def Checks (now : Int) (state next : TaskSystem) : Prop :=
  (∃ task ∈ state.pending, next.returned = some task ∧ due state.ctx.heap task ≤ now ∧
    (∀ other ∈ state.pending, due state.ctx.heap task ≤ due state.ctx.heap other) ∧
    next.pending = state.pending.erase task) ∨
    (next.returned = none ∧
      next.pending = state.pending ∧ (∀ other ∈ state.pending, now < due state.ctx.heap other) ∧
      ((state.pending = [] ∧ next.secsToFirstTask = 120) ∨ ∃ task ∈ state.pending,
      next.secsToFirstTask.toInt = due state.ctx.heap task - now ∧ 0 < next.secsToFirstTask.toInt ∧
      ∀ other ∈ state.pending, due state.ctx.heap task ≤ due state.ctx.heap other))

/-- A removal returns the first task that is meant, and keeps the others in order. -/
def Removes (isIt : Task → Bool) (state next : TaskSystem) : Prop :=
  ∀ items, state.ctx.Lists items →
    next.returned = items.find? (fun task => (state.ctx.heap task).any isIt) ∧
    next.ctx.Lists (items.eraseP fun task => (state.ctx.heap task).any isIt)

/-- What a call should do. -/
def Behaves (state next : TaskSystem) : TaskEvent → Prop
  | .memory _ _ => next.pending = state.pending
  | .schedule task secsFromNow now =>
    next.pending = task :: state.pending ∧ due next.ctx.heap task = now + secsFromNow.toInt
  | .check now => Checks now state next
  | .removeByData dataPtr => Removes (fun task => task.taskData = dataPtr) state next
  | .removeByName name => Removes (fun task => task.taskType = name) state next

/-- The invariant of the runs. -/
structure TaskSystem.Kept (state : TaskSystem) (items : List Nat) : Prop where
  lists : state.ctx.Lists items
  pending : items.Perm state.pending
  /-- No task is farther away than an `int` can tell. -/
  soon : ∀ task ∈ items, due state.ctx.heap task < state.now + 2 ^ 31

/-- The task that is found first is the one that is erased. -/
theorem eraseP_eq_erase {items : List Nat} {isIt : Nat → Bool} {task : Nat} (distinct : items.Nodup)
    (found : items.find? isIt = some task) : items.eraseP isIt = items.erase task := by
  obtain ⟨isThis, front, back, rfl, before⟩ := List.find?_eq_some_iff_append.mp found
  have first : task ∉ front := fun inFront =>
    (nodup_append.mp distinct).2.2 task inFront task mem_cons_self rfl
  have others : ∀ other ∈ front, ¬isIt other = true :=
    fun other member => by simpa using before other member
  rw [erase_append_right _ first, erase_cons_head, eraseP_append_right _ others,
    eraseP_cons_of_pos isThis]

section Runs

variable {state next : TaskSystem} {items : List Nat} {task address : Nat} {now : Int}

theorem TaskSystem.Kept.start (now : Int) : (TaskSystem.start now).Kept [] :=
  ⟨⟨rfl, nodup_nil, List.Pairwise.nil⟩, .nil, fun _ member => absurd member not_mem_nil⟩

theorem TaskSystem.Kept.memory (kept : state.Kept items)
    (free : address ∉ state.pending) (written : Option Task) : TaskSystem.Kept
      { state with ctx := { state.ctx with heap := update state.ctx.heap address written } }
      items := by
  have outside : ∀ other ∈ items, other ≠ address :=
    fun other member same => free (kept.pending.subset (same ▸ member))
  have elsewhere :
      ∀ other ∈ items, update state.ctx.heap address written other = state.ctx.heap other :=
    fun other member => update_of_ne (outside other member) ..
  have times : ∀ other ∈ items,
      due (update state.ctx.heap address written) other = due state.ctx.heap other :=
    fun other member => by rw [due, elsewhere other member, due]
  refine ⟨⟨kept.lists.linked.frame fun other member => ?_, kept.lists.distinct, ?_⟩, kept.pending,
    fun other member => ?_⟩
  · exact congrArg _ (elsewhere other member)
  · refine List.Pairwise.imp_of_mem ?_ kept.lists.byTime
    intro earlier later one two ordered
    rw [times earlier one, times later two]
    exact ordered
  · rw [times other member]
    exact kept.soon other member

theorem TaskSystem.Kept.schedule (kept : state.Kept items) (fresh : task ∉ state.pending)
    (here : (state.ctx.heap task).isSome = true) (later : state.now ≤ now) (secsFromNow : Int32) :
    ∃ next, performTask (.schedule task secsFromNow now) state = some next ∧
    Behaves state next (.schedule task secsFromNow now) ∧ ∃ items, next.Kept items := by
  obtain ⟨node, isNode⟩ := isSome_iff_exists.mp here
  have outside : task ∉ items := fun member => fresh (kept.pending.subset member)
  obtain ⟨ctx, scheduled, lists, isTime, others⟩ :=
    bhScheduleTask_lists kept.lists outside isNode
      (Nat.le_of_eq kept.pending.length_eq) secsFromNow now
  refine ⟨_, by rw [performTask, scheduled, map_some], ⟨rfl, isTime⟩, _, lists,
    insertTask_perm.trans (kept.pending.cons task), fun other member => ?_⟩
  have most := secsFromNow.toInt_lt
  rcases mem_cons.mp (insertTask_perm.subset member) with rfl | member
  · change due ctx.heap other < now + 2 ^ 31
    omega
  · have different : other ≠ task := fun same => outside (same ▸ member)
    have before := kept.soon other member
    change due ctx.heap other < now + 2 ^ 31
    rw [others other different]
    omega

theorem TaskSystem.Kept.check (kept : state.Kept items) (later : state.now ≤ now) :
    ∃ next, performTask (.check now) state = some next ∧ Checks now state next ∧ ∃ items,
    next.Kept items := by
  cases items with
  | nil =>
    have empty : state.pending = [] := kept.pending.nil_eq.symm
    have ran : performTask (.check now) state =
        some { state.takes none state.ctx with now := now, secsToFirstTask := 120 } := by
      rw [performTask, bhCheckTask_empty kept.lists, map_some]
    refine ⟨_, ran, .inr ⟨rfl, rfl, ?_, .inl ⟨empty, rfl⟩⟩, [], kept.lists, kept.pending,
      fun other member => absurd member not_mem_nil⟩
    rw [empty]
    exact fun other member => absurd member not_mem_nil
  | cons first rest =>
    have isPending : first ∈ state.pending := kept.pending.subset mem_cons_self
    have least : ∀ other ∈ state.pending, due state.ctx.heap first ≤ due state.ctx.heap other := by
      intro other member
      rcases mem_cons.mp (kept.pending.symm.subset member) with rfl | member
      · exact Int.le_refl _
      · exact (pairwise_cons.mp kept.lists.byTime).1 other member
    by_cases isDue : due state.ctx.heap first ≤ now
    · obtain ⟨ctx, checked, lists, sameHeap⟩ :=
        bhCheckTask_due kept.lists isDue state.secsToFirstTask
      have ran : performTask (.check now) state =
          some { state.takes (some first) ctx with now := now } := by
        rw [performTask, checked, map_some]
        rfl
      refine ⟨_, ran, .inl ⟨first, isPending, rfl, isDue, least, rfl⟩, rest, lists, ?_,
        fun other member => ?_⟩
      · have erased := kept.pending.erase first
        rwa [erase_cons_head] at erased
      · change due ctx.heap other < now + 2 ^ 31
        have before := kept.soon other (mem_cons_of_mem _ member)
        rw [sameHeap]
        omega
    · have early : now < due state.ctx.heap first := Int.not_le.mp isDue
      have before := kept.soon first mem_cons_self
      have fits :
          (Int32.ofInt (due state.ctx.heap first - now)).toInt = due state.ctx.heap first - now :=
        Int32.toInt_ofInt_of_le (by omega) (by omega)
      have ran : performTask (.check now) state = some { state.takes none state.ctx with
          now := now
          secsToFirstTask := Int32.ofInt (due state.ctx.heap first - now) } := by
        rw [performTask, bhCheckTask_early kept.lists early, map_some]
      refine ⟨_, ran, .inr ⟨rfl, rfl, fun other member => Int.lt_of_lt_of_le early
        (least other member), .inr ⟨first, isPending, fits, ?_, least⟩⟩, first :: rest, kept.lists,
        kept.pending, fun other member => ?_⟩
      · change 0 < (Int32.ofInt (due state.ctx.heap first - now)).toInt
        rw [fits]
        omega
      · have soon := kept.soon other member
        change due state.ctx.heap other < now + 2 ^ 31
        omega

/-- Either removal. -/
theorem TaskSystem.Kept.remove (kept : state.Kept items) (isIt : Task → Bool) :
    ∃ returned ctx, removeTask isIt state.pending.length state.ctx = some (returned, ctx) ∧
    Removes isIt state (state.takes returned ctx) ∧ ∃ items,
    (state.takes returned ctx).Kept items := by
  obtain ⟨ctx, removed, lists, relinked⟩ :=
    removeTask_lists kept.lists isIt (Nat.le_of_eq kept.pending.length_eq)
  refine ⟨_, ctx, removed, fun others again => ?_, _, lists, ?_, fun other member => ?_⟩
  · obtain rfl : others = items := again.linked.unique kept.lists.linked
    exact ⟨rfl, lists⟩
  · cases found : items.find? fun task => (state.ctx.heap task).any isIt with
    | none =>
      rw [eraseP_of_forall_not (List.find?_eq_none.mp found)]
      exact kept.pending
    | some task =>
      rw [eraseP_eq_erase kept.lists.distinct found]
      exact kept.pending.erase task
  · have soon := kept.soon other (mem_of_mem_eraseP member)
    change due ctx.heap other < state.now + 2 ^ 31
    rw [Relinked.due relinked]
    exact soon

/-- Every call goes through, does what it should, and keeps the invariant. -/
theorem TaskSystem.Kept.event (kept : state.Kept items) {event : TaskEvent}
    (schedulable : Schedulable state event) : ∃ next, performTask event state = some next ∧
    Behaves state next event ∧ ∃ items, next.Kept items := by
  cases event with
  | memory address written => exact ⟨_, rfl, rfl, items, kept.memory schedulable written⟩
  | schedule task secsFromNow now =>
    exact kept.schedule schedulable.1 schedulable.2.1 schedulable.2.2 secsFromNow
  | check now => exact kept.check schedulable
  | removeByData dataPtr =>
    obtain ⟨returned, ctx, removed, removes, keeps⟩ :=
      kept.remove fun task => task.taskData = dataPtr
    exact ⟨_, by rw [performTask, bhRemoveTaskByData, removed, map_some], removes, keeps⟩
  | removeByName name =>
    obtain ⟨returned, ctx, removed, removes, keeps⟩ := kept.remove fun task => task.taskType = name
    exact ⟨_, by rw [performTask, bhRemoveTaskByName, removed, map_some], removes, keeps⟩

/-- After every sequence of calls the list is in order and has exactly the pending tasks, and every
further call goes through and does what it should. -/
theorem taskList_scheduled {start : Int} {events : List TaskEvent}
    (runs : RunsUnder performTask Schedulable (TaskSystem.start start) events state) :
    state.Scheduled ∧ ∀ event, Schedulable state event → ∃ next,
    performTask event state = some next ∧ Behaves state next event := by
  have step : ∀ {before after : TaskSystem} {event : TaskEvent}, (∃ items, before.Kept items) →
      Schedulable before event →
      performTask event before = some after → ∃ items, after.Kept items := by
    rintro before after event ⟨items, kept⟩ schedulable performed
    obtain ⟨next, performs, -, keeps⟩ := kept.event schedulable
    rw [performs] at performed
    exact some.inj performed ▸ keeps
  obtain ⟨items, kept⟩ : ∃ items, state.Kept items :=
    runs.keeps step ⟨[], TaskSystem.Kept.start start⟩
  refine ⟨⟨items, kept.lists, kept.pending⟩, fun event schedulable => ?_⟩
  obtain ⟨next, performed, behaves, -⟩ := kept.event schedulable
  exact ⟨next, performed, behaves⟩

end Runs

/-- Two tasks, scheduled in the wrong order; the second one is removed by its data. -/
def twoTasks : List TaskEvent :=
  [.memory 0 (some ⟨none, .empty, some 7, 0⟩), .memory 1 (some ⟨none, .empty, some 8, 0⟩),
    .schedule 0 30 100, .schedule 1 10 100, .removeByData (some 7), .check 105]

theorem taskList_scheduled_twoTasks : ∃ state,
    RunsUnder performTask Schedulable (TaskSystem.start 100) twoTasks state ∧ state.pending = [1] ∧
    state.secsToFirstTask = 5 ∧ state.Scheduled := by
  have runs : RunsUnder performTask Schedulable (TaskSystem.start 100) twoTasks _ :=
    .call not_mem_nil rfl (.call not_mem_nil rfl (.call ⟨not_mem_nil, rfl, by decide⟩ rfl
      (.call ⟨by decide, rfl, by decide⟩ rfl
        (.call trivial rfl (.call (by decide : (100 : Int) ≤ 105) rfl (.done _))))))
  exact ⟨_, runs, rfl, rfl, (taskList_scheduled runs).1⟩

end Idrm.Shared
