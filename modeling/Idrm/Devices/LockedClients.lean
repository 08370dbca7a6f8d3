import Idrm.Devices.ClientManager

/-!
# Locked clients

The objects behind the list of clients. `CClientManager` lists pointers to them and lends others by
`GetLockedClient`; an object counts the list and those who borrowed it, and whoever gives back
the last reference deletes it. A call that follows a pointer to no object, trips an assertion or
overflows a counter has no result.
-/

namespace Idrm.Devices

open Idrm.Lib Function Option List

/-- A `CClient` with `m_ref_num`. -/
structure ClientObject where
  client : Client
  refNum : Int

namespace ClientObject

/-- `IncreaseRef` -/
def increaseRef (object : ClientObject) : Option ClientObject :=
  if object.refNum < 2 ^ 31 - 1 then some { object with refNum := object.refNum + 1 } else none

/-- `DecreasRef` -/
def decreasRef (object : ClientObject) : Option ClientObject :=
  if -2 ^ 31 < object.refNum then some { object with refNum := object.refNum - 1 } else none

/-- An assignment of `m_online` -/
def setOnline (online : Bool) (object : ClientObject) : ClientObject :=
  { object with client := { object.client with online := online } }

end ClientObject

/-- `m_list` and `m_map_alias`, with the objects, and the references that `GetLockedClient` returned
and `UnlockClient` did not take back. -/
structure LockedClients where
  objects : Nat → Option ClientObject
  list : List Nat
  mapAlias : CString → Option Nat
  held : List Nat

namespace LockedClients

/-- No client yet. -/
def start : LockedClients := ⟨fun _ => none, [], fun _ => none, []⟩

/-- An object is changed, or deleted. -/
def put (ptr : Nat) (object : Option ClientObject) (state : LockedClients) : LockedClients :=
  { state with objects := update state.objects ptr object }

/-- `AddClient`, of an object that was just made. -/
def addClient (client : Client) (state : LockedClients) : Option LockedClients :=
  (ClientObject.increaseRef ⟨client, 0⟩).map fun object =>
    put client.id (some object) { state with list := client.id :: state.list }

/-- A reference is given back, and the last one deletes the object. -/
def release (asserts : Bool) (ptr : Nat) (object : ClientObject) (state : LockedClients) :
    Option LockedClients :=
  object.decreasRef.bind fun object =>
    if object.refNum = 0 then
      if asserts && object.client.online then none else some (put ptr none state)
    else some (put ptr (some object) state)

/-- `FreeClient` -/
def freeClient (ptr : Nat) (state : LockedClients) : Option LockedClients :=
  (state.objects ptr).bind fun object =>
    let aliasName := object.client.aliasName
    let mapAlias := if aliasName ≠ .empty then update state.mapAlias aliasName none
      else state.mapAlias
    release false ptr (object.setOnline false)
      { state with list := state.list.filter (· ≠ ptr), mapAlias := mapAlias }

/-- The walk of `GetLockedClient`, which ends at the first client with the name. -/
def findOnline (objects : Nat → Option ClientObject) (epname : CString) :
    List Nat → Option (Option Nat)
  | [] => some none
  | ptr :: rest =>
    (objects ptr).bind fun object =>
      if object.client.epname = epname then some (if object.client.online then some ptr else none)
      else findOnline objects epname rest

/-- `GetLockedClient`, with the pointer it returns. -/
def getLockedClient (epname : CString) (state : LockedClients) :
    Option (Option Nat × LockedClients) :=
  (findOnline state.objects epname state.list).bind fun
    | none => some (none, state)
    | some ptr =>
      ((state.objects ptr).bind ClientObject.increaseRef).map fun object =>
        (some ptr, put ptr (some object) { state with held := ptr :: state.held })

/-- `UnlockClient` -/
def unlockClient (ptr : Nat) (state : LockedClients) : Option LockedClients :=
  (state.objects ptr).bind fun object => release true ptr object
    { state with held := state.held.erase ptr }

/-- The calls, and the assignments of `m_online`. -/
inductive Call where
  | addClient (client : Client)
  | freeClient (ptr : Nat)
  | getLockedClient (epname : CString)
  | unlockClient (ptr : Nat)
  | setOnline (ptr : Nat) (online : Bool)

/-- One call. -/
def perform : Call → LockedClients → Option LockedClients
  | .addClient client, state => addClient client state
  | .freeClient ptr, state => freeClient ptr state
  | .getLockedClient epname, state => (getLockedClient epname state).map Prod.snd
  | .unlockClient ptr, state => unlockClient ptr state
  | .setOnline ptr online, state =>
    (state.objects ptr).map fun object => put ptr (some (object.setOnline online)) state

/-- A new client is added, a listed one freed, a reference given back once; and a client is
set online while it is listed. -/
def Legal (state : LockedClients) : Call → Prop
  | .addClient client => state.objects client.id = none
  | .freeClient ptr => ptr ∈ state.list
  | .getLockedClient _ => True
  | .unlockClient ptr => ptr ∈ state.held
  | .setOnline ptr online => (state.objects ptr).isSome ∧ (online = true → ptr ∈ state.list)

/-! ## The references -/

/-- The references to an object: those outstanding, and the list. -/
def references (state : LockedClients) (ptr : Nat) : Nat :=
  state.held.count ptr + if ptr ∈ state.list then 1 else 0

/-- An object counts its references while there are any, and is offline when it left the list. -/
def CountedAt (ptr : Nat) (state : LockedClients) : Prop :=
  match state.objects ptr with
  | none => state.references ptr = 0
  | some object =>
    object.refNum = state.references ptr ∧ 0 < state.references ptr ∧
      (ptr ∉ state.list → object.client.online = false)

/-- Every object does. -/
def Counted (state : LockedClients) : Prop := ∀ ptr, state.CountedAt ptr

section Calls

variable {state next : LockedClients} {ptr other : Nat} {object : ClientObject}

/-- What an object counts depends on nothing of the others. -/
theorem CountedAt.congr (counted : state.CountedAt other)
    (same : next.objects other = state.objects other)
    (count : next.held.count other = state.held.count other)
    (listed : other ∈ next.list ↔ other ∈ state.list) : next.CountedAt other := by
  have references : next.references other = state.references other := by
    rw [LockedClients.references, LockedClients.references, count]
    simp only [listed]
  unfold CountedAt at counted ⊢
  rw [same, references, listed]
  exact counted

theorem CountedAt.of_object (counted : state.CountedAt ptr)
    (found : state.objects ptr = some object) : object.refNum = state.references ptr ∧
    0 < state.references ptr ∧ (ptr ∉ state.list → object.client.online = false) := by
  unfold CountedAt at counted
  rw [found] at counted
  exact counted

/-- An object that was put counts as it does. -/
theorem put_counted (others : ∀ other, other ≠ ptr → state.CountedAt other)
    (count : object.refNum = state.references ptr) (referred : 0 < state.references ptr)
    (offline : ptr ∉ state.list → object.client.online = false) :
    (put ptr (some object) state).Counted := by
  intro other
  by_cases same : other = ptr
  · subst same
    have here : (put other (some object) state).objects other = some object := update_self ..
    unfold CountedAt
    rw [here]
    exact ⟨count, referred, offline⟩
  · exact (others other same).congr (update_of_ne same ..) rfl Iff.rfl

/-- An object without references is deleted. -/
theorem delete_counted (others : ∀ other, other ≠ ptr → state.CountedAt other)
    (unreferred : state.references ptr = 0) : (put ptr none state).Counted := by
  intro other
  by_cases same : other = ptr
  · subst same
    have here : (put other none state).objects other = none := update_self ..
    unfold CountedAt
    rw [here]
    exact unreferred
  · exact (others other same).congr (update_of_ne same ..) rfl Iff.rfl

/-- A reference that is given back is one less, and the last one deletes the object. No client
that reaches zero is online. -/
theorem release_counted (asserts : Bool) (others : ∀ other, other ≠ ptr → state.CountedAt other)
    (count : object.refNum = state.references ptr + 1)
    (offline : ptr ∉ state.list → object.client.online = false) :
    ∃ next, release asserts ptr object state = some next ∧ next.Counted := by
  have counted : object.decreasRef = some { object with refNum := state.references ptr } := by
    rw [ClientObject.decreasRef, if_pos (by omega), count]
    simp only [add_sub_cancel_right]
  rw [release, counted, bind_some]
  by_cases last : state.references ptr = 0
  · have unlisted : ptr ∉ state.list := by
      intro listed
      rw [references, if_pos listed] at last
      omega
    rw [if_pos (by simp only [last, Nat.cast_zero]), offline unlisted, Bool.and_false,
      if_neg Bool.false_ne_true]
    exact ⟨_, rfl, delete_counted others last⟩
  · rw [if_neg (by simp only; omega)]
    exact ⟨_, rfl, put_counted others rfl (by omega) offline⟩

theorem references_eq_zero : state.references ptr = 0 ↔ ptr ∉ state.held ∧ ptr ∉ state.list := by
  rw [references, Nat.add_eq_zero_iff, count_eq_zero]
  split
  · rename_i listed
    exact iff_of_false (fun zero => Nat.one_ne_zero zero.2) (fun none => none.2 listed)
  · rename_i unlisted
    exact and_congr_right fun _ => iff_of_true rfl unlisted

/-- To what is no object there is no reference. -/
theorem Counted.unreferred (counted : state.Counted) (none : state.objects ptr = none) :
    state.references ptr = 0 := by
  have here := counted ptr
  unfold CountedAt at here
  rw [none] at here
  exact here

theorem Counted.alive (counted : state.Counted) (referred : 0 < state.references ptr) :
    ∃ object, state.objects ptr = some object ∧ object.refNum = state.references ptr ∧
      (ptr ∉ state.list → object.client.online = false) := by
  cases found : state.objects ptr with
  | none => exact absurd (counted.unreferred found) (Nat.ne_of_gt referred)
  | some object =>
    obtain ⟨count, -, offline⟩ := (counted ptr).of_object found
    exact ⟨object, rfl, count, offline⟩

theorem references_listed (listed : ptr ∈ state.list) :
    state.references ptr = state.held.count ptr + 1 := by
  rw [references, if_pos listed]

/-- A client that is added is referred to by the list. -/
theorem Counted.addClient (counted : state.Counted) {client : Client}
    (new : state.objects client.id = none) :
    ∃ next, addClient client state = some next ∧ next.Counted := by
  have none : state.held.count client.id = 0 :=
    Nat.eq_zero_of_add_eq_zero_right (counted.unreferred new)
  have references :
      LockedClients.references { state with list := client.id :: state.list } client.id = 1 := by
    rw [references_listed mem_cons_self]
    simp only [none]
  refine ⟨_, rfl, put_counted (fun other different => ?_) ?_ ?_ fun unlisted =>
    absurd mem_cons_self unlisted⟩
  · exact (counted other).congr rfl rfl (by simp only [mem_cons, different, false_or])
  · rw [references]
    rfl
  · rw [references]
    exact Nat.one_pos

theorem Counted.freeClient (counted : state.Counted) (listed : ptr ∈ state.list) :
    ∃ next, freeClient ptr state = some next ∧ next.Counted := by
  have references := references_listed listed
  obtain ⟨object, found, count, -⟩ := counted.alive (show 0 < state.references ptr by omega)
  rw [LockedClients.freeClient, found, bind_some]
  refine release_counted false (fun other different => ?_) ?_ fun _ => rfl
  · exact (counted other).congr rfl rfl
      (by simp only [mem_filter, different, ne_eq, not_false_eq_true, decide_true, and_true])
  · have gone : ptr ∉ state.list.filter (· ≠ ptr) := by simp
    rw [LockedClients.references, if_neg gone]
    exact count.trans (by rw [references]; rfl)

theorem Counted.unlockClient (counted : state.Counted) (held : ptr ∈ state.held) :
    ∃ next, unlockClient ptr state = some next ∧ next.Counted := by
  have some : 0 < state.held.count ptr := count_pos_iff.mpr held
  obtain ⟨object, found, count, offline⟩ := counted.alive (Nat.add_pos_left some _)
  rw [LockedClients.unlockClient, found, bind_some]
  refine release_counted true (fun other different => ?_) ?_ offline
  · exact (counted other).congr rfl (count_erase_of_ne different) Iff.rfl
  · rw [count, references, references]
    simp only [count_erase_self]
    omega

theorem Counted.setOnline (counted : state.Counted) (found : state.objects ptr = some object)
    {online : Bool} (listed : online = true → ptr ∈ state.list) :
    (put ptr (some (object.setOnline online)) state).Counted := by
  obtain ⟨count, referred, -⟩ := (counted ptr).of_object found
  refine put_counted (fun other _ => counted other) count referred fun unlisted => ?_
  exact Bool.eq_false_iff.mpr fun set => unlisted (listed set)

/-- The walk reaches only objects, and returns a listed client that is online. -/
theorem findOnline_some {objects : Nat → Option ClientObject} (epname : CString) {list : List Nat}
    (alive : ∀ ptr ∈ list, (objects ptr).isSome) : findOnline objects epname list = some none ∨
    ∃ ptr ∈ list, findOnline objects epname list = some (some ptr) := by
  induction list with
  | nil => exact .inl rfl
  | cons first rest ih =>
    obtain ⟨here, later⟩ := forall_mem_cons.mp alive
    obtain ⟨object, found⟩ := isSome_iff_exists.mp here
    rw [findOnline, found, bind_some]
    by_cases named : object.client.epname = epname
    · rw [if_pos named]
      cases object.client.online with
      | false => exact .inl rfl
      | true => exact .inr ⟨first, mem_cons_self, rfl⟩
    · rw [if_neg named]
      rcases ih later with none | ⟨ptr, member, some⟩
      · exact .inl none
      · exact .inr ⟨ptr, mem_cons_of_mem _ member, some⟩

/-- A lookup finds a client that counts as many references as it can. -/
def Overflows (state : LockedClients) : Call → Prop
  | .getLockedClient epname =>
    ∃ ptr object, findOnline state.objects epname state.list = some (some ptr) ∧
      state.objects ptr = some object ∧ 2 ^ 31 - 1 ≤ object.refNum
  | _ => False

theorem Counted.getLockedClient (counted : state.Counted) (epname : CString) :
    (∃ found next, getLockedClient epname state = some (found, next) ∧ next.Counted ∧ ∀ ptr ∈ found,
      ptr ∈ state.list) ∨ state.Overflows (.getLockedClient epname) := by
  have alive : ∀ ptr ∈ state.list, (state.objects ptr).isSome := by
    intro ptr listed
    obtain ⟨object, found, -⟩ := counted.alive (by rw [references_listed listed]; omega)
    rw [found]
    rfl
  rcases findOnline_some epname alive with none | ⟨ptr, listed, found⟩
  · left
    rw [LockedClients.getLockedClient, none]
    exact ⟨_, _, rfl, counted, nofun⟩
  · have references := references_listed listed
    obtain ⟨object, here, count, -⟩ := counted.alive (show 0 < state.references ptr by omega)
    by_cases room : object.refNum < 2 ^ 31 - 1
    · left
      have increased : object.increaseRef = some { object with refNum := object.refNum + 1 } :=
        if_pos room
      have lent : LockedClients.references { state with held := ptr :: state.held } ptr =
          state.references ptr + 1 := by
        simp only [LockedClients.references, count_cons_self, if_pos listed]
      have locked : LockedClients.getLockedClient epname state = some (some ptr,
          put ptr (some { object with refNum := object.refNum + 1 })
          { state with held := ptr :: state.held }) := by
        simp only [LockedClients.getLockedClient, found, here, bind_some, increased, map_some]
      refine ⟨_, _, locked, put_counted (fun other different => ?_) ?_ ?_ fun unlisted =>
        absurd listed unlisted, ?_⟩
      · exact (counted other).congr rfl (count_cons_of_ne (Ne.symm different)) Iff.rfl
      · rw [lent, count]
        rfl
      · rw [lent]
        exact Nat.succ_pos _
      · rintro _ ⟨rfl⟩
        exact listed
    · exact .inr ⟨ptr, object, found, here, Int.not_lt.mp room⟩

theorem Overflows.stops {call : Call} (overflows : state.Overflows call) :
    perform call state = none := by
  cases call with
  | getLockedClient epname =>
    obtain ⟨ptr, object, found, here, full⟩ := overflows
    have refused : object.increaseRef = none := if_neg (Int.not_lt.mpr full)
    simp only [perform, getLockedClient, found, here, bind_some, refused, map_none]
  | addClient client => cases overflows
  | freeClient ptr => cases overflows
  | unlockClient ptr => cases overflows
  | setOnline ptr online => cases overflows

/-- A legal call keeps the counts, and stops only where a counter would overflow. -/
theorem Counted.perform (counted : state.Counted) {call : Call} (legal : Legal state call) :
    (∃ next, perform call state = some next ∧ next.Counted) ∨ state.Overflows call := by
  cases call with
  | addClient client => exact .inl (counted.addClient legal)
  | freeClient ptr => exact .inl (counted.freeClient legal)
  | getLockedClient epname =>
    rcases counted.getLockedClient epname with ⟨found, next, locked, kept, -⟩ | overflows
    · exact .inl ⟨next, by rw [LockedClients.perform, locked]; rfl, kept⟩
    · exact .inr overflows
  | unlockClient ptr => exact .inl (counted.unlockClient legal)
  | setOnline ptr online =>
    obtain ⟨alive, listed⟩ := legal
    obtain ⟨object, found⟩ := isSome_iff_exists.mp alive
    exact .inl ⟨_, by rw [LockedClients.perform, found, map_some], counted.setOnline found listed⟩

/-! ## Runs -/

/-- What holds between the calls. A call would stop as well where it follows a pointer to no object,
and `UnlockClient` where the assertion fails. -/
structure Sound (state : LockedClients) : Prop where
  counts : ∀ ptr object, state.objects ptr = some object →
    object.refNum = state.held.count ptr + if ptr ∈ state.list then 1 else 0
  deleted : ∀ ptr, state.objects ptr = none ↔ ptr ∉ state.held ∧ ptr ∉ state.list
  returned : ∀ epname ptr next, getLockedClient epname state = some (some ptr, next) →
    ptr ∈ state.list
  stops : ∀ call, Legal state call →
    (LockedClients.perform call state = none ↔ state.Overflows call)

theorem Counted.sound (counted : state.Counted) : state.Sound where
  counts := by
    intro ptr object found
    rw [((counted ptr).of_object found).1, references]
    push_cast
    rfl
  deleted := by
    intro ptr
    rw [← references_eq_zero]
    refine ⟨counted.unreferred, fun unreferred => ?_⟩
    cases found : state.objects ptr with
    | none => rfl
    | some object => exact absurd unreferred (Nat.ne_of_gt ((counted ptr).of_object found).2.1)
  returned := by
    intro epname ptr next locked
    rcases counted.getLockedClient epname with ⟨found, next', locked', -, listed⟩ | overflows
    · obtain ⟨rfl, -⟩ := Prod.mk.inj (some.inj (locked'.symm.trans locked))
      exact listed ptr rfl
    · have stops := overflows.stops
      rw [LockedClients.perform, locked] at stops
      cases stops
  stops := by
    intro call legal
    refine ⟨fun none => ?_, Overflows.stops⟩
    rcases counted.perform legal with ⟨next, performed, -⟩ | overflows
    · rw [performed] at none
      cases none
    · exact overflows

/-- In every run of legal calls the clients count their references, and are deleted with the last
one. -/
theorem clients_counted {calls : List Call} {final : LockedClients}
    (runs : RunsUnder LockedClients.perform Legal start calls final) : final.Sound := by
  have none : start.Counted := fun ptr => rfl
  refine Counted.sound (runs.keeps ?_ none)
  intro state next call counted legal performed
  rcases counted.perform legal with ⟨next', performed', kept⟩ | overflows
  · obtain rfl := some.inj (performed'.symm.trans performed)
    exact kept
  · rw [overflows.stops] at performed
    cases performed

/-- A client is borrowed, leaves the list, and is given back. -/
def sampleCalls : List Call :=
  [.addClient (.new 3 .empty), .getLockedClient .empty, .freeClient 3, .unlockClient 3]

theorem clients_counted_borrowed :
    ∃ final, RunsUnder LockedClients.perform Legal start sampleCalls final ∧ final.Sound := by
  have runs : ∃ final, RunsUnder LockedClients.perform Legal start sampleCalls final := by
    refine ⟨_, .call rfl rfl (.call trivial rfl (.call ?_ rfl (.call ?_ rfl (.done _))))⟩
    · exact mem_cons_self
    · exact mem_cons_self
  obtain ⟨final, runs⟩ := runs
  exact ⟨final, runs, clients_counted runs⟩

end Calls

end LockedClients

end Idrm.Devices
