import Mathlib.Data.List.Infix
import Mathlib.Data.Option.Basic

/-!
# Messages with handlers

`get_msg_call_handler` takes messages from a queue and runs their handlers, until it takes one
without a handler, the queue stays empty or its time is used up. The queue is the list of its
messages; other threads add to it while the loop waits and while a handler runs.
-/

namespace Idrm.Shared

open List

/-- `msg_t`, as far as the loop reads it. -/
structure CallMsg (H : Type) where
  id : Nat
  msgHandler : Option H
deriving DecidableEq

/-- What the variable `msg` holds. -/
inductive MsgVariable (H : Type) where
  | uninitialized
  | null
  | message (msg : CallMsg H)
deriving DecidableEq

section Calls

variable {H : Type}

/-- `get_msg_call_handler` between two rounds, with what it has done. -/
structure CallState (H : Type) where
  queue : List (CallMsg H)
  timeout : Int32
  last : Int64
  msg : MsgVariable H
  taken : List (CallMsg H)
  called : List (CallMsg H)
  freed : List (CallMsg H)
  returned : Bool

/-- The start of `get_msg_call_handler`, at a time in seconds. -/
def CallState.start (queue : List (CallMsg H)) (timeout : Int32) (now : Int64) : CallState H :=
  ⟨queue, timeout, now, .uninitialized, [], [], [], false⟩

/-- The loop condition and the body; `now` is the time behind the handler. -/
def CallState.round (now : Int64) (state : CallState H) : CallState H :=
  if 0 ≤ state.timeout then
    match state.queue with
    | [] => { state with msg := .null, returned := true }
    | msg :: rest =>
      let got := { state with queue := rest, msg := .message msg, taken := state.taken ++ [msg] }
      match msg.msgHandler with
      | none => { got with returned := true }
      | some _ =>
        { got with
          called := got.called ++ [msg]
          freed := got.freed ++ [msg]
          timeout := (got.timeout.toInt64 - (now - got.last)).toInt32
          last := now }
  else { state with returned := true }

/-- The call after some rounds; `posted` is what is posted before the `get_msg` of each of them
returns, and `clock` the time after so many handlers. -/
def callAfter (posted : Nat → List (CallMsg H)) (clock : Nat → Int64) (timeout : Int32)
    (queue : List (CallMsg H)) : Nat → CallState H
  | 0 => .start queue timeout (clock 0)
  | rounds + 1 =>
    let before := callAfter posted clock timeout queue rounds
    let found := { before with queue := before.queue ++ posted rounds }
    if found.returned then found else found.round (clock (rounds + 1))

/-! ## What is handed out -/

/-- The result is `NULL`, or the message that was taken last, which has no handler and was not
freed. -/
def CallState.HandsOut (state : CallState H) : Prop :=
  state.msg = .null ∨ ∃ msg, state.msg = .message msg ∧ state.taken.getLast? = some msg ∧
    msg.msgHandler = none ∧ msg ∉ state.freed

/-- Every handler of a message that was taken has been run, once. -/
def CallState.CallsOnce (state : CallState H) : Prop :=
  state.called = state.taken.filter (·.msgHandler.isSome)

/-- The message that a round gets, if all the rounds before it got one. -/
def gotAt (posted : Nat → List (CallMsg H)) (queue : List (CallMsg H)) (round : Nat) :
    Option (CallMsg H) :=
  (queue ++ (List.range (round + 1)).flatMap posted)[round]?

/-- The first rounds all get a message with a handler. -/
def Handled (posted : Nat → List (CallMsg H)) (queue : List (CallMsg H)) (rounds : Nat) : Prop :=
  ∀ round < rounds, ∃ msg, gotAt posted queue round = some msg ∧ msg.msgHandler.isSome = true

/-- What is left of the timeout after so many handlers. -/
def timeLeft (timeout : Int32) (clock : Nat → Int64) (rounds : Nat) : Int32 :=
  timeout - (clock rounds - clock 0).toInt32

/-- The time that is left, one handler after the other. -/
theorem timeLeft_succ (timeout : Int32) (clock : Nat → Int64) (rounds : Nat) :
    ((timeLeft timeout clock rounds).toInt64 - (clock (rounds + 1) - clock rounds)).toInt32 =
      timeLeft timeout clock (rounds + 1) := by
  have telescopes : clock rounds - clock 0 + (clock (rounds + 1) - clock rounds) = clock
      (rounds + 1) - clock 0 := by
    rw [Int64.add_comm, Int64.sub_eq_add_neg (clock rounds), ← Int64.add_assoc,
      Int64.sub_add_cancel, ← Int64.sub_eq_add_neg]
  rw [Int64.toInt32_sub, Int32.toInt32_toInt64, timeLeft, timeLeft, Int32.sub_sub,
    ← Int64.toInt32_add, telescopes]

variable {posted : Nat → List (CallMsg H)} {clock : Nat → Int64} {timeout : Int32}
  {queue : List (CallMsg H)}

/-- What holds of the call after some rounds. -/
structure Called (posted : Nat → List (CallMsg H)) (clock : Nat → Int64) (timeout : Int32)
    (queue : List (CallMsg H)) (rounds : Nat) (state : CallState H) : Prop where
  /-- Messages are taken in the order in which they came. -/
  inOrder : state.taken ++ state.queue = queue ++ (List.range rounds).flatMap posted
  callsOnce : state.CallsOnce
  freesCalled : state.freed = state.called
  /-- A call that goes on got a message with a handler in every round. -/
  goesOn : state.returned = false → state.taken.length = rounds ∧ Handled posted queue rounds ∧
    state.timeout = timeLeft timeout clock rounds ∧ state.last = clock rounds ∧ ¬state.HandsOut
  /-- A call that returned hands out what it should, unless its time was used up. -/
  returns : state.returned = true → state.HandsOut ∨
    ∃ round, Handled posted queue round ∧ timeLeft timeout clock round < 0

variable {rounds : Nat}

/-- What came up to the next round. -/
theorem Called.came {state : CallState H}
    (called : Called posted clock timeout queue rounds state) : state.taken ++
      (state.queue ++ posted rounds) = queue ++ (List.range (rounds + 1)).flatMap posted := by
  rw [← append_assoc, called.inOrder, range_succ, flatMap_append, append_assoc]
  simp

theorem called_start (posted : Nat → List (CallMsg H))
    (clock : Nat → Int64) (timeout : Int32) (queue : List (CallMsg H)) :
    Called posted clock timeout queue 0 (.start queue timeout (clock 0)) where
  inOrder := by simp [CallState.start]
  callsOnce := rfl
  freesCalled := rfl
  goesOn _ := by
    refine ⟨rfl, fun round impossible => absurd impossible (Nat.not_lt_zero _), ?_, rfl, ?_⟩
    · have zero : clock 0 - clock 0 = 0 := Int64.sub_self _
      rw [timeLeft, zero]
      exact (Int32.sub_zero timeout).symm
    · rintro (isNull | ⟨msg, isMessage, -⟩)
      · cases isNull
      · cases isMessage
  returns impossible := by cases impossible

/-- The next round of a call that goes on, behind what was posted. -/
theorem Called.round {state : CallState H} (called : Called posted clock timeout queue rounds state)
    (running : state.returned = false) :
    Called posted clock timeout queue (rounds + 1) (CallState.round (clock (rounds + 1))
      { state with queue := state.queue ++ posted rounds }) := by
  have came := called.came
  obtain ⟨-, callsOnce, freesCalled, goesOn, -⟩ := called
  obtain ⟨length, handled, left, last, notYet⟩ := goesOn running
  have noMore : ∀ {done : CallState H}, done.returned = true → done.returned = false → False := by
    intro done isTrue isFalse
    exact Bool.noConfusion (isTrue.symm.trans isFalse)
  unfold CallState.round
  by_cases inTime : 0 ≤ state.timeout
  · rw [if_pos inTime]
    cases found : state.queue ++ posted rounds with
    | nil =>
      rw [found] at came
      exact ⟨came, callsOnce, freesCalled, fun goes => (noMore rfl goes).elim,
        fun _ => .inl (.inl rfl)⟩
    | cons msg rest =>
      rw [found] at came
      have got : gotAt posted queue rounds = some msg := by
        rw [gotAt, ← came, ← length, List.getElem?_append_right (Nat.le_refl _), Nat.sub_self]
        rfl
      have order :
          state.taken ++ [msg] ++ rest = queue ++ (List.range (rounds + 1)).flatMap posted := by
        rw [append_assoc]
        exact came
      dsimp only
      cases handler : msg.msgHandler with
      | none =>
        have quiet : (state.taken ++ [msg]).filter (·.msgHandler.isSome) = state.taken.filter
            (·.msgHandler.isSome) := by
          simp [handler]
        refine ⟨order, callsOnce.trans quiet.symm, freesCalled, fun goes => (noMore rfl goes).elim,
          fun _ => .inl (.inr ⟨msg, rfl, List.getLast?_concat, handler, ?_⟩)⟩
        intro freed
        have hasHandler := (mem_filter.mp (callsOnce ▸ freesCalled ▸ freed)).2
        rw [handler] at hasHandler
        cases hasHandler
      | some call =>
        have calls : (state.taken ++ [msg]).filter (·.msgHandler.isSome) =
            state.taken.filter (·.msgHandler.isSome) ++ [msg] := by
          simp [handler]
        refine ⟨order, ?_, ?_, fun _ => ⟨?_, ?_, ?_, rfl, ?_⟩,
          fun returned => (noMore returned running).elim⟩
        · exact (congrArg (· ++ [msg]) callsOnce).trans calls.symm
        · exact congrArg (· ++ [msg]) freesCalled
        · exact (length_append).trans (congrArg (· + 1) length)
        · intro round within
          rcases Nat.lt_succ_iff_lt_or_eq.mp within with earlier | now
          · exact handled round earlier
          · exact ⟨msg, now ▸ got, by rw [handler]; rfl⟩
        · dsimp only
          rw [left, last]
          exact timeLeft_succ timeout clock rounds
        · rintro (isNull | ⟨other, isMessage, -, without, -⟩)
          · cases isNull
          · cases isMessage
            rw [handler] at without
            cases without
  · rw [if_neg inTime]
    refine ⟨came, callsOnce, freesCalled, fun goes => (noMore rfl goes).elim,
      fun _ => .inr ⟨rounds, handled, ?_⟩⟩
    rw [← left]
    exact Int32.not_le.mp inTime

theorem callAfter_running
      (running : (callAfter posted clock timeout queue rounds).returned = false) :
    callAfter posted clock timeout queue (rounds + 1) =
      CallState.round (clock (rounds + 1)) { callAfter posted clock timeout queue rounds with
        queue := (callAfter posted clock timeout queue rounds).queue ++ posted rounds } := by
  rw [callAfter]
  exact if_neg (Bool.eq_false_iff.mp running)

theorem callAfter_returned
      (returned : (callAfter posted clock timeout queue rounds).returned = true) :
    callAfter posted clock timeout queue (rounds + 1) =
      { callAfter posted clock timeout queue rounds with
        queue := (callAfter posted clock timeout queue rounds).queue ++ posted rounds } := by
  rw [callAfter]
  exact if_pos returned

/-- The call after every number of rounds. -/
theorem called_callAfter (posted : Nat → List (CallMsg H)) (clock : Nat → Int64)
    (timeout : Int32) (queue : List (CallMsg H)) (rounds : Nat) :
    Called posted clock timeout queue rounds (callAfter posted clock timeout queue rounds) := by
  induction rounds with
  | zero => exact called_start posted clock timeout queue
  | succ rounds ih =>
    cases running : (callAfter posted clock timeout queue rounds).returned with
    | false =>
      rw [callAfter_running running]
      exact ih.round running
    | true =>
      rw [callAfter_returned running]
      refine ⟨ih.came, ih.callsOnce, ih.freesCalled, fun goes => ?_,
        fun _ => ih.returns running⟩
      have impossible : true = false := running.symm.trans goes
      cases impossible

/-- Rounds that get messages with handlers in time go on. -/
theorem callAfter_goesOn (handled : Handled posted queue rounds)
    (inTime : ∀ round < rounds, 0 ≤ timeLeft timeout clock round) :
    (callAfter posted clock timeout queue rounds).returned = false := by
  induction rounds with
  | zero => rfl
  | succ rounds ih =>
    have running := ih (fun round within => handled round (Nat.lt_succ_of_lt within))
      fun round within => inTime round (Nat.lt_succ_of_lt within)
    have called := called_callAfter posted clock timeout queue rounds
    obtain ⟨length, -, left, -, -⟩ := called.goesOn running
    obtain ⟨msg, got, hasHandler⟩ := handled rounds (Nat.lt_succ_self rounds)
    have first :
        ((callAfter posted clock timeout queue rounds).queue ++ posted rounds)[0]? = some msg := by
      rw [gotAt, ← called.came, List.getElem?_append_right (Nat.le_of_eq length), length,
        Nat.sub_self] at got
      exact got
    obtain ⟨call, isCall⟩ := Option.isSome_iff_exists.mp hasHandler
    rw [callAfter_running running, CallState.round, left,
      if_pos (inTime rounds (Nat.lt_succ_self rounds))]
    cases found : (callAfter posted clock timeout queue rounds).queue ++ posted rounds with
    | nil =>
      rw [found] at first
      cases first
    | cons head rest =>
      rw [found] at first
      obtain rfl := Option.some.inj first
      simp only [isCall]
      exact running

/-- Every message that has a handler is handled once, and the call returns nothing or a message that
it has just taken and that has no handler, exactly if its time is not used up behind messages that
all had one. -/
theorem getMsgCallHandler_handsOut_iff (posted : Nat → List (CallMsg H))
    (clock : Nat → Int64) (timeout : Int32) (queue : List (CallMsg H)) :
    (∀ rounds, (callAfter posted clock timeout queue rounds).CallsOnce ∧
      ((callAfter posted clock timeout queue rounds).returned = true →
      (callAfter posted clock timeout queue rounds).HandsOut)) ↔
    ∀ rounds, Handled posted queue rounds → 0 ≤ timeLeft timeout clock rounds := by
  constructor
  · intro handsOut rounds
    induction rounds using Nat.strong_induction_on with
    | _ rounds ih =>
      intro handled
      have inTime : ∀ round < rounds, 0 ≤ timeLeft timeout clock round := fun round within =>
        ih round within fun earlier before => handled earlier (Nat.lt_trans before within)
      have running := callAfter_goesOn handled inTime
      obtain ⟨-, -, left, -, notYet⟩ :=
        (called_callAfter posted clock timeout queue rounds).goesOn running
      by_contra usedUp
      have stops : callAfter posted clock timeout queue (rounds + 1) =
          { callAfter posted clock timeout queue rounds with
            queue := (callAfter posted clock timeout queue rounds).queue ++ posted rounds
            returned := true } := by
        rw [← left] at usedUp
        rw [callAfter_running running]
        exact if_neg usedUp
      have result := (handsOut (rounds + 1)).2
      rw [stops] at result
      exact notYet (result rfl)
  · intro inTime rounds
    have called := called_callAfter posted clock timeout queue rounds
    refine ⟨called.callsOnce, fun returned => ?_⟩
    rcases called.returns returned with handsOut | ⟨round, handled, usedUp⟩
    · exact handsOut
    · exact absurd (inTime round handled) (Int32.not_le.mpr usedUp)

end Calls

/-- The time of a call that passes is used up by the handler of the only message. -/
theorem getMsgCallHandler_slow_fails :
    let queue : List (CallMsg Unit) := [⟨0, some ()⟩]
    let clock : Nat → Int64 := fun handlers => if handlers = 0 then 100 else 107
    (callAfter (fun _ => []) clock 5 queue 2).returned = true ∧
      (callAfter (fun _ => []) clock 5 queue 2).msg = .message ⟨0, some ()⟩ ∧
      (callAfter (fun _ => []) clock 5 queue 2).freed = [⟨0, some ()⟩] ∧
      ¬(callAfter (fun _ => []) clock 5 queue 2).HandsOut := by
  refine ⟨by decide, by decide, by decide, ?_⟩
  rintro (isNull | ⟨msg, isMessage, -, without, -⟩)
  · exact absurd isNull (by decide)
  · have same : MsgVariable.message (⟨0, some ()⟩ : CallMsg Unit) = .message msg :=
      (by decide : _ = _).trans isMessage
    cases same
    cases without

end Idrm.Shared
