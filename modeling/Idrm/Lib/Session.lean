/-!
# Stores with one transaction

A session sees the contents of a store. While a transaction is open it works on contents of its
own, which replace the others at a commit and are dropped at a rollback; without one every edit
lasts at once.
-/

namespace Idrm.Lib

/-- What a store holds, and the contents in the open transaction. -/
structure Session (τ : Type) where
  committed : τ
  working : Option τ

namespace Session

variable {τ : Type}

/-- The contents, as the session sees them. -/
def contents (session : Session τ) : τ := session.working.getD session.committed

/-- Whether a transaction is open. -/
def isOpen (session : Session τ) : Bool := session.working.isSome

/-- A transaction is opened. -/
def opened (session : Session τ) : Session τ := { session with working := some session.contents }

/-- What the open transaction did lasts. -/
def commit (session : Session τ) : Session τ := ⟨session.contents, none⟩

/-- What the open transaction did is undone. -/
def rollback (session : Session τ) : Session τ := { session with working := none }

/-- A change of the contents. -/
def edit (change : τ → τ) (session : Session τ) : Session τ :=
  match session.working with
  | none => { session with committed := change session.committed }
  | some working => { session with working := some (change working) }

variable {session : Session τ} {change : τ → τ}

theorem closed_eq (closed : session.isOpen = false) : session = ⟨session.committed, none⟩ := by
  obtain ⟨committed, working⟩ := session
  cases working with
  | none => rfl
  | some working => cases closed

theorem rollback_opened (session : Session τ) : session.opened.rollback = session.rollback := rfl

/-- Without a transaction there is nothing to undo. -/
theorem rollback_closed (closed : session.isOpen = false) : session.rollback = session := by
  rw [closed_eq closed]
  rfl

/-- An edit in a transaction is undone with it. -/
theorem rollback_edit (isOpen : session.isOpen = true) (change : τ → τ) :
    (session.edit change).rollback = session.rollback := by
  obtain ⟨committed, working⟩ := session
  cases working with
  | none => cases isOpen
  | some working => rfl

/-- An edit in a transaction of its own is an edit. -/
theorem commit_edit_opened (closed : session.isOpen = false) (change : τ → τ) :
    (session.opened.edit change).commit = session.edit change := by
  rw [closed_eq closed]
  rfl

end Session

end Idrm.Lib
