import Idrm.Lib.Session
import Idrm.Agent.DpCacheServer

/-!
# The database of the cache

What `DpCacheServer` takes for granted: every call of SQLite may fail. The macro `VERIFY_SQLITE`
then undoes the open transaction and returns. The insertion leaves its transaction open where
the statement itself fails, and the next `BEGIN` is rejected.
-/

namespace Idrm.Agent

open Idrm.Lib Idrm.Bus List

/-- How a call of SQLite ends. Some errors end the open transaction. -/
inductive SqliteOutcome where
  | ok
  | failed (endsTransaction : Bool)
deriving DecidableEq

/-- A call with an effect on the session, and whether it succeeds. -/
def SqliteOutcome.perform {τ : Type} (outcome : SqliteOutcome) (effect : Session τ → Session τ)
    (session : Session τ) : Bool × Session τ :=
  match outcome with
  | .ok => (true, effect session)
  | .failed false => (false, session)
  | .failed true => (false, session.rollback)

/-- The calls for one statement in a transaction. A parameter is bound at its index. -/
inductive SqliteCall where
  | begin
  | prepare
  | bind (index : Nat)
  | step
  | finalize
  | commit
deriving DecidableEq

/-- `DP_CACHE_DATA_LIST`, with the ID that `AUTOINCREMENT` gives next. -/
structure DpCacheTable where
  rows : List CacheRow
  newId : Nat

/-- The globals `gDpCacheDB` and `g_current_item_in_db`. -/
structure DpCacheDb where
  gDpCacheDB : Option (Session DpCacheTable)
  currentItemInDb : Int

namespace DpCacheDb

/-- `SQLITE_OK` -/
def sqliteOk : Int := 0
/-- `SQLITE_ERROR` -/
def sqliteError : Int := 1

/-- `uri_index` -/
def uriIndex : Nat := 2
/-- `tm_index` -/
def tmIndex : Nat := 3
/-- `fmt_index` -/
def fmtIndex : Nat := 4
/-- `pl_len_index` -/
def plLenIndex : Nat := 5
/-- `pl_index` -/
def plIndex : Nat := 6

section Statements

variable {τ : Type} (calls : SqliteCall → SqliteOutcome) (session : Session τ)

/-- `BEGIN TRANSACTION`, which is rejected inside a transaction. -/
def beginTransaction : Bool × Session τ :=
  if session.isOpen then (false, session) else (calls .begin).perform .opened session

/-- `VERIFY_SQLITE`: an error is one of the whole function, after a `ROLLBACK`. -/
def verifySqlite : Bool × Session τ → Except (Session τ) (Session τ)
  | (true, session) => .ok session
  | (false, session) => .error session.rollback

/-- Calls without an effect on the session, each verified. -/
def verifyEach (calls : SqliteCall → SqliteOutcome) : List SqliteCall → Session τ →
    Except (Session τ) (Session τ)
  | [], session => .ok session
  | call :: rest, session => do
      let session ← verifySqlite ((calls call).perform id session)
      verifyEach calls rest session

/-- The statements of `storeDpCacheData`, with what an error leaves. -/
def storeStatements (insert : τ → τ) : Except (Session τ) (Session τ) := do
  let session ← verifySqlite (beginTransaction calls session)
  let session ← verifyEach calls [.prepare, .bind uriIndex, .bind fmtIndex, .bind tmIndex,
    .bind plLenIndex, .bind plIndex] session
  match (calls .step).perform (.edit insert) session with
  | (false, session) => .error session
  | (true, session) =>
    let session ← verifySqlite ((calls .finalize).perform id session)
    verifySqlite ((calls .commit).perform .commit session)

/-- The statements of `deleteDpCacheData`. -/
def deleteStatements (delete : τ → τ) : Except (Session τ) (Session τ) := do
  let session ← verifySqlite (beginTransaction calls session)
  let session ← verifyEach calls [.prepare, .bind 1] session
  match (calls .step).perform (.edit delete) session with
  | (false, session) => .error session.rollback
  | (true, session) =>
    let session ← verifySqlite ((calls .finalize).perform id session)
    verifySqlite ((calls .commit).perform .commit session)

end Statements

/-- The insertion of an entry. -/
def insertRow (entry : CacheEntry) (table : DpCacheTable) : DpCacheTable :=
  ⟨table.rows ++ [⟨table.newId, entry⟩], table.newId + 1⟩

/-- The deletion by an ID. -/
def deleteRow (autoGenId : Int32) (table : DpCacheTable) : DpCacheTable :=
  { table with rows := DpCache.deleteRow autoGenId table.rows }

/-- `storeDpCacheData`. There is no result where the counter would overflow. -/
def storeDpCacheData (calls : SqliteCall → SqliteOutcome) (entry : CacheEntry) (db : DpCacheDb) :
    Option (Int × DpCacheDb) :=
  match db.gDpCacheDB with
  | none => some (sqliteError, db)
  | some session =>
    match storeStatements calls session (insertRow entry) with
    | .error session => some (sqliteError, { db with gDpCacheDB := some session })
    | .ok session =>
      if db.currentItemInDb < 2 ^ 31 - 1 then
        some (sqliteOk, ⟨some session, db.currentItemInDb + 1⟩) else none

/-- `deleteDpCacheData` -/
def deleteDpCacheData (calls : SqliteCall → SqliteOutcome) (autoGenId : Int32) (db : DpCacheDb) :
    Int × DpCacheDb :=
  match db.gDpCacheDB with
  | none => (sqliteError, db)
  | some session =>
    match deleteStatements calls session (deleteRow autoGenId) with
    | .error session => (sqliteError, { db with gDpCacheDB := some session })
    | .ok session =>
      (sqliteOk, ⟨some session, if db.currentItemInDb > 0 then db.currentItemInDb - 1
        else db.currentItemInDb⟩)

/-- The calls of `deleteOlderDpCacheData`: its query, the rows it fetches, and their deletion. -/
structure OlderCalls where
  prepare : SqliteOutcome
  bind : SqliteOutcome
  fetch : Nat → SqliteOutcome
  delete : Nat → SqliteCall → SqliteOutcome

/-- The loop of `deleteOlderDpCacheData`, with the rows it has sent. -/
def deleteSelected (calls : OlderCalls) (sends : Bool) : Nat → List CacheRow → List CacheRow →
    DpCacheDb → Int × List CacheRow × DpCacheDb
  | _, sent, [], db => (sent.length, sent, db)
  | round, sent, row :: rest, db =>
    match db.gDpCacheDB.map ((calls.fetch round).perform id) with
    | some (true, _) =>
      let sent := if sends then sent ++ [row] else sent
      let (code, db) := deleteDpCacheData (calls.delete round) (DpCache.sqlite3ColumnInt row.id) db
      if code ≠ sqliteOk then
        (sqliteError, sent, { db with gDpCacheDB := db.gDpCacheDB.map .rollback })
      else deleteSelected calls sends (round + 1) sent rest db
    | some (false, session) => (sent.length, sent, { db with gDpCacheDB := some session })
    | none => (sent.length, sent, db)

/-- `deleteOlderDpCacheData`. Rows of one time come in any order: `ids` is the one they come in. -/
def deleteOlderDpCacheData (calls : OlderCalls) (count : Nat) (ids : List Nat) (sends : Bool)
    (db : DpCacheDb) : Option (Int × List CacheRow × DpCacheDb) :=
  match db.gDpCacheDB with
  | none => some (sqliteError, [], db)
  | some session =>
    match (do
        let session ← verifySqlite (calls.prepare.perform id session)
        verifySqlite (calls.bind.perform id session)) with
    | .error session => some (sqliteError, [], { db with gDpCacheDB := some session })
    | .ok session =>
      (DpCacheServer.selectOldest ids count session.contents.rows).map fun selected =>
        deleteSelected calls sends 0 [] selected { db with gDpCacheDB := some session }

/-- The calls of the module. -/
inductive Call where
  | store (calls : SqliteCall → SqliteOutcome) (entry : CacheEntry)
  | delete (calls : SqliteCall → SqliteOutcome) (autoGenId : Int32)
  | deleteOlder (calls : OlderCalls) (count : Nat) (ids : List Nat) (sends : Bool)

/-- What a call returns, the rows it sends, and what it leaves. -/
def perform : Call → DpCacheDb → Option (Int × List CacheRow × DpCacheDb)
  | .store calls entry, db => (storeDpCacheData calls entry db).map fun (code, db) => (code, [], db)
  | .delete calls autoGenId, db =>
    let (code, db) := deleteDpCacheData calls autoGenId db
    some (code, [], db)
  | .deleteOlder calls count ids sends, db => deleteOlderDpCacheData calls count ids sends db

/-- What calls return and send, one after another, and what they leave. -/
def performAll : List Call → DpCacheDb → Option (List (Int × List CacheRow) × DpCacheDb)
  | [], db => some ([], db)
  | call :: rest, db => do
      let (code, sent, db) ← perform call db
      let (answers, db) ← performAll rest db
      some ((code, sent) :: answers, db)

/-! ## Calls that succeed -/

/-- The database of a server, between its transactions. -/
def ofServer (server : DpCacheServer) : DpCacheDb :=
  ⟨some ⟨⟨server.cache.rows, server.cache.newId⟩, none⟩, server.currentItemInDb⟩

/-- Every call of a query and of its deletions succeeds. -/
def OlderCalls.ok : OlderCalls := ⟨.ok, .ok, fun _ => .ok, fun _ _ => .ok⟩

theorem storeStatements_ok {τ : Type}
    {session : Session τ} (closed : session.isOpen = false) (insert : τ → τ) :
    storeStatements (fun _ => .ok) session insert = .ok (session.edit insert) := by
  rw [← Session.commit_edit_opened closed]
  unfold storeStatements beginTransaction
  rw [if_neg (Bool.eq_false_iff.mp closed)]
  rfl

theorem deleteStatements_ok {τ : Type}
    {session : Session τ} (closed : session.isOpen = false) (delete : τ → τ) :
    deleteStatements (fun _ => .ok) session delete = .ok (session.edit delete) := by
  rw [← Session.commit_edit_opened closed]
  unfold deleteStatements beginTransaction
  rw [if_neg (Bool.eq_false_iff.mp closed)]
  rfl

theorem storeDpCacheData_ofServer (entry : CacheEntry) (server : DpCacheServer) :
    storeDpCacheData (fun _ => .ok) entry (ofServer server) = (DpCacheServer.storeDpCacheData entry
      server).map fun server => (sqliteOk, ofServer server) := by
  simp only [storeDpCacheData, ofServer, DpCacheServer.storeDpCacheData]
  rw [storeStatements_ok rfl]
  by_cases room : server.currentItemInDb < 2 ^ 31 - 1
  · rw [if_pos room]
    exact if_pos room
  · rw [if_neg room]
    exact if_neg room

theorem deleteDpCacheData_ofServer (autoGenId : Int32) (server : DpCacheServer) :
    deleteDpCacheData (fun _ => .ok) autoGenId (ofServer server) =
      (sqliteOk, ofServer (DpCacheServer.deleteDpCacheData autoGenId server)) := by
  simp only [deleteDpCacheData, ofServer]
  rw [deleteStatements_ok rfl]
  rfl

/-- A turn of the loop in which the row is fetched and deleted. -/
theorem deleteSelected_cons {calls : OlderCalls}
    {sends : Bool} {round : Nat} {sent rest : List CacheRow} {row : CacheRow}
    {db next : DpCacheDb} {session : Session DpCacheTable}
    (fetched : db.gDpCacheDB.map ((calls.fetch round).perform id) = some (true, session))
    (deleted : deleteDpCacheData (calls.delete round) (DpCache.sqlite3ColumnInt row.id) db =
      (sqliteOk, next)) : deleteSelected calls sends round sent (row :: rest) db =
      deleteSelected calls sends (round + 1) (if sends then sent ++ [row] else sent) rest next := by
  rw [deleteSelected, fetched]
  simp only [deleted]
  exact if_neg (not_not_intro rfl)

/-- The loop of `deleteOlderDpCacheData` sends and removes what the loop of the server does. -/
theorem deleteSelected_ofServer (send : Option (DpCacheData → BusMessage))
    (selected : List CacheRow) : ∀ (round : Nat) (sent : List CacheRow) (server : DpCacheServer),
    deleteSelected .ok send.isSome round sent selected (ofServer server) =
      (((if send.isSome then sent ++ selected else sent).length : Int),
      if send.isSome then sent ++ selected else sent, ofServer (selected.foldl
      (fun server row => DpCacheServer.deleteSelected send row server) server)) := by
  induction selected with
  | nil =>
    intro round sent server
    rw [append_nil, ite_self]
    rfl
  | cons row rest ih =>
    intro round sent server
    have same : ofServer (DpCacheServer.deleteDpCacheData (DpCache.sqlite3ColumnInt row.id)
      server) = ofServer (DpCacheServer.deleteSelected send row server) := rfl
    have deleted := same ▸ deleteDpCacheData_ofServer (DpCache.sqlite3ColumnInt row.id) server
    rw [deleteSelected_cons rfl deleted, ih, foldl_cons]
    cases send with
    | none => rfl
    | some send => simp only [Option.isSome_some, if_true, append_assoc, singleton_append]

theorem deleteOlderDpCacheData_ofServer (count : Nat)
    (ids : List Nat) (send : Option (DpCacheData → BusMessage)) (server : DpCacheServer) :
    (deleteOlderDpCacheData .ok count ids send.isSome (ofServer server)).map
      (fun (code, _, db) => (code, db)) = (DpCacheServer.deleteOlderDpCacheData count ids send
      server).map fun (sent, server) => ((sent : Int), ofServer server) := by
  have queried : deleteOlderDpCacheData .ok count ids send.isSome (ofServer server) =
      (DpCacheServer.selectOldest ids count server.cache.rows).map fun selected =>
        deleteSelected .ok send.isSome 0 [] selected (ofServer server) := rfl
  rw [queried, DpCacheServer.deleteOlderDpCacheData, Option.map_map, Option.map_map]
  congr 1
  funext selected
  simp only [Function.comp_apply, deleteSelected_ofServer]
  cases send <;> simp

/-! ## Failing calls -/

/-- The insertion itself is what fails, and SQLite leaves the transaction open. -/
def InsertFails (calls : SqliteCall → SqliteOutcome) : Prop :=
  (∀ call ∈ [.begin, .prepare, .bind uriIndex, .bind fmtIndex, .bind tmIndex, .bind plLenIndex,
      .bind plIndex], calls call = .ok) ∧ calls .step = .failed false

/-- A call left the database and the counter as they were, and the calls behind it are as without
it. -/
structure NoLastingEffect (before after : DpCacheDb) : Prop where
  table : after.gDpCacheDB.map (·.contents) = before.gDpCacheDB.map (·.contents)
  counter : after.currentItemInDb = before.currentItemInDb
  transaction : after.gDpCacheDB.map (·.isOpen) = before.gDpCacheDB.map (·.isOpen)
  following : ∀ calls, performAll calls after = performAll calls before

/-- No transaction is open, and what fails is not the insertion itself. -/
def RollsBack (calls : SqliteCall → SqliteOutcome) (db : DpCacheDb) : Prop :=
  ∀ session ∈ db.gDpCacheDB, session.isOpen = false ∧ ¬InsertFails calls

section Failures

variable {τ : Type} {calls : SqliteCall → SqliteOutcome} {session left : Session τ} {insert : τ → τ}
  {outcome : SqliteOutcome}
  {effect : Session τ → Session τ}

/-- An error of a call that is verified is undone with the transaction. -/
theorem verifySqlite_error (fails : verifySqlite (outcome.perform effect session) = .error left) :
    outcome ≠ .ok ∧ left = session.rollback := by
  cases outcome with
  | ok => cases fails
  | failed ends =>
    refine ⟨nofun, ?_⟩
    cases ends with
    | false => exact (Except.error.inj fails).symm
    | true => exact (Except.error.inj fails).symm

variable {next : Session τ → Except (Session τ) (Session τ)}

/-- So an error is one of the call, or of what follows. -/
theorem verifySqlite_bind
      (fails : (verifySqlite (outcome.perform effect session) >>= next) = .error left) :
    (outcome = .ok ∧ next (effect session) = .error left) ∨
    (outcome ≠ .ok ∧ left = session.rollback) := by
  cases verified : verifySqlite (outcome.perform effect session) with
  | error undone =>
    rw [verified] at fails
    obtain rfl : undone = left := Except.error.inj fails
    exact .inr (verifySqlite_error verified)
  | ok session =>
    cases outcome with
    | ok => exact .inl ⟨rfl, fails⟩
    | failed ends => cases ends <;> cases verified

theorem verifyEach_bind {order : List SqliteCall}
    (fails : (verifyEach calls order session >>= next) = .error left) :
    ((∀ call ∈ order, calls call = .ok) ∧ next session = .error left) ∨
      ((∃ call ∈ order, calls call ≠ .ok) ∧ left = session.rollback) := by
  induction order with
  | nil => exact .inl ⟨nofun, fails⟩
  | cons call rest ih =>
    rw [verifyEach, bind_assoc] at fails
    rcases verifySqlite_bind fails with ⟨succeeds, fails⟩ | ⟨failed, left⟩
    · rcases ih fails with ⟨all, fails⟩ | ⟨⟨other, member, failed⟩, left⟩
      · exact .inl ⟨forall_mem_cons.mpr ⟨succeeds, all⟩, fails⟩
      · exact .inr ⟨⟨other, mem_cons_of_mem _ member, failed⟩, left⟩
    · exact .inr ⟨⟨call, mem_cons_self, failed⟩, left⟩

/-- What an error of the insertion leaves. -/
theorem storeStatements_error (closed : session.isOpen = false)
    (fails : storeStatements calls session insert = .error left) :
    (InsertFails calls ∧ left = session.opened) ∨ (¬InsertFails calls ∧ left = session) := by
  have undone : session.opened.rollback = session :=
    (Session.rollback_opened session).trans (Session.rollback_closed closed)
  unfold storeStatements beginTransaction at fails
  rw [if_neg (Bool.eq_false_iff.mp closed)] at fails
  rcases verifySqlite_bind fails with ⟨begun, fails⟩ | ⟨failed, rfl⟩
  case inr => exact .inr ⟨fun insertFails => failed (insertFails.1 .begin mem_cons_self), undone⟩
  rcases verifyEach_bind fails with ⟨bound, fails⟩ | ⟨⟨call, member, failed⟩, rfl⟩
  case inr =>
    exact .inr ⟨fun insertFails => failed (insertFails.1 call (mem_cons_of_mem _ member)), undone⟩
  cases stepped : calls .step with
  | failed ends =>
    rw [stepped] at fails
    cases ends with
    | false =>
      exact .inl ⟨⟨forall_mem_cons.mpr ⟨begun, bound⟩, stepped⟩, (Except.error.inj fails).symm⟩
    | true =>
      refine .inr ⟨fun insertFails => ?_, (Except.error.inj fails).symm.trans undone⟩
      cases stepped.symm.trans insertFails.2
  | ok =>
    -- The insertion is done, so that what fails is behind it.
    have done : ¬InsertFails calls := fun insertFails => by cases stepped.symm.trans insertFails.2
    have edited : (session.opened.edit insert).rollback = session :=
      (Session.rollback_edit rfl insert).trans undone
    rw [stepped] at fails
    rcases verifySqlite_bind fails with ⟨-, fails⟩ | ⟨-, rfl⟩
    · exact .inr ⟨done, (verifySqlite_error fails).2.trans edited⟩
    · exact .inr ⟨done, edited⟩

/-- Inside a transaction the first statement is rejected, and the transaction undone. -/
theorem storeStatements_inTransaction (isOpen : session.isOpen = true) :
    storeStatements calls session insert = .error session.rollback := by
  unfold storeStatements beginTransaction
  rw [if_pos isOpen]
  rfl

end Failures

section Stores

variable {calls : SqliteCall → SqliteOutcome} {entry : CacheEntry} {db after : DpCacheDb}
  {session : Session DpCacheTable}

/-- With a transaction open, no row is stored, whatever SQLite answers. -/
theorem storeDpCacheData_inTransaction (connected : db.gDpCacheDB = some session)
    (isOpen : session.isOpen = true) : storeDpCacheData calls entry db =
      some (sqliteError, { db with gDpCacheDB := some session.rollback }) := by
  rw [storeDpCacheData, connected]
  simp only [storeStatements_inTransaction isOpen]

/-- What a store leaves that returns an error. -/
theorem storeDpCacheData_error (connected : db.gDpCacheDB = some session)
    (fails : storeDpCacheData calls entry db = some (sqliteError, after)) :
    ∃ left, storeStatements calls session (insertRow entry) = .error left ∧
    after = { db with gDpCacheDB := some left } := by
  rw [storeDpCacheData, connected] at fails
  cases stored : storeStatements calls session (insertRow entry) with
  | error left =>
    simp only [stored] at fails
    exact ⟨left, rfl, (Prod.mk.inj (Option.some.inj fails)).2.symm⟩
  | ok session =>
    simp only [stored] at fails
    split at fails
    · cases (Prod.mk.inj (Option.some.inj fails)).1
    · cases fails

/-- Without a lasting effect the transaction is open as before. -/
theorem NoLastingEffect.isOpen {left : Session DpCacheTable}
    (none : NoLastingEffect db { db with gDpCacheDB := some left })
    (connected : db.gDpCacheDB = some session) : left.isOpen = session.isOpen := by
  have transaction := none.transaction
  rw [connected, Option.map_some, Option.map_some] at transaction
  exact Option.some.inj transaction

/-- A store that returns an error has no lasting effect exactly where it rolls back. -/
theorem storeDpCacheData_noLastingEffect_iff
      (fails : storeDpCacheData calls entry db = some (sqliteError, after)) :
    NoLastingEffect db after ↔ RollsBack calls db := by
  have unchanged : after = db → NoLastingEffect db after := by
    rintro rfl
    exact ⟨rfl, rfl, rfl, fun _ => rfl⟩
  unfold RollsBack
  cases connected : db.gDpCacheDB with
  | none =>
    refine iff_of_true (unchanged ?_) nofun
    rw [storeDpCacheData, connected] at fails
    exact (Prod.mk.inj (Option.some.inj fails)).2.symm
  | some session =>
    simp only [Option.mem_def, Option.some.injEq, forall_eq']
    cases isOpen : session.isOpen with
    | true =>
      rw [storeDpCacheData_inTransaction connected isOpen] at fails
      obtain rfl := (Prod.mk.inj (Option.some.inj fails)).2
      refine iff_of_false (fun none => ?_) (fun rolls => by cases rolls.1)
      cases isOpen.symm.trans (none.isOpen connected).symm
    | false =>
      obtain ⟨left, stored, rfl⟩ := storeDpCacheData_error connected fails
      rcases storeStatements_error isOpen stored with ⟨insertFails, rfl⟩ | ⟨other, rfl⟩
      · refine iff_of_false (fun none => ?_) (fun rolls => rolls.2 insertFails)
        cases isOpen.symm.trans (none.isOpen connected).symm
      · refine iff_of_true (unchanged ?_) ⟨rfl, other⟩
        rw [← connected]

/-- An empty table, without a transaction. -/
def sampleDb : DpCacheDb := ⟨some ⟨⟨[], 1⟩, none⟩, 0⟩

/-- A data point. -/
def sampleEntry : CacheEntry := ⟨⟨5, 21, [0x31], [0x61]⟩, none⟩

/-- Every call succeeds except for one. -/
def failsAt (failing : SqliteCall) (call : SqliteCall) : SqliteOutcome :=
  if call = failing then .failed false else .ok

theorem storeDpCacheData_noLastingEffect_iff_commit : NoLastingEffect sampleDb sampleDb ↔
    RollsBack (failsAt .commit) sampleDb :=
  have fails :
    storeDpCacheData (failsAt .commit) sampleEntry sampleDb = some (sqliteError, sampleDb) := rfl
  storeDpCacheData_noLastingEffect_iff fails

/-- Where the insertion is refused, its transaction stays open, and the next store fails with
every call in order. -/
theorem storeDpCacheData_transaction_left_open :
    ∃ after, storeDpCacheData (failsAt .step) sampleEntry sampleDb = some (sqliteError, after) ∧
    ¬NoLastingEffect sampleDb after ∧
    (∃ next, storeDpCacheData (fun _ => .ok) sampleEntry after = some (sqliteError, next)) ∧
    ∃ next, storeDpCacheData (fun _ => .ok) sampleEntry sampleDb = some (sqliteOk, next) := by
  refine ⟨⟨some ⟨⟨[], 1⟩, some ⟨[], 1⟩⟩, 0⟩, rfl, fun none => ?_, ⟨_, rfl⟩, ⟨_, rfl⟩⟩
  exact Bool.noConfusion (Option.some.inj none.transaction)

end Stores

end DpCacheDb

end Idrm.Agent
