import Idrm.Agent.DpCache
import Idrm.Lib.Ledger

/-!
# The server of the cache

The thread of the database module beside its table: the row counter it keeps by hand, the
link status it was told, and the passes of its loop. A pass sends and removes the oldest row
when the link has been up for a minute, and stores the next data point of the queue, after
which a table that is too long loses its oldest row.

SQLite and the bus succeed. The server remembers what became of the rows, so that they can
be accounted for.
-/

namespace Idrm.Agent

open Idrm.Lib Idrm.Coap Idrm.Ilink Idrm.Bus Option List

/-- What the thread did with a row; a dropped row with the table it was dropped from. -/
inductive CacheDeed where
  | stored (row : CacheRow)
  | sent (row : CacheRow) (message : BusMessage)
  | dropped (row : CacheRow) (table : List CacheRow)

/-- The globals of the module: `g_current_item_in_db`, `g_cloud_status_dp`,
`g_last_link_change`, and `config_loaded` of the thread. -/
structure DpCacheServer where
  cache : DpCache
  currentItemInDb : Int
  cloudStatus : Int32
  lastLinkChange : UInt64
  configLoaded : Bool
  deeds : List CacheDeed

namespace DpCacheServer

/-- `iReady_For_Work` -/
def readyForWork : Int32 := 101

/-- `MAX_DP_CACHE_DB_ROW` -/
def maxDpCacheDbRow : Int32 := 100000

/-- `load_ini`, given `dp-cache:maxrow` when the file has one. -/
def loadIni (maxRow : Option Int32) (server : DpCacheServer) : DpCacheServer :=
  { server with
    cache := { server.cache with maxRow := (maxRow.getD maxDpCacheDbRow).toInt }
    configLoaded := true }

/-- `storeDpCacheData`. There is no result where the counter would overflow. -/
def storeDpCacheData (entry : CacheEntry) (server : DpCacheServer) : Option DpCacheServer :=
  if server.currentItemInDb < 2 ^ 31 - 1 then
    some
      { server with
        cache := DpCache.storeDpCacheData entry server.cache
        currentItemInDb := server.currentItemInDb + 1
        deeds := server.deeds ++ [CacheDeed.stored ⟨server.cache.newId, entry⟩] }
  else none

/-- `deleteDpCacheData` -/
def deleteDpCacheData (autoGenId : Int32) (server : DpCacheServer) : DpCacheServer :=
  { server with
    cache := { server.cache with rows := DpCache.deleteRow autoGenId server.cache.rows }
    currentItemInDb :=
      if server.currentItemInDb > 0 then server.currentItemInDb - 1 else server.currentItemInDb }

/-- The rows of `SELECT * ... ORDER BY TIME ASC LIMIT count`. Rows of one time come in any
order: `ids` is the one they come in. -/
def selectOldest : List Nat → Nat → List CacheRow → Option (List CacheRow)
  | _, 0, _ => some []
  | _, _ + 1, [] => some []
  | [], _ + 1, _ :: _ => none
  | id :: ids, count + 1, rows@(_ :: _) =>
    (rows.find? fun row => row.id = id && DpCache.isOldest rows row).bind fun row =>
      (selectOldest ids count (rows.filter (·.id ≠ row.id))).map (row :: ·)

/-- The loop of `deleteOlderDpCacheData` on one row. -/
def deleteSelected (sendDpCacheData : Option (DpCacheData → BusMessage)) (row : CacheRow)
    (server : DpCacheServer) : DpCacheServer :=
  let id := DpCache.sqlite3ColumnInt row.id
  let gone := server.cache.rows.filter fun other => (other.id : Int) = id.toInt
  let deeds :=
    match sendDpCacheData with
    | some send => [.sent row (send row.entry.data)]
    | none => gone.map (.dropped · server.cache.rows)
  { deleteDpCacheData id server with deeds := server.deeds ++ deeds }

/-- `deleteOlderDpCacheData`: how many rows were sent. -/
def deleteOlderDpCacheData (count : Nat) (ids : List Nat)
    (sendDpCacheData : Option (DpCacheData → BusMessage))
    (server : DpCacheServer) : Option (Nat × DpCacheServer) :=
  (selectOldest ids count server.cache.rows).map fun selected =>
    (if sendDpCacheData.isSome then selected.length else 0,
      selected.foldl (fun server row => deleteSelected sendDpCacheData row server) server)

/-- The thread sends the oldest row when the link has been up for a minute. -/
def flushDue (now : UInt64) (server : DpCacheServer) : Bool :=
  server.cloudStatus = readyForWork && decide (server.currentItemInDb > 0) &&
    decide (server.lastLinkChange + 60 < now)

/-- A table that is too long loses its oldest row. -/
def dropOverflow (oldest : Nat) (server : DpCacheServer) : Option DpCacheServer :=
  if server.currentItemInDb > server.cache.maxRow then
    (deleteOlderDpCacheData 1 [oldest] none server).map Prod.snd
  else some server

/-- The thread takes a data point from the queue. There is no result for an uri without a
terminator, which `storeDpCacheData` would read past. -/
def takeMessage (oldest : Nat) (server : DpCacheServer) : Option DpCacheServer :=
  match server.cache.queue with
  | [] => some server
  | entry :: rest =>
    if entry.data.uri.length < 256 then
      (storeDpCacheData entry { server with cache := { server.cache with queue := rest } }).bind
        (dropOverflow oldest)
    else none

/-- A pass of the loop of `thread_dp_cache_db_server`. -/
def pass (maxRow : Option Int32) (now : UInt64) (flushed dropped : Nat) (moduleId : CString)
    (msgId : UInt32) (server : DpCacheServer) : Option DpCacheServer :=
  let server := if server.configLoaded then server else loadIni maxRow server
  if flushDue now server then
    (deleteOlderDpCacheData 1 [flushed] (some (sendCacheDataToAgent moduleId msgId)) server).bind
      fun (sent, server) =>
      if sent ≠ 0 ∧ server.cache.queue = [] then some server else takeMessage dropped server
  else takeMessage dropped server

/-- `operate_broad_msg` -/
def operateBroadMsg (cloudStatus : Int32) (now : UInt64) (server : DpCacheServer) : DpCacheServer :=
  { server with cloudStatus := cloudStatus, lastLinkChange := now }

/-- What happens to the server: a message reaches the module, the link changes, and the
thread makes a pass. `flushed` and `dropped` are the rows that come first where it asks for
the oldest. -/
inductive Call where
  | receive (staleFmt : Int32) (staleTm : Int64) (message : BusMessage)
  | linkChange (cloudStatus : Int32) (now : UInt64)
  | pass (maxRow : Option Int32) (now : UInt64) (flushed dropped : Nat) (moduleId : CString)
      (msgId : UInt32)

/-- One call. -/
def perform : Call → DpCacheServer → Option DpCacheServer
  | .receive staleFmt staleTm message, server =>
    some { server with cache := DpCache.receive staleFmt staleTm none message server.cache }
  | .linkChange cloudStatus now, server => some (operateBroadMsg cloudStatus now server)
  | .pass maxRow now flushed dropped moduleId msgId, server =>
    pass maxRow now flushed dropped moduleId msgId server

/-! ## What became of the rows -/

/-- The rows that were stored, -/
def storedRows (server : DpCacheServer) : List CacheRow :=
  server.deeds.filterMap fun
    | .stored row => some row
    | _ => none

/-- sent, -/
def sentRows (server : DpCacheServer) : List CacheRow :=
  server.deeds.filterMap fun
    | .sent row _ => some row
    | _ => none

/-- and dropped. -/
def droppedRows (server : DpCacheServer) : List CacheRow :=
  server.deeds.filterMap fun
    | .dropped row _ => some row
    | _ => none

/-- A row that was dropped when its `TIME` was the smallest of the table. -/
def DroppedOldest (row : CacheRow) (server : DpCacheServer) : Prop :=
  ∃ table, CacheDeed.dropped row table ∈ server.deeds ∧ row ∈ table ∧
    ∀ other ∈ table, row.entry.data.time ≤ other.entry.data.time

/-- The counter is right, every row is in one place, and what was dropped was the oldest. -/
structure Accounted (start server : DpCacheServer) : Prop where
  counter : server.currentItemInDb = server.cache.rows.length
  balanced : Balanced CacheRow.id (start.cache.rows ++ server.storedRows) server.cache.rows
    server.sentRows server.droppedRows
  issued : ∀ row ∈ start.cache.rows ++ server.storedRows, row.id < server.cache.newId
  oldest : ∀ row ∈ server.droppedRows, server.DroppedOldest row

/-- A server before its thread runs. The counter is the number of rows, and no row has an ID
that is still to come. -/
structure Fresh (server : DpCacheServer) : Prop where
  counter : server.currentItemInDb = server.cache.rows.length
  distinct : (server.cache.rows.map CacheRow.id).Nodup
  issued : ∀ row ∈ server.cache.rows, row.id < server.cache.newId
  idle : server.deeds = []
  unloaded : server.configLoaded = false

/-- A fresh server has its rows accounted for. -/
theorem Fresh.accounted {start : DpCacheServer} (fresh : start.Fresh) : Accounted start start := by
  have stored : start.storedRows = [] := by rw [storedRows, fresh.idle]; rfl
  have sent : start.sentRows = [] := by rw [sentRows, fresh.idle]; rfl
  have dropped : start.droppedRows = [] := by rw [droppedRows, fresh.idle]; rfl
  refine ⟨fresh.counter, ?_, ?_, ?_⟩
  · rw [stored, sent, dropped, append_nil]
    exact Balanced.start fresh.distinct
  · rw [stored, append_nil]
    exact fresh.issued
  · rw [dropped]
    exact fun row member => absurd member not_mem_nil

/-! ## One removal -/

variable {id : Nat}

/-- A small ID survives the `int`. -/
theorem sqlite3ColumnInt_small (small : id < 2 ^ 31) : (DpCache.sqlite3ColumnInt id).toInt = id :=
  Int32.toInt_ofNat_of_lt small

variable {row : CacheRow} {rows : List CacheRow}

/-- One row has the ID. -/
theorem filter_id (distinct : (rows.map CacheRow.id).Nodup) (there : row ∈ rows) :
    rows.filter (fun other => decide (other.id = row.id)) = [row] := by
  induction rows with
  | nil => cases there
  | cons first rest ih =>
    obtain ⟨unlike, distinct⟩ := nodup_cons.mp (map_cons ▸ distinct)
    rcases mem_cons.mp there with rfl | later
    · have itself : decide (row.id = row.id) = true := decide_eq_true rfl
      rw [filter_cons, if_pos itself, filter_eq_nil_iff.mpr]
      intro other member
      simp only [decide_eq_true_eq]
      intro same
      exact unlike (same ▸ List.mem_map_of_mem member)
    · have other : first.id ≠ row.id := fun same => unlike (same ▸ List.mem_map_of_mem later)
      rw [filter_cons_of_neg (by simp only [decide_eq_true_eq]; exact other)]
      exact ih distinct later

/-- A row whose ID fits an `int` is the one that is deleted by it. -/
theorem perm_filter (distinct : (rows.map CacheRow.id).Nodup) (there : row ∈ rows) :
    rows.Perm (row :: rows.filter (·.id ≠ row.id)) := by
  have split := filter_append_perm (fun other : CacheRow => decide (other.id = row.id)) rows
  rw [filter_id distinct there, singleton_append] at split
  refine split.symm.trans (List.Perm.of_eq ?_)
  congr 1
  refine filter_congr fun other _ => ?_
  rw [decide_not]

/-- Rows are deleted by their ID. -/
theorem deleteRow_small (small : id < 2 ^ 31) (rows : List CacheRow) :
    DpCache.deleteRow (DpCache.sqlite3ColumnInt id) rows = rows.filter (·.id ≠ id) := by
  rw [DpCache.deleteRow, sqlite3ColumnInt_small small]
  refine filter_congr fun other _ => ?_
  simp only [ne_eq, Int.natCast_inj]

variable {start server next : DpCacheServer}

/-- A selected row goes, sent or not. -/
theorem deleteSelected_rows (server : DpCacheServer) (send : Option (DpCacheData → BusMessage))
    (small : row.id < 2 ^ 31) :
    (deleteSelected send row server).cache.rows = server.cache.rows.filter (·.id ≠ row.id) :=
  deleteRow_small small server.cache.rows

/-- The record of a drop stays. -/
theorem DroppedOldest.later (dropped : server.DroppedOldest row)
    (keeps : server.deeds ⊆ next.deeds) : next.DroppedOldest row := by
  obtain ⟨table, deed, there, oldest⟩ := dropped
  exact ⟨table, keeps deed, there, oldest⟩

/-- What the loop does with a row whose ID fits an `int`. -/
theorem deleteSelected_deeds (distinct : (server.cache.rows.map CacheRow.id).Nodup)
    (there : row ∈ server.cache.rows) (small : row.id < 2 ^ 31) :
    (∀ send, (deleteSelected (some send) row server).deeds = server.deeds ++
      [CacheDeed.sent row (send row.entry.data)]) ∧ (deleteSelected none row server).deeds =
      server.deeds ++ [CacheDeed.dropped row server.cache.rows] := by
  have gone : (server.cache.rows.filter fun other =>
      (other.id : Int) = (DpCache.sqlite3ColumnInt row.id).toInt) = [row] := by
    rw [sqlite3ColumnInt_small small, ← filter_id distinct there]
    refine filter_congr fun other _ => ?_
    simp only [Int.natCast_inj]
  refine ⟨fun send => rfl, ?_⟩
  simp only [deleteSelected, gone, map_singleton]

/-- The loop on the oldest row. -/
theorem Accounted.deleteSelected (accounted : Accounted start server)
    (send : Option (DpCacheData → BusMessage)) (there : row ∈ server.cache.rows)
    (oldest : DpCache.isOldest server.cache.rows row = true)
    (small : row.id < 2 ^ 31) : Accounted start (deleteSelected send row server) ∧
    (DpCacheServer.deleteSelected send row server).cache.rows.length +
      1 = server.cache.rows.length := by
  have distinct := accounted.balanced.present_distinct
  have taken := perm_filter distinct there
  have rows := deleteSelected_rows server send small
  have one : (DpCacheServer.deleteSelected send row server).cache.rows.length +
      1 = server.cache.rows.length := by
    rw [rows, taken.length_eq, length_cons]
  have counter : (DpCacheServer.deleteSelected send row server).currentItemInDb =
      (DpCacheServer.deleteSelected send row server).cache.rows.length := by
    have before := accounted.counter
    show (if server.currentItemInDb > 0 then server.currentItemInDb - 1
      else server.currentItemInDb) = _
    rw [if_pos (by omega)]
    omega
  have issued : (DpCacheServer.deleteSelected send row server).cache.newId = server.cache.newId :=
    rfl
  obtain ⟨sends, drops⟩ := deleteSelected_deeds distinct there small
  rw [← rows] at taken
  refine ⟨?_, one⟩
  cases send with
  | some send =>
    have deeds := sends send
    have stored :
        (DpCacheServer.deleteSelected (some send) row server).storedRows = server.storedRows := by
      rw [storedRows, deeds, filterMap_append]
      exact append_nil _
    have sent : (DpCacheServer.deleteSelected (some send) row server).sentRows =
        server.sentRows ++ [row] := by
      rw [sentRows, deeds, filterMap_append]
      rfl
    have dropped :
        (DpCacheServer.deleteSelected (some send) row server).droppedRows = server.droppedRows := by
      rw [droppedRows, deeds, filterMap_append]
      exact append_nil _
    refine ⟨counter, ?_, ?_, ?_⟩
    · rw [stored, sent, dropped]
      exact accounted.balanced.send taken
    · rw [stored, issued]
      exact accounted.issued
    · rw [dropped]
      intro other member
      refine (accounted.oldest other member).later ?_
      rw [deeds]
      exact subset_append_left _ _
  | none =>
    have stored :
        (DpCacheServer.deleteSelected none row server).storedRows = server.storedRows := by
      rw [storedRows, drops, filterMap_append]
      exact append_nil _
    have sent : (DpCacheServer.deleteSelected none row server).sentRows = server.sentRows := by
      rw [sentRows, drops, filterMap_append]
      exact append_nil _
    have dropped : (DpCacheServer.deleteSelected none row server).droppedRows =
        server.droppedRows ++ [row] := by
      rw [droppedRows, drops, filterMap_append]
      rfl
    refine ⟨counter, ?_, ?_, ?_⟩
    · rw [stored, sent, dropped]
      exact accounted.balanced.drop taken
    · rw [stored, issued]
      exact accounted.issued
    · rw [dropped]
      intro other member
      rcases mem_append.mp member with before | last
      · refine (accounted.oldest other before).later ?_
        rw [drops]
        exact subset_append_left _ _
      · rw [mem_singleton.mp last]
        refine ⟨server.cache.rows, ?_, there, fun other inside => ?_⟩
        · rw [drops]
          exact mem_append_right _ (mem_singleton_self _)
        · exact of_decide_eq_true (List.all_eq_true.mp oldest other inside)

variable {ids : List Nat}

/-- The first of the rows is the oldest, and the rest is selected from what is left. -/
theorem selectOldest_cons {count : Nat} {rows selected : List CacheRow} (some_rows : rows ≠ [])
    (selects : selectOldest ids (count + 1) rows = some selected) :
    ∃ row others rest, row ∈ rows ∧ ids = row.id :: others ∧ DpCache.isOldest rows row = true ∧
    selectOldest others count (rows.filter (·.id ≠ row.id)) = some rest ∧
    selected = row :: rest := by
  cases rows with
  | nil => exact absurd rfl some_rows
  | cons first later =>
    cases ids with
    | nil => cases selects
    | cons id others =>
      rw [selectOldest] at selects
      obtain ⟨row, found, selects⟩ := bind_eq_some_iff.mp selects
      obtain ⟨rest, follows, rfl⟩ := map_eq_some_iff.mp selects
      have picked := List.find?_some found
      rw [Bool.and_eq_true, decide_eq_true_eq] at picked
      exact ⟨row, others, rest, mem_of_find?_eq_some found, by rw [picked.1],
        picked.2, follows, rfl⟩

/-- What the removal of rows leaves alone. -/
structure SameServer (server next : DpCacheServer) : Prop where
  queue : next.cache.queue = server.cache.queue
  maxRow : next.cache.maxRow = server.cache.maxRow
  configLoaded : next.configLoaded = server.configLoaded

/-- The whole loop, over any number of rows. -/
theorem Accounted.deleteRows {count : Nat} {selected : List CacheRow}
    (send : Option (DpCacheData → BusMessage)) (accounted : Accounted start server)
    (selects : selectOldest ids count server.cache.rows = some selected)
    (small : ∀ id ∈ ids, id < 2 ^ 31) : Accounted start
      (selected.foldl (fun server row => DpCacheServer.deleteSelected send row server) server) ∧
    SameServer server
      (selected.foldl (fun server row => DpCacheServer.deleteSelected send row server) server) ∧
    (selected.foldl (fun server row => DpCacheServer.deleteSelected send row server)
      server).cache.rows.length = server.cache.rows.length - count := by
  induction count generalizing ids selected server with
  | zero =>
    rw [selectOldest] at selects
    cases selects
    exact ⟨accounted, ⟨rfl, rfl, rfl⟩, rfl⟩
  | succ count ih =>
    by_cases none : server.cache.rows = []
    · rw [none, selectOldest] at selects
      cases selects
      refine ⟨accounted, ⟨rfl, rfl, rfl⟩, ?_⟩
      rw [foldl_nil, none, length_nil, Nat.zero_sub]
    · obtain ⟨row, others, rest, there, rfl, oldest, follows, rfl⟩ := selectOldest_cons none selects
      have fits := small row.id mem_cons_self
      obtain ⟨kept, one⟩ := accounted.deleteSelected send there oldest fits
      rw [← deleteSelected_rows server send fits] at follows
      obtain ⟨kept, same, length⟩ := ih kept follows fun id member =>
        small id (mem_cons_of_mem _ member)
      refine ⟨kept, ⟨same.queue, same.maxRow, same.configLoaded⟩, ?_⟩
      rw [foldl_cons, length]
      omega

variable {send : Option (DpCacheData → BusMessage)}

/-- Deleting the older rows keeps the account. -/
theorem Accounted.deleteOlder {count sent : Nat} (accounted : Accounted start server)
    (deletes : deleteOlderDpCacheData count ids send server = some (sent, next))
    (small : ∀ id ∈ ids, id < 2 ^ 31) : Accounted start next ∧ SameServer server next ∧
    next.cache.rows.length = server.cache.rows.length - count := by
  obtain ⟨selected, selects, same⟩ := map_eq_some_iff.mp deletes
  cases same
  exact accounted.deleteRows send selects small

/-! ## One pass -/

/-- A call whose rows have IDs that fit an `int`. -/
def Call.RemovesInt : Call → Prop
  | .pass _ _ flushed dropped _ _ => flushed < 2 ^ 31 ∧ dropped < 2 ^ 31
  | _ => True

/-- A row is stored under a new ID. -/
theorem Accounted.stored (accounted : Accounted start server)
    (deeds : next.deeds = server.deeds ++ [.stored row])
    (rows : next.cache.rows = server.cache.rows ++ [row])
    (counter : next.currentItemInDb = server.currentItemInDb + 1) (id : row.id = server.cache.newId)
    (newId : next.cache.newId = server.cache.newId + 1) : Accounted start next := by
  have stored : next.storedRows = server.storedRows ++ [row] := by
    rw [storedRows, deeds, filterMap_append]
    rfl
  have sent : next.sentRows = server.sentRows := by
    rw [sentRows, deeds, filterMap_append]
    exact append_nil _
  have dropped : next.droppedRows = server.droppedRows := by
    rw [droppedRows, deeds, filterMap_append]
    exact append_nil _
  have all :
      start.cache.rows ++ next.storedRows = (start.cache.rows ++ server.storedRows) ++ [row] := by
    rw [stored, append_assoc]
  refine ⟨?_, ?_, ?_, ?_⟩
  · rw [counter, accounted.counter, rows, length_append]
    rfl
  · rw [all, rows, sent, dropped]
    refine accounted.balanced.store fun other member => ?_
    rw [id]
    exact Nat.ne_of_lt (accounted.issued other member)
  · rw [all, newId]
    intro other member
    rcases mem_append.mp member with before | last
    · exact Nat.lt_succ_of_lt (accounted.issued other before)
    · rw [mem_singleton.mp last, id]
      exact Nat.lt_succ_self _
  · rw [dropped]
    intro other member
    refine (accounted.oldest other member).later ?_
    rw [deeds]
    exact subset_append_left _ _

/-- So does storing an entry. -/
theorem Accounted.storeDpCacheData (accounted : Accounted start server) {entry : CacheEntry}
    (stores : storeDpCacheData entry server = some next) : Accounted start next ∧
    SameServer server next ∧ next.cache.rows.length = server.cache.rows.length + 1 := by
  unfold DpCacheServer.storeDpCacheData at stores
  split at stores
  · cases stores
    exact ⟨accounted.stored rfl rfl rfl rfl rfl, ⟨rfl, rfl, rfl⟩, length_append⟩
  · cases stores

/-- A call that changes neither the rows nor what was done with them. -/
theorem Accounted.elsewhere (accounted : Accounted start server) (deeds : next.deeds = server.deeds)
    (rows : next.cache.rows = server.cache.rows)
    (counter : next.currentItemInDb = server.currentItemInDb)
    (newId : next.cache.newId = server.cache.newId) : Accounted start next where
  counter := by rw [counter, rows, accounted.counter]
  balanced := by
    rw [storedRows, sentRows, droppedRows, deeds, rows]
    exact accounted.balanced
  issued := by
    rw [storedRows, deeds, newId]
    exact accounted.issued
  oldest := by
    rw [droppedRows, deeds]
    intro row member
    exact (accounted.oldest row member).later (by rw [deeds]; exact List.Subset.refl _)

/-- Everything that holds between the calls: the rows are accounted for, and there are no
more than at the start or than allowed. -/
structure Kept (start server : DpCacheServer) : Prop where
  accounted : Accounted start server
  bound : (server.cache.rows.length : Int) ≤ max (start.cache.rows.length : Int) server.cache.maxRow
  before : server.configLoaded = false → server.cache.rows.length ≤ start.cache.rows.length

/-- The configuration changes nothing of it. -/
theorem Kept.loadIni (kept : Kept start server) (unloaded : server.configLoaded = false)
    (maxRow : Option Int32) : Kept start (loadIni maxRow server) where
  accounted := kept.accounted.elsewhere rfl rfl rfl rfl
  bound := by
    have before := kept.before unloaded
    show (server.cache.rows.length : Int) ≤ max _ _
    omega
  before loaded := by cases loaded

/-- A row more than allowed is removed again. -/
theorem Kept.takeMessage (kept : Kept start server) (loaded : server.configLoaded = true)
    {oldest : Nat} (small : oldest < 2 ^ 31) (takes : takeMessage oldest server = some next) :
    Kept start next := by
  unfold DpCacheServer.takeMessage at takes
  split at takes
  · cases takes
    exact kept
  · rename_i entry rest queue
    split at takes
    swap
    · cases takes
    obtain ⟨behind, stores, takes⟩ := bind_eq_some_iff.mp takes
    have waiting : Accounted start { server with cache := { server.cache with queue := rest } } :=
      kept.accounted.elsewhere rfl rfl rfl rfl
    obtain ⟨accounted, same, more⟩ := waiting.storeDpCacheData stores
    have bound := kept.bound
    have counter := accounted.counter
    have maxRow : behind.cache.maxRow = server.cache.maxRow := same.maxRow
    have config : behind.configLoaded = true := same.configLoaded.trans loaded
    simp only at more
    unfold dropOverflow at takes
    split at takes
    · obtain ⟨⟨sent, removed⟩, deletes, rfl⟩ := map_eq_some_iff.mp takes
      have fits : ∀ id ∈ [oldest], id < 2 ^ 31 := by
        intro id member
        rw [mem_singleton.mp member]
        exact small
      obtain ⟨accounted, later, fewer⟩ := accounted.deleteOlder deletes fits
      refine ⟨accounted, ?_, fun unloaded => ?_⟩
      · show (removed.cache.rows.length : Int) ≤ max _ removed.cache.maxRow
        rw [fewer, more, Nat.add_sub_cancel, later.maxRow, maxRow]
        exact bound
      · rw [later.configLoaded, config] at unloaded
        cases unloaded
    · cases takes
      refine ⟨accounted, by omega, fun unloaded => ?_⟩
      rw [config] at unloaded
      cases unloaded

/-- One pass of the thread keeps the invariant. -/
theorem Kept.pass (kept : Kept start server)
    {maxRow : Option Int32} {now : UInt64} {flushed dropped : Nat}
    {moduleId : CString} {msgId : UInt32} (small : flushed < 2 ^ 31 ∧ dropped < 2 ^ 31)
    (passes : pass maxRow now flushed dropped moduleId msgId server = some next) :
    Kept start next := by
  unfold DpCacheServer.pass at passes
  have configured :
      Kept start (if server.configLoaded then server else DpCacheServer.loadIni maxRow server) ∧
      (if server.configLoaded then server else DpCacheServer.loadIni maxRow server).configLoaded =
      true := by
    split
    · rename_i loaded
      exact ⟨kept, loaded⟩
    · rename_i unloaded
      exact ⟨kept.loadIni (Bool.eq_false_iff.mpr unloaded) maxRow, rfl⟩
  generalize (if server.configLoaded then server else DpCacheServer.loadIni maxRow server) =
    ready at configured passes
  obtain ⟨kept, loaded⟩ := configured
  simp only at passes
  split at passes
  swap
  · exact kept.takeMessage loaded small.2 passes
  obtain ⟨⟨sent, behind⟩, deletes, passes⟩ := bind_eq_some_iff.mp passes
  have fits : ∀ id ∈ [flushed], id < 2 ^ 31 := by
    intro id member
    rw [mem_singleton.mp member]
    exact small.1
  obtain ⟨accounted, same, fewer⟩ := kept.accounted.deleteOlder deletes fits
  have config : behind.configLoaded = true := same.configLoaded.trans loaded
  have flushedKept : Kept start behind := by
    have bound := kept.bound
    refine ⟨accounted, ?_, fun unloaded => ?_⟩
    · rw [same.maxRow, fewer]
      omega
    · rw [config] at unloaded
      cases unloaded
  simp only at passes
  split at passes
  · cases passes
    exact flushedKept
  · exact flushedKept.takeMessage config small.2 passes

/-- So does a message, which is only queued. -/
theorem Kept.receive (kept : Kept start server)
    (staleFmt : Int32) (staleTm : Int64) (message : BusMessage) : Kept start
      { server with cache := DpCache.receive staleFmt staleTm none message server.cache } := by
  have same :
      (DpCache.receive staleFmt staleTm none message server.cache).rows = server.cache.rows ∧
      (DpCache.receive staleFmt staleTm none message server.cache).newId = server.cache.newId ∧
      (DpCache.receive staleFmt staleTm none message server.cache).maxRow =
      server.cache.maxRow := by
    unfold DpCache.receive
    split <;> exact ⟨rfl, rfl, rfl⟩
  obtain ⟨rows, newId, maxRow⟩ := same
  refine ⟨kept.accounted.elsewhere rfl rows rfl newId, ?_, ?_⟩
  · show ((DpCache.receive staleFmt staleTm none message server.cache).rows.length : Int) ≤ max _
      (DpCache.receive staleFmt staleTm none message server.cache).maxRow
    rw [rows, maxRow]
    exact kept.bound
  · show _ → (DpCache.receive staleFmt staleTm none message server.cache).rows.length ≤ _
    rw [rows]
    exact kept.before

/-- So does every call. -/
theorem Kept.perform {call : Call} (kept : Kept start server) (small : call.RemovesInt)
    (performs : perform call server = some next) : Kept start next := by
  cases call with
  | receive staleFmt staleTm message =>
    cases performs
    exact kept.receive staleFmt staleTm message
  | linkChange cloudStatus now =>
    cases performs
    exact ⟨kept.accounted.elsewhere rfl rfl rfl rfl, kept.bound, kept.before⟩
  | pass maxRow now flushed dropped moduleId msgId => exact kept.pass small performs

/-- A row is in the table, or was sent once and removed, or was dropped as the oldest. -/
def RowSettled (row : CacheRow) (server : DpCacheServer) : Prop :=
  Settled CacheRow.id server.cache.rows server.sentRows server.droppedRows row ∧
    (row ∈ server.droppedRows → server.DroppedOldest row)

/-- In every run that removes no row whose ID is beyond an `int`, the counter is the number
of rows, no more rows are kept than at the start or than allowed, and every row that was
ever stored is in one place. -/
theorem rows_accounted (fresh : start.Fresh) (calls : List Call)
    (runs : RunsUnder perform (fun _ call => call.RemovesInt) start calls server) :
    server.currentItemInDb = server.cache.rows.length ∧
      (server.cache.rows.length : Int) ≤ max (start.cache.rows.length : Int) server.cache.maxRow ∧
      ∀ row ∈ start.cache.rows ++ server.storedRows, server.RowSettled row := by
  have begins : Kept start start := by
    refine ⟨fresh.accounted, ?_, fun _ => Nat.le_refl _⟩
    exact Int.le_max_left _ _
  have kept : Kept start server :=
    runs.keeps (fun kept small performs => Kept.perform kept small performs) begins
  refine ⟨kept.accounted.counter, kept.bound,
    fun row member => ⟨kept.accounted.balanced.settled member, ?_⟩⟩
  exact kept.accounted.oldest row

/-! ## The thread goes on -/

/-- A table with rows has an oldest one. -/
theorem exists_oldest (some_rows : rows ≠ []) :
    ∃ row ∈ rows, DpCache.isOldest rows row = true := by
  have filled : (rows : Multiset CacheRow) ≠ 0 :=
    fun none => some_rows (Multiset.coe_eq_zero rows |>.mp none)
  obtain ⟨row, there, least⟩ :=
    Multiset.exists_min_image (fun row : CacheRow => row.entry.data.time.toInt) filled
  refine ⟨row, Multiset.mem_coe.mp there, List.all_eq_true.mpr fun other member => ?_⟩
  exact decide_eq_true (Int64.le_iff_toInt_le.mpr (least other (Multiset.mem_coe.mpr member)))

/-- Some row comes first when SQLite is asked for the oldest. -/
theorem deleteOlder_total (send : Option (DpCacheData → BusMessage)) (server : DpCacheServer) :
    ∃ id, (deleteOlderDpCacheData 1 [id] send server).isSome = true := by
  have selects : ∃ id, (selectOldest [id] 1 server.cache.rows).isSome = true := by
    cases rows : server.cache.rows with
    | nil => exact ⟨0, rfl⟩
    | cons first later =>
      obtain ⟨row, there, oldest⟩ := exists_oldest (cons_ne_nil first later)
      have found : ((first :: later).find? fun other =>
          other.id = row.id && DpCache.isOldest (first :: later) other).isSome = true :=
        List.find?_isSome.mpr ⟨row, there, by rw [oldest, Bool.and_true, decide_eq_true_eq]⟩
      obtain ⟨other, found⟩ := isSome_iff_exists.mp found
      refine ⟨row.id, ?_⟩
      rw [selectOldest, found, bind_some, selectOldest]
      rfl
  obtain ⟨id, selects⟩ := selects
  refine ⟨id, ?_⟩
  rw [deleteOlderDpCacheData, isSome_map]
  exact selects

/-- Removals never count up, and leave the queue. -/
theorem deleteOlder_counts {count sent : Nat}
    (deletes : deleteOlderDpCacheData count ids send server = some (sent, next)) :
    next.currentItemInDb ≤ server.currentItemInDb ∧ next.cache.queue = server.cache.queue := by
  obtain ⟨selected, selects, same⟩ := map_eq_some_iff.mp deletes
  cases same
  clear deletes selects
  induction selected generalizing server with
  | nil => exact ⟨Int.le_refl _, rfl⟩
  | cons row rest ih =>
    obtain ⟨counts, queue⟩ := @ih (deleteSelected send row server)
    refine ⟨Int.le_trans counts ?_, queue⟩
    show (if server.currentItemInDb > 0 then server.currentItemInDb - 1
      else server.currentItemInDb) ≤ _
    split <;> omega

/-- With room for the counter a message can be taken. -/
theorem takeMessage_total (terminated : ∀ entry ∈ server.cache.queue, entry.data.uri.length < 256)
    (room : server.currentItemInDb < 2 ^ 31 - 1) :
    ∃ dropped, (takeMessage dropped server).isSome = true := by
  cases queue : server.cache.queue with
  | nil =>
    refine ⟨0, ?_⟩
    simp only [takeMessage, queue, isSome_some]
  | cons entry rest =>
    have short : entry.data.uri.length < 256 :=
      terminated entry (by rw [queue]; exact mem_cons_self)
    have stores : ∃ behind, storeDpCacheData entry
      { server with cache := { server.cache with queue := rest } } = some behind := ⟨_, if_pos room⟩
    obtain ⟨behind, stores⟩ := stores
    obtain ⟨dropped, deletes⟩ := deleteOlder_total none behind
    refine ⟨dropped, ?_⟩
    simp only [takeMessage, queue]
    rw [if_pos short, stores, bind_some, dropOverflow]
    split
    · rw [isSome_map]
      exact deletes
    · rfl

/-- Every pass has a result, as long as the uris are terminated and the counter has room. -/
theorem pass_total (terminated : ∀ entry ∈ server.cache.queue, entry.data.uri.length < 256)
    (room : server.currentItemInDb < 2 ^ 31 - 1)
    (maxRow : Option Int32) (now : UInt64) (moduleId : CString) (msgId : UInt32) :
    ∃ flushed dropped, (pass maxRow now flushed dropped moduleId msgId server).isSome = true := by
  have same : (if server.configLoaded then server else loadIni maxRow server).cache.queue =
      server.cache.queue ∧ (if server.configLoaded then server
      else loadIni maxRow server).currentItemInDb = server.currentItemInDb := by
    split <;> exact ⟨rfl, rfl⟩
  simp only [pass]
  generalize (if server.configLoaded then server else loadIni maxRow server) = ready at same
  obtain ⟨queue, counter⟩ := same
  rw [← queue] at terminated
  rw [← counter] at room
  split
  · obtain ⟨flushed, deletes⟩ :=
      deleteOlder_total (some (sendCacheDataToAgent moduleId msgId)) ready
    obtain ⟨⟨sent, behind⟩, deletes⟩ := isSome_iff_exists.mp deletes
    obtain ⟨counts, queue⟩ := deleteOlder_counts deletes
    rw [← queue] at terminated
    obtain ⟨dropped, takes⟩ := takeMessage_total terminated (Int.lt_of_le_of_lt counts room)
    refine ⟨flushed, dropped, ?_⟩
    rw [deletes, bind_some]
    simp only
    split
    · rfl
    · exact takes
  · obtain ⟨dropped, takes⟩ := takeMessage_total terminated room
    exact ⟨0, dropped, takes⟩

/-- The row of a data point at time 5. -/
def waitingRow : CacheRow := ⟨1, ⟨5, 0, [1, 2], [0x2F, 0x61]⟩, none⟩

/-- A server that starts with one row. -/
def waitingServer : DpCacheServer := ⟨⟨[], [waitingRow], 2, 10, []⟩, 1, 0, 0, false, []⟩

/-- It is fresh. -/
theorem waitingServer_fresh : waitingServer.Fresh where
  counter := rfl
  distinct := nodup_singleton _
  issued := by
    intro row member
    rw [mem_singleton.mp member]
    exact Nat.lt_succ_self 1
  idle := rfl
  unloaded := rfl

/-- The link comes up, and a minute later the row is sent. -/
theorem rows_accounted_sent : ∃ server : DpCacheServer, server.sentRows = [waitingRow] ∧
    server.currentItemInDb = server.cache.rows.length ∧ (server.cache.rows.length : Int) ≤
      max (waitingServer.cache.rows.length : Int) server.cache.maxRow ∧
    ∀ row ∈ waitingServer.cache.rows ++ server.storedRows, server.RowSettled row := by
  have run : ∃ server, RunsUnder perform (fun _ call => call.RemovesInt) waitingServer
      [.linkChange 101 7, .pass (some 10) 80 1 0 .empty 3] server ∧
      server.sentRows = [waitingRow] := by
    refine ⟨_, .call trivial rfl (.call ⟨by decide, by decide⟩ rfl (.done _)), rfl⟩
  obtain ⟨server, runs, sent⟩ := run
  exact ⟨server, sent, rows_accounted waitingServer_fresh _ runs⟩

/-! ## IDs beyond an `int` -/

/-- A server that drops every row, between two passes. -/
structure Drained (id : Nat) (server : DpCacheServer) : Prop where
  rows : server.cache.rows = []
  queue : server.cache.queue = []
  newId : server.cache.newId = id
  maxRow : server.cache.maxRow = 0
  counter : server.currentItemInDb = 0
  offline : server.cloudStatus = 0
  loaded : server.configLoaded = true

variable {message : BusMessage} {data : DpCacheData}

/-- A data point is stored as the only row, and the removal by its ID follows. -/
theorem Drained.overflows (drained : Drained id server)
    (receives : databaseReceive 0 0 message = some data) (short : data.uri.length < 256) :
    ∃ next, runAll perform [.receive 0 0 message, .pass none 0 0 id .empty 0] server = some next ∧
    next.cache.rows = DpCache.deleteRow (DpCache.sqlite3ColumnInt id) [⟨id, data, none⟩] ∧
    next.cache.queue = [] ∧ next.cache.newId = id + 1 ∧ next.cache.maxRow = 0 ∧
    next.currentItemInDb = 0 ∧ next.cloudStatus = 0 ∧ next.configLoaded = true := by
  obtain ⟨cache, counter, status, change, config, deeds⟩ := server
  obtain ⟨queue, rows, newId, maxRow, delivered⟩ := cache
  obtain ⟨rfl, rfl, rfl, rfl, rfl, rfl, rfl⟩ := drained
  have oldest : DpCache.isOldest [⟨newId, data, none⟩] ⟨newId, data, none⟩ = true := by
    rw [DpCache.isOldest, all_cons, all_nil, Bool.and_true, decide_eq_true_eq]
    exact Int64.le_refl _
  have selects : selectOldest [newId] 1 [⟨newId, data, none⟩] = some [⟨newId, data, none⟩] := by
    rw [selectOldest, List.find?_cons_of_pos (by rw [oldest, Bool.and_true, decide_eq_true_eq]),
      bind_some, selectOldest]
    rfl
  have received : DpCache.receive 0 0 none message ⟨[], [], newId, 0, delivered⟩ =
      ⟨[⟨data, none⟩], [], newId, 0, delivered⟩ := by
    rw [DpCache.receive, receives]
    rfl
  have stores : storeDpCacheData ⟨data, none⟩ ⟨⟨[], [], newId, 0, delivered⟩, 0, 0, change,
      true, deeds⟩ = some ⟨⟨[], [⟨newId, data, none⟩], newId + 1, 0, delivered⟩, 1, 0, change, true,
      deeds ++ [.stored ⟨newId, data, none⟩]⟩ :=
    if_pos (by decide : (0 : Int) < 2 ^ 31 - 1)
  have passes : ∃ next, pass none 0 0 newId .empty 0 ⟨⟨[⟨data, none⟩], [], newId, 0, delivered⟩,
      0, 0, change, true, deeds⟩ = some next ∧ next.cache = ⟨[], DpCache.deleteRow
      (DpCache.sqlite3ColumnInt newId) [⟨newId, data, none⟩], newId + 1, 0, delivered⟩ ∧
      next.currentItemInDb = 0 ∧ next.cloudStatus = 0 ∧ next.configLoaded = true := by
    refine ⟨deleteSelected none ⟨newId, data, none⟩
      ⟨⟨[], [⟨newId, data, none⟩], newId + 1, 0, delivered⟩, 1, 0, change,
      true, deeds ++ [.stored ⟨newId, data, none⟩]⟩, ?_, rfl, rfl, rfl, rfl⟩
    show (if data.uri.length < 256 then (storeDpCacheData ⟨data, none⟩ ⟨⟨[], [], newId, 0,
      delivered⟩, 0, 0, change, true, deeds⟩).bind (dropOverflow newId) else none) = _
    rw [if_pos short, stores, bind_some, dropOverflow, if_pos (by decide : (1 : Int) > 0),
      deleteOlderDpCacheData, selects]
    rfl
  obtain ⟨next, passes, cache, counter, status, loaded⟩ := passes
  refine ⟨next, ?_, by rw [cache], by rw [cache], by rw [cache], by rw [cache],
    counter, status, loaded⟩
  simp only [runAll, perform, received, bind_some, passes]

/-- One more row is stored and dropped, under the next ID. -/
theorem Drained.onward (drained : Drained id server) (small : id < 2 ^ 31)
    (receives : databaseReceive 0 0 message = some data) (short : data.uri.length < 256) :
    ∃ next, runAll perform [.receive 0 0 message, .pass none 0 0 id .empty 0] server = some next ∧
    Drained (id + 1) next := by
  obtain ⟨next, runs, rows, queue, newId, maxRow, counter, offline, loaded⟩ :=
    drained.overflows receives short
  refine ⟨next, runs, ⟨?_, queue, newId, maxRow, counter, offline, loaded⟩⟩
  rw [rows, deleteRow_small small, filter_cons_of_neg (by simp), filter_nil]

/-- Any ID is reached from an empty table. -/
theorem Drained.reached (drained : Drained id server)
    (receives : databaseReceive 0 0 message = some data)
    (short : data.uri.length < 256) {more : Nat} (small : id + more ≤ 2 ^ 31) :
    ∃ calls next, runAll perform calls server = some next ∧ Drained (id + more) next := by
  induction more with
  | zero => exact ⟨[], server, rfl, drained⟩
  | succ more ih =>
    obtain ⟨calls, behind, runs, drained⟩ := ih (by omega)
    obtain ⟨next, follows, drained⟩ := drained.onward (by omega) receives short
    let round : List Call := [.receive 0 0 message, .pass none 0 0 (id + more) .empty 0]
    refine ⟨calls ++ round, next, ?_, drained⟩
    rw [runAll_append, runs]
    exact follows

/-- A server with an empty table. -/
def emptyServer : DpCacheServer := ⟨⟨[], [], 1, 0, []⟩, 0, 0, 0, false, []⟩

/-- It is fresh. -/
theorem emptyServer_fresh : emptyServer.Fresh :=
  ⟨rfl, nodup_nil, fun _ member => absurd member not_mem_nil, rfl, rfl⟩

/-- The row with the ID 2^31 is counted down and stays. -/
theorem rows_uncounted : ¬ ∀ (start server : DpCacheServer) (calls : List Call), start.Fresh →
    runAll perform calls start = some server → server.currentItemInDb = server.cache.rows.length ∧
    (server.cache.rows.length : Int) ≤ max (start.cache.rows.length : Int) server.cache.maxRow ∧
    ∀ row ∈ start.cache.rows ++ server.storedRows, server.RowSettled row := by
  intro claimed
  obtain ⟨message, sent⟩ :
      ∃ message, sendRequest DpCache.sampleContext DpCache.sampleArgs = some (.bus message) :=
    ⟨_, rfl⟩
  have point : IsDataPoint [0x61] DpCache.sampleArgs :=
    ⟨rfl, by decide, by decide, rfl, rfl, by decide, by decide⟩
  have receives := (databaseReceive_dataPoint point sent 0 0).2
  have begins : ∃ server, runAll perform [.pass (some 0) 0 0 0 .empty 0] emptyServer = some server ∧
      Drained 1 server :=
    ⟨_, rfl, rfl, rfl, rfl, rfl, rfl, rfl, rfl⟩
  obtain ⟨first, begun, drained⟩ := begins
  obtain ⟨calls, full, runs, drained⟩ :=
    drained.reached receives (by decide) (by omega : 1 + (2 ^ 31 - 1) ≤ 2 ^ 31)
  obtain ⟨last, overflows, rows, _, _, _, counter, _⟩ := drained.overflows receives (by decide)
  let loads : List Call := [.pass (some 0) 0 0 0 .empty 0]
  let round : List Call := [.receive 0 0 message, .pass none 0 0 (1 + (2 ^ 31 - 1)) .empty 0]
  have ran : runAll perform (loads ++ (calls ++ round)) emptyServer = some last := by
    rw [runAll_append, begun, bind_some, runAll_append, runs]
    exact overflows
  have right := (claimed emptyServer last _ emptyServer_fresh ran).1
  rw [counter, rows] at right
  exact absurd right (by decide)

end DpCacheServer

end Idrm.Agent
