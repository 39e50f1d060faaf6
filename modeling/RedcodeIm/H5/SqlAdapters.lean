import Mathlib.Data.Nat.Notation

/-!
# The local database of the H5 client

`IndexedDbSqlAdapter`, which keeps its rows in a `MemorySqlAdapter` and writes them to IndexedDB as
a whole, and `WaSQLiteAdapter`, which queues its operations.  Storages call an adapter at any time;
a call goes on whenever what it waits for is there, so that calls run in between.

* `Work`, `SqlCall` — the body of a transaction, and the calls.
* `IndexedDbSqlAdapter.act` — the calls, step by step, and the writes to IndexedDB.
* `WaSQLiteAdapter.act` — the calls, one after the other.

What a statement does to the rows is the same for both, and is left open.  Storages do not nest
transactions.
-/

namespace RedcodeIm.H5

/-- What statements do to the rows of a database, and what queries read of them. -/
structure SqlEngine (Db Stmt Query Rows : Type) where
  execute : Stmt → Db → Db
  query : Query → Db → Rows

/-! ## Calls -/

/-- What is done within a transaction: statements and queries, whose rows decide how it goes on,
until it returns or throws. -/
inductive Work (Stmt Query Rows Result : Type) where
  | returns (result : Result)
  | throws
  | execute (stmt : Stmt) (next : Work Stmt Query Rows Result)
  | query (q : Query) (next : Rows → Work Stmt Query Rows Result)

inductive SqlCall (Stmt Query Rows Result : Type) where
  | execute (stmt : Stmt)
  | query (q : Query)
  | transaction (work : Work Stmt Query Rows Result)

/-- What a call comes to. -/
inductive SqlAnswer (Rows Result : Type) where
  | executed
  | rows (rows : Rows)
  | committed (result : Result)
  /-- The work has thrown. -/
  | rolledBack
  /-- Its write to IndexedDB has failed. -/
  | writeFailed
  /-- Its write was given up before it was begun, as one before had failed. -/
  | notWritten
  deriving DecidableEq

/-! ## `IndexedDbSqlAdapter` -/

/-- Where a call stands. -/
inductive SqlStage (Db Stmt Query Rows Result : Type) where
  /-- `execute`, after `memory.execute`. -/
  | executed
  /-- In the body of a transaction. -/
  | working (isOuterTransaction previousDirty : Bool) (snapshot : Db)
      (work : Work Stmt Query Rows Result)
  /-- In the body of a transaction, in `execute`, after `memory.execute`. -/
  | workExecuted (isOuterTransaction previousDirty : Bool) (snapshot : Db)
      (next : Work Stmt Query Rows Result)
  /-- The work has thrown, and `memory.transaction` has put back its snapshot. -/
  | restored (isOuterTransaction previousDirty : Bool)
  /-- In `persist`. -/
  | persisting (answer : SqlAnswer Rows Result)
  | answered (answer : SqlAnswer Rows Result)

structure SqlCallState (Db Stmt Query Rows Result : Type) where
  call : SqlCall Stmt Query Rows Result
  stage : SqlStage Db Stmt Query Rows Result

/-- `IndexedDbSqlAdapter`.  The calls are in the order in which they were made. -/
structure IndexedDbSqlAdapter (Db Stmt Query Rows Result : Type) where
  memory : Db
  transactionDepth : ℕ
  transactionDirty : Bool
  /-- The calls whose writes wait on `writeChain`. -/
  waiting : List ℕ
  /-- The write that has been begun, with its snapshot. -/
  writing : Option (ℕ × Db)
  /-- `writeChain` has been rejected. -/
  rejected : Bool
  /-- What is in IndexedDB. -/
  stored : Db
  calls : List (SqlCallState Db Stmt Query Rows Result)

/-- What happens: a call is made; a call goes on; the next write is begun, succeeds, or fails. -/
inductive SqlAct (Stmt Query Rows Result : Type) where
  | call (c : SqlCall Stmt Query Rows Result)
  | resume (i : ℕ)
  | beginWrite
  | writeDone
  | writeError

variable {Db Stmt Query Rows Result : Type}

namespace IndexedDbSqlAdapter

/-- An adapter with these rows, restored from IndexedDB. -/
def restored (db : Db) : IndexedDbSqlAdapter Db Stmt Query Rows Result :=
  ⟨db, 0, false, [], none, false, db, []⟩

variable (E : SqlEngine Db Stmt Query Rows) (a : IndexedDbSqlAdapter Db Stmt Query Rows Result)

def setStage (i : ℕ) (stage : SqlStage Db Stmt Query Rows Result) :
    IndexedDbSqlAdapter Db Stmt Query Rows Result :=
  { a with calls := a.calls.modify i fun c => { c with stage } }

def stageOf (i : ℕ) : Option (SqlStage Db Stmt Query Rows Result) :=
  (a.calls[i]?).map fun c => c.stage

/-- A call is made, and runs as far as its first `await`. -/
def start (c : SqlCall Stmt Query Rows Result) : IndexedDbSqlAdapter Db Stmt Query Rows Result :=
  match c with
  | .execute stmt =>
    { a with memory := E.execute stmt a.memory, calls := a.calls ++ [⟨c, .executed⟩] }
  | .query q => { a with calls := a.calls ++ [⟨c, .answered (.rows (E.query q a.memory))⟩] }
  | .transaction work =>
    { a with
      transactionDepth := a.transactionDepth + 1
      calls := a.calls ++
        [⟨c, .working (a.transactionDepth = 0) a.transactionDirty a.memory work⟩] }

/-- `persist`, as far as its `await`. -/
def persist (i : ℕ) (answer : SqlAnswer Rows Result) :
    IndexedDbSqlAdapter Db Stmt Query Rows Result :=
  if a.rejected then a.setStage i (.answered .notWritten)
  else { a with waiting := a.waiting ++ [i] }.setStage i (.persisting answer)

/-- The `finally` of `transaction`, for a work that has returned. -/
def commit (i : ℕ) (isOuterTransaction : Bool) (result : Result) :
    IndexedDbSqlAdapter Db Stmt Query Rows Result :=
  let a := { a with transactionDepth := a.transactionDepth - 1 }
  if isOuterTransaction then
    let shouldPersist := a.transactionDirty
    let a := { a with transactionDirty := false }
    if shouldPersist then a.persist i (.committed result)
    else a.setStage i (.answered (.committed result))
  else a.setStage i (.answered (.committed result))

/-- A call goes on from where it stands. -/
def resume (i : ℕ) : Option (IndexedDbSqlAdapter Db Stmt Query Rows Result) :=
  match a.stageOf i with
  | some .executed =>
    some (if a.transactionDepth > 0 then
        { a with transactionDirty := true }.setStage i (.answered .executed)
      else a.persist i .executed)
  | some (.working isOuter previousDirty snapshot (.execute stmt next)) =>
    some ({ a with memory := E.execute stmt a.memory }.setStage i
      (.workExecuted isOuter previousDirty snapshot next))
  | some (.working isOuter previousDirty snapshot (.query q next)) =>
    some (a.setStage i (.working isOuter previousDirty snapshot (next (E.query q a.memory))))
  | some (.working isOuter _ _ (.returns result)) => some (a.commit i isOuter result)
  | some (.working isOuter previousDirty snapshot .throws) =>
    some ({ a with memory := snapshot }.setStage i (.restored isOuter previousDirty))
  | some (.workExecuted isOuter previousDirty snapshot next) =>
    some ((if a.transactionDepth > 0 then { a with transactionDirty := true } else a).setStage i
      (.working isOuter previousDirty snapshot next))
  | some (.restored isOuter previousDirty) =>
    some ({ a with
      transactionDirty := if isOuter then false else previousDirty
      transactionDepth := a.transactionDepth - 1 }.setStage i (.answered .rolledBack))
  | _ => none

/-- The answer of a call whose write is done. -/
def answerOf (i : ℕ) : SqlAnswer Rows Result :=
  match a.stageOf i with
  | some (.persisting answer) => answer
  | _ => .notWritten

/-- The writes that wait are given up. -/
def giveUp : List ℕ → IndexedDbSqlAdapter Db Stmt Query Rows Result →
    IndexedDbSqlAdapter Db Stmt Query Rows Result
  | [], a => a
  | i :: waiting, a => giveUp waiting (a.setStage i (.answered .notWritten))

def act : SqlAct Stmt Query Rows Result → Option (IndexedDbSqlAdapter Db Stmt Query Rows Result)
  | .call c => some (a.start E c)
  | .resume i => a.resume E i
  | .beginWrite =>
    match a.writing, a.waiting with
    | none, i :: waiting => some { a with waiting, writing := some (i, a.memory) }
    | _, _ => none
  | .writeDone =>
    match a.writing with
    | some (i, state) =>
      some ({ a with writing := none, stored := state }.setStage i (.answered (a.answerOf i)))
    | none => none
  | .writeError =>
    match a.writing with
    | some (i, _) =>
      some (giveUp a.waiting
        ({ a with writing := none, waiting := [], rejected := true }.setStage i
          (.answered .writeFailed)))
    | none => none

end IndexedDbSqlAdapter

/-! ## `WaSQLiteAdapter` -/

/-- Where a queued operation stands. -/
inductive WaStage (Db Stmt Query Rows Result : Type) where
  | queued
  /-- In `runTransaction`, after `BEGIN TRANSACTION`: what SQLite goes back to, and what is left to
  do. -/
  | running (before : Db) (work : Work Stmt Query Rows Result)
  | answered (answer : SqlAnswer Rows Result)

structure WaCallState (Db Stmt Query Rows Result : Type) where
  call : SqlCall Stmt Query Rows Result
  stage : WaStage Db Stmt Query Rows Result

/-- `WaSQLiteAdapter`, with the operations on `operationChain` in their order. -/
structure WaSQLiteAdapter (Db Stmt Query Rows Result : Type) where
  db : Db
  calls : List (WaCallState Db Stmt Query Rows Result)

/-- An operation is enqueued, or the one whose turn it is goes on. -/
inductive WaAct (Stmt Query Rows Result : Type) where
  | enqueue (c : SqlCall Stmt Query Rows Result)
  | step

namespace WaSQLiteAdapter

/-- An adapter with these rows. -/
def opened (db : Db) : WaSQLiteAdapter Db Stmt Query Rows Result := ⟨db, []⟩

variable (E : SqlEngine Db Stmt Query Rows) (a : WaSQLiteAdapter Db Stmt Query Rows Result)

/-- The operation goes on: the rows, and where it stands then. -/
def stepCall (db : Db) (call : SqlCall Stmt Query Rows Result) :
    WaStage Db Stmt Query Rows Result → Db × WaStage Db Stmt Query Rows Result
  | .queued =>
    match call with
    | .execute stmt => (E.execute stmt db, .answered .executed)
    | .query q => (db, .answered (.rows (E.query q db)))
    | .transaction work => (db, .running db work)
  | .running before (.execute stmt next) => (E.execute stmt db, .running before next)
  | .running before (.query q next) => (db, .running before (next (E.query q db)))
  | .running _ (.returns result) => (db, .answered (.committed result))
  | .running before .throws => (before, .answered .rolledBack)
  | .answered answer => (db, .answered answer)

/-- The first operation that is not over goes on. -/
def stepFirst (db : Db) : List (WaCallState Db Stmt Query Rows Result) →
    Db × List (WaCallState Db Stmt Query Rows Result)
  | [] => (db, [])
  | ⟨call, .answered answer⟩ :: calls =>
    let (db, calls) := stepFirst db calls
    (db, ⟨call, .answered answer⟩ :: calls)
  | ⟨call, stage⟩ :: calls =>
    let (db, stage) := stepCall E db call stage
    (db, ⟨call, stage⟩ :: calls)

def act : WaAct Stmt Query Rows Result → Option (WaSQLiteAdapter Db Stmt Query Rows Result)
  | .enqueue call => some { a with calls := a.calls ++ [⟨call, .queued⟩] }
  | .step =>
    let (db, calls) := stepFirst E a.db a.calls
    some ⟨db, calls⟩

end WaSQLiteAdapter

end RedcodeIm.H5
