import Mathlib.Data.List.Nodup
import RedcodeIm.H5.SqlAdapters
import RedcodeIm.Lib.Machine

/-!
# The two adapters agree while transactions keep to themselves

`WaSQLiteAdapter` runs its operations one after the other, in the order in which they are asked for.
`IndexedDbSqlAdapter` lets calls run within a transaction: what they write is undone with it, what
they read may be; and after one failed write to IndexedDB it never writes again.

* `SqlCall.serial`, `rowsAfter` — the calls, one after the other.
* `IndexedDbSqlAdapter.AsQueued`, `WaSQLiteAdapter.AsQueued` — the answers and the rows are those of
  the calls, one after the other; and what has been answered is stored.
* `SqlAct.Apart` — the condition: no call is made and no write begun within a transaction, and none
  after a write has failed.
* `adapters_agree` — under the condition the two adapters agree.
* `execute_undone` — without it, a failing transaction undoes what another call has written.
-/

namespace RedcodeIm.H5

open Machine (Reach)
open List

variable {Db Stmt Query Rows Result : Type} (E : SqlEngine Db Stmt Query Rows)

/-! ## One after the other -/

/-- A work, carried out at once. -/
def Work.run : Work Stmt Query Rows Result → Db → Db × Option Result
  | .returns result, db => (db, some result)
  | .throws, db => (db, none)
  | .execute stmt next, db => next.run (E.execute stmt db)
  | .query q next, db => (next (E.query q db)).run db

/-- A call, carried out at once: the rows, and the answer. -/
def SqlCall.serial (call : SqlCall Stmt Query Rows Result) (db : Db) : Db × SqlAnswer Rows Result :=
  match call with
  | .execute stmt => (E.execute stmt db, .executed)
  | .query q => (db, .rows (E.query q db))
  | .transaction work =>
    match work.run E db with
    | (db', some result) => (db', .committed result)
    | (_, none) => (db, .rolledBack)

/-- The rows after these calls. -/
def rowsAfter (db : Db) (calls : List (SqlCall Stmt Query Rows Result)) : Db :=
  calls.foldl (fun db call => (call.serial E db).1) db

variable {E} {db : Db} {calls : List (SqlCall Stmt Query Rows Result)}
  {call : SqlCall Stmt Query Rows Result} {work : Work Stmt Query Rows Result}

@[simp] theorem rowsAfter_append :
    rowsAfter E db (calls ++ [call]) = (call.serial E (rowsAfter E db calls)).1 := by
  simp [rowsAfter]

theorem serial_returns {db' : Db} {result : Result} (h : work.run E db = (db', some result)) :
    (SqlCall.transaction work).serial E db = (db', .committed result) := by
  simp [SqlCall.serial, h]

theorem serial_throws (h : (work.run E db).2 = none) :
    (SqlCall.transaction work).serial E db = (db, .rolledBack) := by
  unfold SqlCall.serial
  simp only
  split
  · rename_i heq
    rw [heq] at h
    cases h
  · rfl

variable (E)

/-! ## The claim -/

def SqlStage.underWay : SqlStage Db Stmt Query Rows Result → Bool
  | .working .. | .workExecuted .. | .restored .. => true
  | _ => false

namespace IndexedDbSqlAdapter

variable (a : IndexedDbSqlAdapter Db Stmt Query Rows Result) (db : Db)

/-- No transaction is under way. -/
def Idle : Prop := ∀ c ∈ a.calls, c.stage.underWay = false

/-- The rows after the first calls. -/
def before (k : ℕ) : Db := rowsAfter E db ((a.calls.map fun c => c.call).take k)

/-- These are the rows after the first calls, and the calls since then that have been answered have
changed nothing, or were told that their writes have failed. -/
def Covers (state : Db) (k : ℕ) : Prop :=
  k ≤ a.calls.length ∧ state = a.before E db k ∧ ∀ i c answer, k ≤ i → a.calls[i]? = some c →
    c.stage = .answered answer → answer ≠ .writeFailed → a.before E db (i + 1) = a.before E db i

/-- The adapter is as if its calls were queued. -/
structure AsQueued : Prop where
  /-- A call is answered as the calls before it make it, unless its own write has failed. -/
  answers : ∀ (i : ℕ) (c : SqlCallState Db Stmt Query Rows Result)
    (answer : SqlAnswer Rows Result), a.calls[i]? = some c → c.stage = .answered answer →
    answer = .writeFailed ∨ answer = (c.call.serial E (a.before E db i)).2
  /-- No call is undone by another. -/
  rows : a.Idle → a.memory = a.before E db a.calls.length
  /-- What has been answered is stored. -/
  durable : ∃ k, a.Covers E db a.stored k

end IndexedDbSqlAdapter

open IndexedDbSqlAdapter

/-- **The condition**.  A call is made only while no transaction is under way, and a transaction
begins only when the statements before it have come to `persist`; no write is begun while a
transaction is under way; a write fails only when no other waits for it; and nothing is to be
written after a write has failed. -/
def SqlAct.Apart (a : IndexedDbSqlAdapter Db Stmt Query Rows Result) :
    SqlAct Stmt Query Rows Result → Prop
  | .call c => a.Idle ∧ ∀ work, c = .transaction work → ∀ c' ∈ a.calls, c'.stage ≠ .executed
  | .resume i => ∀ stage, a.stageOf i = some stage → a.rejected = true →
    stage ≠ .executed ∧ ∀ isOuter previousDirty snapshot result,
      stage = .working isOuter previousDirty snapshot (.returns result) → a.transactionDirty = false
  | .beginWrite => a.Idle
  | .writeDone => True
  | .writeError => a.waiting = []

namespace WaSQLiteAdapter

variable (a : WaSQLiteAdapter Db Stmt Query Rows Result) (db : Db)

/-- The adapter runs its calls one after the other. -/
structure AsQueued : Prop where
  answers : ∀ (i : ℕ) (c : WaCallState Db Stmt Query Rows Result) (answer : SqlAnswer Rows Result),
    a.calls[i]? = some c → c.stage = .answered answer →
    answer = (c.call.serial E (rowsAfter E db ((a.calls.map fun c => c.call).take i))).2
  rows : (∀ c ∈ a.calls, ∃ answer, c.stage = .answered answer) →
    a.db = rowsAfter E db (a.calls.map fun c => c.call)

end WaSQLiteAdapter

/-! ## The queued adapter -/

namespace WaSQLiteAdapter

/-- From these rows on, the calls that are over have been carried out one after the other, the next
may be under way, and the rest are queued. -/
inductive Queued : Db → Db → List (WaCallState Db Stmt Query Rows Result) → Prop where
  | waiting (db : Db) {calls : List (WaCallState Db Stmt Query Rows Result)}
      (h : ∀ c ∈ calls, c.stage = .queued) : Queued db db calls
  | running {before db : Db} {work₀ work : Work Stmt Query Rows Result}
      {calls : List (WaCallState Db Stmt Query Rows Result)}
      (hwork : work.run E db = work₀.run E before) (h : ∀ c ∈ calls, c.stage = .queued) :
      Queued before db (⟨.transaction work₀, .running before work⟩ :: calls)
  | answered {before db : Db} {call : SqlCall Stmt Query Rows Result}
      {answer : SqlAnswer Rows Result} {calls : List (WaCallState Db Stmt Query Rows Result)}
      (hanswer : answer = (call.serial E before).2)
      (h : Queued (call.serial E before).1 db calls) :
      Queued before db (⟨call, .answered answer⟩ :: calls)

variable {E} {before db : Db} {calls : List (WaCallState Db Stmt Query Rows Result)}

theorem Queued.enqueue (h : Queued E before db calls) (call : SqlCall Stmt Query Rows Result) :
    Queued E before db (calls ++ [⟨call, .queued⟩]) := by
  have hqueued : ∀ {calls : List (WaCallState Db Stmt Query Rows Result)},
      (∀ c ∈ calls, c.stage = .queued) → ∀ c ∈ calls ++ [⟨call, .queued⟩], c.stage = .queued := by
    intro calls hcalls c hc
    rcases mem_append.1 hc with hc | hc
    · exact hcalls c hc
    · rw [mem_singleton.1 hc]
  induction h with
  | waiting db hcalls => exact .waiting db (hqueued hcalls)
  | running hwork hcalls => exact .running hwork (hqueued hcalls)
  | answered hanswer _ ih => exact .answered hanswer ih

theorem Queued.step (h : Queued E before db calls) :
    Queued E before (stepFirst E db calls).1 (stepFirst E db calls).2 := by
  induction h with
  | @waiting db calls hcalls =>
    cases calls with
    | nil => exact .waiting db hcalls
    | cons c calls =>
      obtain ⟨call, stage⟩ := c
      obtain rfl : stage = .queued := hcalls _ (.head _)
      have hrest : ∀ c ∈ calls, c.stage = .queued := fun c hc => hcalls c (.tail _ hc)
      cases call with
      | transaction work => exact .running rfl hrest
      | _ => exact .answered rfl (.waiting _ hrest)
  | @running before db work₀ work calls hwork hrest =>
    cases work with
    | returns result =>
      have hserial : (SqlCall.transaction work₀).serial E before = (db, .committed result) :=
        serial_returns hwork.symm
      refine .answered (by rw [hserial]) ?_
      rw [hserial]
      exact .waiting _ hrest
    | throws =>
      have hserial : (SqlCall.transaction work₀).serial E before = (before, .rolledBack) :=
        serial_throws (by rw [← hwork]; rfl)
      refine .answered (by rw [hserial]) ?_
      rw [hserial]
      exact .waiting _ hrest
    | _ => exact .running hwork hrest
  | answered hanswer _ ih => exact .answered hanswer ih

theorem Queued.answers (h : Queued E before db calls) {i : ℕ}
    {c : WaCallState Db Stmt Query Rows Result} {answer : SqlAnswer Rows Result}
    (hc : calls[i]? = some c) (hstage : c.stage = .answered answer) :
    answer = (c.call.serial E (rowsAfter E before ((calls.map fun c => c.call).take i))).2 := by
  induction h generalizing i with
  | waiting db hcalls =>
    rw [hcalls c (mem_of_getElem? hc)] at hstage
    cases hstage
  | running hwork hcalls =>
    cases i with
    | zero =>
      cases hc
      cases hstage
    | succ i =>
      rw [hcalls c (mem_of_getElem? hc)] at hstage
      cases hstage
  | answered hanswer _ ih =>
    cases i with
    | zero =>
      cases hc
      obtain rfl := WaStage.answered.inj hstage
      exact hanswer
    | succ i => exact ih hc

theorem Queued.rows (h : Queued E before db calls)
    (hall : ∀ c ∈ calls, ∃ answer, c.stage = .answered answer) :
    db = rowsAfter E before (calls.map fun c => c.call) := by
  induction h with
  | @waiting db calls hcalls =>
    cases calls with
    | nil => rfl
    | cons c calls =>
      obtain ⟨answer, hanswer⟩ := hall c (.head _)
      rw [hcalls c (.head _)] at hanswer
      cases hanswer
  | running hwork hcalls =>
    obtain ⟨answer, hanswer⟩ := hall _ (.head _)
    cases hanswer
  | answered hanswer _ ih => exact ih fun c hc => hall c (.tail _ hc)

/-- The queued adapter runs its calls one after the other, in every run. -/
theorem asQueued {a : WaSQLiteAdapter Db Stmt Query Rows Result}
    (h : Reach (act E) (fun _ _ => True) (opened db) a) : a.AsQueued E db := by
  have hqueued : Queued E db a.db a.calls := by
    refine h.invariant (I := fun a => Queued E db a.db a.calls) ?_ (.waiting db ?_)
    · intro a act a' ha _ hact
      cases act with
      | enqueue call =>
        cases hact
        exact ha.enqueue call
      | step =>
        cases hact
        exact ha.step
    · intro c hc
      cases hc
  exact ⟨fun i c answer hc hstage => hqueued.answers hc hstage, hqueued.rows⟩

end WaSQLiteAdapter

/-! ## The adapter on IndexedDB -/

namespace IndexedDbSqlAdapter

variable {E} {a : IndexedDbSqlAdapter Db Stmt Query Rows Result} {db : Db} {i j k : ℕ}
  {stage : SqlStage Db Stmt Query Rows Result} {c : SqlCallState Db Stmt Query Rows Result}

/-- The calls whose writes have been asked for, and are not over. -/
def writeQueue (a : IndexedDbSqlAdapter Db Stmt Query Rows Result) : List ℕ :=
  (a.writing.map Prod.fst).toList ++ a.waiting

/-- What is known of a call from where it stands. -/
def StageOk (E : SqlEngine Db Stmt Query Rows) (db : Db)
    (a : IndexedDbSqlAdapter Db Stmt Query Rows Result) (i : ℕ)
    (call : SqlCall Stmt Query Rows Result) : SqlStage Db Stmt Query Rows Result → Prop
  | .executed => (∃ stmt, call = .execute stmt) ∧ a.transactionDepth = 0
  | .working isOuter _ snapshot work => ∃ work₀, call = .transaction work₀ ∧ isOuter = true ∧
    a.transactionDepth = 1 ∧ snapshot = a.before E db i ∧
    work.run E a.memory = work₀.run E snapshot ∧
    (a.transactionDirty = false → a.memory = snapshot)
  | .workExecuted isOuter _ snapshot next => ∃ work₀, call = .transaction work₀ ∧
    isOuter = true ∧ a.transactionDepth = 1 ∧ snapshot = a.before E db i ∧
    next.run E a.memory = work₀.run E snapshot
  | .restored isOuter _ => ∃ work₀, call = .transaction work₀ ∧ isOuter = true ∧
    a.transactionDepth = 1 ∧ a.memory = a.before E db i ∧
    (work₀.run E (a.before E db i)).2 = none
  | .persisting answer => answer = (call.serial E (a.before E db i)).2 ∧ i ∈ a.writeQueue
  | .answered answer => answer = .writeFailed ∨ answer = (call.serial E (a.before E db i)).2

structure Ok (E : SqlEngine Db Stmt Query Rows) (db : Db)
    (a : IndexedDbSqlAdapter Db Stmt Query Rows Result) : Prop where
  stages : ∀ (i : ℕ) (c : SqlCallState Db Stmt Query Rows Result),
    a.calls[i]? = some c → StageOk E db a i c.call c.stage
  /-- A transaction that is under way is the last call. -/
  last : ∀ (i : ℕ) (c : SqlCallState Db Stmt Query Rows Result),
    a.calls[i]? = some c → c.stage.underWay = true → i + 1 = a.calls.length
  idle : a.Idle → a.transactionDepth = 0 ∧ a.transactionDirty = false ∧
    a.memory = a.before E db a.calls.length
  stored : ∃ k, a.Covers E db a.stored k
  writing : ∀ (i : ℕ) (state : Db), a.writing = some (i, state) → ∃ k, i < k ∧ a.Covers E db state k
  pending : ∀ i ∈ a.writeQueue, ∃ c answer, a.calls[i]? = some c ∧ c.stage = .persisting answer
  once : a.writeQueue.Nodup

@[simp] theorem calls_setStage :
    (a.setStage i stage).calls = a.calls.modify i fun c => { c with stage } := rfl

theorem getElem?_setStage : (a.setStage i stage).calls[j]? =
    if i = j then (a.calls[j]?).map fun c => { c with stage } else a.calls[j]? := by
  rw [calls_setStage, getElem?_modify]
  split
  · rfl
  · simp

/-- A call of the new state is the one that went on, or it stands where it stood. -/
theorem setStage_cases (h : (a.setStage i stage).calls[j]? = some c) :
    (j = i ∧ c.stage = stage ∧ ∃ c₀, a.calls[i]? = some c₀ ∧ c.call = c₀.call) ∨
      (j ≠ i ∧ a.calls[j]? = some c) := by
  rw [getElem?_setStage] at h
  split at h
  · rename_i heq
    subst heq
    obtain ⟨c₀, hc₀, rfl⟩ := Option.map_eq_some_iff.1 h
    exact .inl ⟨rfl, rfl, c₀, hc₀, rfl⟩
  · rename_i hne
    exact .inr ⟨fun heq => hne heq.symm, h⟩

@[simp] theorem length_setStage : (a.setStage i stage).calls.length = a.calls.length := by simp

@[simp] theorem map_setStage :
    ((a.setStage i stage).calls.map fun c => c.call) = a.calls.map fun c => c.call := by
  refine ext_getElem? fun j => ?_
  rw [getElem?_map, getElem?_map, getElem?_setStage]
  split
  · cases a.calls[j]? <;> rfl
  · rfl

@[simp] theorem before_setStage : (a.setStage i stage).before E db k = a.before E db k := by
  unfold before
  rw [map_setStage]

theorem nodup_concat {queue : List ℕ} (h : queue.Nodup) (hnot : i ∉ queue) :
    (queue ++ [i]).Nodup := by
  refine nodup_append.2 ⟨h, nodup_singleton i, fun x hx y hy hxy => ?_⟩
  rw [hxy, mem_singleton.1 hy] at hx
  exact hnot hx

theorem lt_length (hi : a.calls[i]? = some c) : i < a.calls.length :=
  (List.getElem?_eq_some_iff.1 hi).1

theorem before_succ (h : a.calls[i]? = some c) :
    a.before E db (i + 1) = (c.call.serial E (a.before E db i)).1 := by
  unfold before
  rw [take_add_one, getElem?_map, h]
  exact rowsAfter_append

theorem stageOf_eq (h : a.stageOf i = some stage) : ∃ c, a.calls[i]? = some c ∧ c.stage = stage :=
  Option.map_eq_some_iff.1 h

variable {state : Db}

/-- What a state covers, it covers still once a call has gone on, unless this changes something. -/
theorem Covers.setStage (h : a.Covers E db state k)
    (hanswer : ∀ answer, stage = .answered answer → answer ≠ .writeFailed → k ≤ i →
      a.before E db (i + 1) = a.before E db i) :
    (a.setStage i stage).Covers E db state k := by
  obtain ⟨hk, hstate, hanswered⟩ := h
  refine ⟨by rw [length_setStage]; exact hk, by rw [before_setStage]; exact hstate,
    fun j c answer hj hc hstage hne => ?_⟩
  rw [before_setStage, before_setStage]
  rcases setStage_cases hc with ⟨rfl, heq, -⟩ | ⟨-, hc⟩
  · exact hanswer answer (heq.symm.trans hstage) hne hj
  · exact hanswered j c answer hj hc hstage hne

/-! ### A call is made -/

section

variable {call : SqlCall Stmt Query Rows Result}

theorem start_calls (a : IndexedDbSqlAdapter Db Stmt Query Rows Result)
    (call : SqlCall Stmt Query Rows Result) :
    ∃ stage, (a.start E call).calls = a.calls ++ [⟨call, stage⟩] := by
  cases call with
  | _ => exact ⟨_, rfl⟩

theorem before_start (h : k ≤ a.calls.length) :
    (a.start E call).before E db k = a.before E db k := by
  obtain ⟨stage, hcalls⟩ := start_calls (E := E) a call
  unfold before
  rw [hcalls, map_append, take_append_of_le_length (by simpa using h)]

theorem before_start_last : (a.start E call).before E db (a.calls.length + 1) =
    (call.serial E (a.before E db a.calls.length)).1 := by
  obtain ⟨stage, hcalls⟩ := start_calls (E := E) a call
  have hlast : (a.start E call).calls[a.calls.length]? = some ⟨call, stage⟩ := by
    rw [hcalls, getElem?_append_right (Nat.le_refl _)]
    simp
  rw [before_succ hlast, before_start (Nat.le_refl _)]

theorem start_cases (h : (a.start E call).calls[j]? = some c) :
    (j = a.calls.length ∧ c.call = call ∧ (a.start E call).calls = a.calls ++ [c]) ∨
      (j < a.calls.length ∧ a.calls[j]? = some c) := by
  obtain ⟨stage, hcalls⟩ := start_calls (E := E) a call
  rw [hcalls] at h
  by_cases hj : j < a.calls.length
  · rw [getElem?_append_left hj] at h
    exact .inr ⟨hj, h⟩
  · rw [getElem?_append_right (Nat.not_lt.1 hj)] at h
    have hzero : j - a.calls.length = 0 := by
      by_contra hne
      obtain ⟨n, hn⟩ := Nat.exists_eq_succ_of_ne_zero hne
      rw [hn] at h
      cases h
    rw [hzero] at h
    cases h
    exact .inl ⟨by omega, rfl, hcalls⟩

end

/-! ### What holds of all acts -/

theorem Ok.depth_of_underWay (h : Ok E db a) (hc : a.calls[i]? = some c)
    (hunder : c.stage.underWay = true) : a.transactionDepth = 1 := by
  have hstage := h.stages i c hc
  cases hst : c.stage with
  | executed | persisting | answered => rw [hst] at hunder; cases hunder
  | _ =>
    rw [hst] at hstage
    obtain ⟨-, -, -, hdepth, -⟩ := hstage
    exact hdepth

/-- Without a transaction no depth is counted, and with one there is. -/
theorem Ok.idle_iff (h : Ok E db a) : a.Idle ↔ a.transactionDepth = 0 := by
  refine ⟨fun hidle => (h.idle hidle).1, fun hdepth c hc => ?_⟩
  obtain ⟨i, hi⟩ := mem_iff_getElem?.1 hc
  refine Bool.eq_false_iff.2 fun hunder => ?_
  rw [h.depth_of_underWay hi hunder] at hdepth
  cases hdepth

variable {a' : IndexedDbSqlAdapter Db Stmt Query Rows Result}
  {call : SqlCall Stmt Query Rows Result}

/-- What is known of a call stays, where the rows stay as far as it needs them, and its write is
still to be made. -/
theorem StageOk.keep (h : StageOk E db a i call stage)
    (hbefore : a'.before E db i = a.before E db i)
    (hunder : stage.underWay = true → a'.memory = a.memory ∧
      a'.transactionDepth = a.transactionDepth ∧ a'.transactionDirty = a.transactionDirty)
    (hdepth : stage = .executed → a'.transactionDepth = 0)
    (hqueue : ∀ answer, stage = .persisting answer → i ∈ a.writeQueue → i ∈ a'.writeQueue) :
    StageOk E db a' i call stage := by
  cases stage with
  | executed => exact ⟨h.1, hdepth rfl⟩
  | working isOuter previousDirty snapshot work =>
    obtain ⟨hmemory, hdepth', hdirty⟩ := hunder rfl
    unfold StageOk at h ⊢
    rw [hmemory, hdepth', hdirty, hbefore]
    exact h
  | persisting answer =>
    refine ⟨?_, hqueue answer rfl h.2⟩
    rw [hbefore]
    exact h.1
  | answered answer =>
    unfold StageOk at h ⊢
    rw [hbefore]
    exact h
  | _ =>
    obtain ⟨hmemory, hdepth', -⟩ := hunder rfl
    unfold StageOk at h ⊢
    rw [hmemory, hdepth', hbefore]
    exact h

/-- The same calls, in another state. -/
structure SameCalls (a a' : IndexedDbSqlAdapter Db Stmt Query Rows Result) : Prop where
  calls : a'.calls = a.calls

theorem SameCalls.before (h : SameCalls a a') : a'.before E db k = a.before E db k := by
  unfold IndexedDbSqlAdapter.before
  rw [h.calls]

theorem SameCalls.covers (h : SameCalls a a') (hcovers : a.Covers E db state k) :
    a'.Covers E db state k := by
  obtain ⟨hk, hstate, hanswered⟩ := hcovers
  refine ⟨h.calls ▸ hk, hstate.trans h.before.symm, fun j c answer hj hc => ?_⟩
  rw [h.before, h.before]
  exact hanswered j c answer hj (h.calls ▸ hc)

variable {b : IndexedDbSqlAdapter Db Stmt Query Rows Result}

/-- A call goes on, and other things change. -/
theorem Ok.setStage (h : Ok E db a) (hsame : SameCalls a b) (hi : a.calls[i]? = some c)
    (hself : StageOk E db (b.setStage i stage) i c.call stage)
    (hothers : ∀ j c', j ≠ i → a.calls[j]? = some c' →
      StageOk E db (b.setStage i stage) j c'.call c'.stage)
    (hunder : stage.underWay = true → i + 1 = a.calls.length)
    (hidle : (∀ j c', j ≠ i → a.calls[j]? = some c' → c'.stage.underWay = false) →
      stage.underWay = false → b.transactionDepth = 0 ∧ b.transactionDirty = false ∧
      b.memory = a.before E db a.calls.length)
    (hstored : ∃ k, (b.setStage i stage).Covers E db b.stored k)
    (hwriting : ∀ (j : ℕ) (state : Db), b.writing = some (j, state) →
      ∃ k, j < k ∧ (b.setStage i stage).Covers E db state k)
    (hpending : ∀ j ∈ b.writeQueue,
      (j = i ∧ ∃ answer, stage = .persisting answer) ∨ (j ≠ i ∧ j ∈ a.writeQueue))
    (honce : b.writeQueue.Nodup) :
    Ok E db (b.setStage i stage) := by
  have hlength : (b.setStage i stage).calls.length = a.calls.length := by
    rw [length_setStage, hsame.calls]
  have hcases : ∀ {j : ℕ} {c' : SqlCallState Db Stmt Query Rows Result},
      (b.setStage i stage).calls[j]? = some c' →
      (j = i ∧ c'.stage = stage ∧ c'.call = c.call) ∨ (j ≠ i ∧ a.calls[j]? = some c') := by
    intro j c' hc'
    rcases setStage_cases hc' with ⟨rfl, hstage, c₀, hc₀, hcall⟩ | ⟨hne, hc'⟩
    · rw [hsame.calls, hi] at hc₀
      cases hc₀
      exact .inl ⟨rfl, hstage, hcall⟩
    · exact .inr ⟨hne, hsame.calls ▸ hc'⟩
  refine ⟨fun j c' hc' => ?_, fun j c' hc' hun => ?_, fun hall => ?_, hstored, hwriting,
    fun j hj => ?_, honce⟩
  · rcases hcases hc' with ⟨rfl, hstage, hcall⟩ | ⟨hne, hc'⟩
    · rw [hstage, hcall]
      exact hself
    · exact hothers j c' hne hc'
  · rw [hlength]
    rcases hcases hc' with ⟨rfl, hstage, -⟩ | ⟨-, hc'⟩
    · exact hunder (hstage ▸ hun)
    · exact h.last j c' hc' hun
  · have hnot : stage.underWay = false := by
      have hmem : ({ c with stage } : SqlCallState Db Stmt Query Rows Result) ∈
          (b.setStage i stage).calls := by
        refine mem_of_getElem? (i := i) ?_
        rw [getElem?_setStage, if_pos rfl, hsame.calls, hi]
        rfl
      exact hall _ hmem
    have hrest : ∀ j c', j ≠ i → a.calls[j]? = some c' → c'.stage.underWay = false := by
      intro j c' hne hj
      refine hall c' (mem_of_getElem? (i := j) ?_)
      rw [getElem?_setStage, if_neg fun heq => hne heq.symm, hsame.calls]
      exact hj
    obtain ⟨hdepth, hdirty, hmemory⟩ := hidle hrest hnot
    refine ⟨hdepth, hdirty, ?_⟩
    rw [hlength, before_setStage, hsame.before]
    exact hmemory
  · rcases hpending j hj with ⟨rfl, answer, rfl⟩ | ⟨hne, hj⟩
    · refine ⟨{ c with stage := .persisting answer }, answer, ?_, rfl⟩
      rw [getElem?_setStage, if_pos rfl, hsame.calls, hi]
      rfl
    · obtain ⟨c', answer, hc', hstage⟩ := h.pending j hj
      refine ⟨c', answer, ?_, hstage⟩
      rw [getElem?_setStage, if_neg fun heq => hne heq.symm, hsame.calls]
      exact hc'

theorem ok_start (h : Ok E db a) (hidle : a.Idle)
    (hnone : ∀ work, call = .transaction work → ∀ c ∈ a.calls, c.stage ≠ .executed) :
    Ok E db (a.start E call) := by
  obtain ⟨hdepth, hdirty, hmemory⟩ := h.idle hidle
  have hlength : (a.start E call).calls.length = a.calls.length + 1 := by
    obtain ⟨stage, hcalls⟩ := start_calls (E := E) a call
    rw [hcalls, length_append, length_singleton]
  -- What has been covered is covered still.
  have hcovers : ∀ {state : Db} {k : ℕ}, a.Covers E db state k →
      (a.start E call).Covers E db state k := by
    rintro state k ⟨hk, hstate, hanswered⟩
    refine ⟨hlength ▸ Nat.le_succ_of_le hk, by rw [before_start hk]; exact hstate,
      fun j c answer hj hc hstage hne => ?_⟩
    rcases start_cases hc with ⟨rfl, -, hcalls⟩ | ⟨hlt, hc⟩
    · have hquery : ∃ q, call = .query q := by
        cases call with
        | query q => exact ⟨q, rfl⟩
        | _ =>
          obtain rfl := (cons.inj (append_cancel_left hcalls)).1
          cases hstage
      obtain ⟨q, rfl⟩ := hquery
      rw [before_start_last, before_start (Nat.le_refl _)]
      rfl
    · rw [before_start hlt, before_start (Nat.le_of_lt hlt)]
      exact hanswered j c answer hj hc hstage hne
  have hwrites : (a.start E call).writeQueue = a.writeQueue ∧
      (a.start E call).writing = a.writing ∧ (a.start E call).stored = a.stored := by
    cases call <;> exact ⟨rfl, rfl, rfl⟩
  obtain ⟨hqueue, hwriting, hstored⟩ := hwrites
  refine ⟨fun j c hc => ?_, fun j c hc hunder => ?_, fun hall => ?_, ?_, ?_,
    fun j hj => ?_, hqueue ▸ h.once⟩
  · rcases start_cases hc with ⟨rfl, hcall, hcalls⟩ | ⟨hlt, hc⟩
    · cases call with
      | execute stmt =>
        obtain rfl := (cons.inj (append_cancel_left hcalls)).1
        exact ⟨⟨stmt, rfl⟩, hdepth⟩
      | query q =>
        obtain rfl := (cons.inj (append_cancel_left hcalls)).1
        refine .inr ?_
        rw [before_start (Nat.le_refl _), ← hmemory]
        rfl
      | transaction work =>
        obtain rfl := (cons.inj (append_cancel_left hcalls)).1
        refine ⟨work, rfl, decide_eq_true hdepth, by rw [start, hdepth], ?_, rfl, fun _ => rfl⟩
        rw [before_start (Nat.le_refl _)]
        exact hmemory
    · have hmem : c ∈ a.calls := mem_of_getElem? hc
      have hnot : c.stage.underWay = false := hidle c hmem
      refine (h.stages j c hc).keep (before_start (Nat.le_of_lt hlt)) (fun hunder => ?_)
        (fun hexecuted => ?_) fun answer _ hwrite => ?_
      · rw [hnot] at hunder
        cases hunder
      · cases call with
        | execute | query => exact hdepth
        | transaction work => exact absurd hexecuted (hnone work rfl c hmem)
      · exact hqueue ▸ hwrite
  · rw [hlength]
    rcases start_cases hc with ⟨rfl, -⟩ | ⟨hlt, hc⟩
    · rfl
    · rw [hidle c (mem_of_getElem? hc)] at hunder
      cases hunder
  · rw [hlength, before_start_last, ← hmemory]
    cases call with
    | transaction work =>
      have hlast := hall ⟨.transaction work, _⟩ (mem_append_right _ (.head _))
      cases hlast
    | _ => exact ⟨hdepth, hdirty, rfl⟩
  · obtain ⟨k, hk⟩ := h.stored
    exact ⟨k, hstored ▸ hcovers hk⟩
  · intro j state hj
    obtain ⟨k, hlt, hk⟩ := h.writing j state (hwriting ▸ hj)
    exact ⟨k, hlt, hcovers hk⟩
  · rw [hqueue] at hj
    obtain ⟨c, answer, hc, hstage⟩ := h.pending j hj
    obtain ⟨stage, hcalls⟩ := start_calls (E := E) a call
    refine ⟨c, answer, ?_, hstage⟩
    rw [hcalls, getElem?_append_left (lt_length hc)]
    exact hc

/-! ### A call goes on -/

theorem Ok.not_pending (h : Ok E db a) (hi : a.calls[i]? = some c)
    (hstage : ∀ answer, c.stage ≠ .persisting answer) : i ∉ a.writeQueue := by
  intro hmem
  obtain ⟨c', answer, hc', hpersisting⟩ := h.pending i hmem
  rw [hi] at hc'
  cases hc'
  exact hstage answer hpersisting

theorem Ok.of_stageOf (h : Ok E db a) (hst : a.stageOf i = some stage) :
    ∃ c, a.calls[i]? = some c ∧ c.stage = stage ∧ StageOk E db a i c.call stage := by
  obtain ⟨c, hi, rfl⟩ := stageOf_eq hst
  exact ⟨c, hi, rfl, h.stages i c hi⟩

variable {c' : SqlCallState Db Stmt Query Rows Result}

/-- Of the calls other than one that is under way, none is. -/
theorem Ok.not_underWay (h : Ok E db a) (hi : a.calls[i]? = some c)
    (hunder : c.stage.underWay = true) (hne : j ≠ i) (hj : a.calls[j]? = some c') :
    c'.stage.underWay = false := by
  refine Bool.eq_false_iff.2 fun hunder' => hne ?_
  have hlast := h.last i c hi hunder
  have hlast' := h.last j c' hj hunder'
  omega

/-- Beside a transaction that is under way no statement has yet to come to `persist`. -/
theorem Ok.not_executed (h : Ok E db a) (hi : a.calls[i]? = some c)
    (hunder : c.stage.underWay = true) (hj : a.calls[j]? = some c') : c'.stage ≠ .executed := by
  intro hexecuted
  have hstage := h.stages j c' hj
  rw [hexecuted] at hstage
  have hdepth := h.depth_of_underWay hi hunder
  rw [hstage.2] at hdepth
  cases hdepth

/-- The transaction that is under way goes on. -/
theorem Ok.transaction (h : Ok E db a) (hsame : SameCalls a b) (hi : a.calls[i]? = some c)
    (hunder : c.stage.underWay = true) (hself : StageOk E db (b.setStage i stage) i c.call stage)
    (hidle : stage.underWay = false → b.transactionDepth = 0 ∧ b.transactionDirty = false ∧
      b.memory = a.before E db (i + 1))
    (hunchanged : ∀ answer, stage = .answered answer → a.before E db (i + 1) = a.before E db i)
    (hqueue : b.writeQueue = a.writeQueue ∨ b.writeQueue = a.writeQueue ++ [i] ∧
      ∃ answer, stage = .persisting answer) (hwriting : b.writing = a.writing)
    (hstored : b.stored = a.stored) : Ok E db (b.setStage i stage) := by
  have hlast := h.last i c hi hunder
  have hnot : i ∉ a.writeQueue := h.not_pending hi fun answer hstage => by
    rw [hstage] at hunder
    cases hunder
  have hcovers : ∀ {state : Db} {k : ℕ}, a.Covers E db state k →
      (b.setStage i stage).Covers E db state k := by
    intro state k hk
    refine (hsame.covers hk).setStage fun answer hanswer _ _ => ?_
    rw [hsame.before, hsame.before]
    exact hunchanged answer hanswer
  refine h.setStage hsame hi hself (fun j c' hne hj => ?_) (fun _ => hlast)
    (fun _ hnot => ?_) ?_ ?_ (fun j hj => ?_) ?_
  · refine (h.stages j c' hj).keep (by rw [before_setStage, hsame.before])
      (fun hunder' => ?_) (fun hexecuted => ?_) fun answer _ hwrite => ?_
    · rw [h.not_underWay hi hunder hne hj] at hunder'
      cases hunder'
    · exact absurd hexecuted (h.not_executed hi hunder hj)
    · rcases hqueue with heq | ⟨heq, -⟩
      · exact heq ▸ hwrite
      · exact heq ▸ mem_append_left _ hwrite
  · rw [← hlast]
    exact hidle hnot
  · obtain ⟨k, hk⟩ := h.stored
    exact ⟨k, hstored ▸ hcovers hk⟩
  · intro j state hj
    obtain ⟨k, hlt, hk⟩ := h.writing j state (hwriting ▸ hj)
    exact ⟨k, hlt, hcovers hk⟩
  · rcases hqueue with heq | ⟨heq, hpersisting⟩
    · rw [heq] at hj
      exact .inr ⟨fun heq => hnot (heq ▸ hj), hj⟩
    · rw [heq] at hj
      rcases mem_append.1 hj with hj | hj
      · exact .inr ⟨fun heq => hnot (heq ▸ hj), hj⟩
      · exact .inl ⟨mem_singleton.1 hj, hpersisting⟩
  · rcases hqueue with heq | ⟨heq, -⟩
    · exact heq ▸ h.once
    · rw [heq]
      exact nodup_concat h.once hnot

theorem writeQueue_wait (hwriting : a'.writing = a.writing)
    (hwaiting : a'.waiting = a.waiting ++ [i]) :
    a'.writeQueue = a.writeQueue ++ [i] := by
  unfold writeQueue
  rw [hwriting, hwaiting, append_assoc]

variable {answer : SqlAnswer Rows Result}

theorem persist_eq (h : a.rejected = false) :
    a.persist i answer =
      { a with waiting := a.waiting ++ [i] }.setStage i (.persisting answer) := by
  unfold persist
  rw [h]
  rfl

theorem ok_executed (h : Ok E db a) (hi : a.calls[i]? = some c) (hstage : c.stage = .executed)
    (hrejected : a.rejected = false) : Ok E db (a.persist i .executed) := by
  have hc := h.stages i c hi
  rw [hstage] at hc
  obtain ⟨⟨stmt, hcall⟩, hdepth⟩ := hc
  have hidle := h.idle_iff.2 hdepth
  have hnot : i ∉ a.writeQueue := h.not_pending hi fun answer hpersisting => by
    rw [hpersisting] at hstage
    cases hstage
  have hqueue : ({ a with waiting := a.waiting ++ [i] } :
      IndexedDbSqlAdapter Db Stmt Query Rows Result).writeQueue = a.writeQueue ++ [i] :=
    writeQueue_wait rfl rfl
  have hcovers : ∀ {state : Db} {k : ℕ}, a.Covers E db state k →
      ({ a with waiting := a.waiting ++ [i] }.setStage i (.persisting .executed)).Covers E db
        state k := by
    intro state k hk
    have hsame : SameCalls a { a with waiting := a.waiting ++ [i] } := ⟨rfl⟩
    exact (hsame.covers hk).setStage fun answer hanswer => by cases hanswer
  rw [persist_eq hrejected]
  refine h.setStage (b := { a with waiting := a.waiting ++ [i] }) ⟨rfl⟩ hi ?_
    (fun j c' hne hj => ?_) (fun hunder => ?_) (fun _ _ => h.idle hidle) ?_ ?_
    (fun j hj => ?_) ?_
  · refine ⟨?_, hqueue ▸ mem_append_right _ (.head _)⟩
    rw [hcall]
    rfl
  · refine (h.stages j c' hj).keep (by rw [before_setStage]; rfl) (fun _ => ⟨rfl, rfl, rfl⟩)
      (fun _ => hdepth) fun answer _ hwrite => ?_
    exact hqueue ▸ mem_append_left _ hwrite
  · cases hunder
  · obtain ⟨k, hk⟩ := h.stored
    exact ⟨k, hcovers hk⟩
  · intro j state hj
    obtain ⟨k, hlt, hk⟩ := h.writing j state hj
    exact ⟨k, hlt, hcovers hk⟩
  · rw [hqueue] at hj
    rcases mem_append.1 hj with hj | hj
    · exact .inr ⟨fun heq => hnot (heq ▸ hj), hj⟩
    · exact .inl ⟨mem_singleton.1 hj, _, rfl⟩
  · rw [hqueue]
    exact nodup_concat h.once hnot

theorem ok_commit {isOuter previousDirty : Bool} {snapshot : Db} {result : Result} (h : Ok E db a)
    (hi : a.calls[i]? = some c)
    (hstage : c.stage = .working isOuter previousDirty snapshot (.returns result))
    (hrejected : a.rejected = true → a.transactionDirty = false) :
    Ok E db (a.commit i isOuter result) := by
  have hunder : c.stage.underWay = true := by rw [hstage]; rfl
  have hc := h.stages i c hi
  rw [hstage] at hc
  obtain ⟨work₀, hcall, rfl, hdepth, rfl, hrun, hclean⟩ := hc
  have hserial : c.call.serial E (a.before E db i) = (a.memory, .committed result) := by
    rw [hcall]
    exact serial_returns hrun.symm
  have hbefore : a.before E db (i + 1) = a.memory := by rw [before_succ hi, hserial]
  unfold commit
  simp only [if_true]
  split
  · rename_i hdirty
    have hopen : a.rejected = false := by
      refine Bool.eq_false_iff.2 fun hreject => ?_
      rw [hrejected hreject] at hdirty
      cases hdirty
    rw [persist_eq (a := { a with
      transactionDepth := a.transactionDepth - 1, transactionDirty := false }) hopen]
    refine h.transaction (b := { a with
        transactionDepth := a.transactionDepth - 1
        transactionDirty := false
        waiting := a.waiting ++ [i] }) ⟨rfl⟩ hi hunder ?_ (fun _ => ?_) (fun answer hanswer => ?_)
      (.inr ⟨writeQueue_wait rfl rfl, _, rfl⟩) rfl rfl
    · refine ⟨?_, mem_append_right _ (mem_append_right _ (.head _))⟩
      rw [before_setStage]
      show _ = (c.call.serial E (a.before E db i)).2
      rw [hserial]
    · exact ⟨by rw [hdepth], rfl, hbefore.symm⟩
    · cases hanswer
  · rename_i hdirty
    have hsnapshot := hclean (Bool.eq_false_iff.2 hdirty)
    refine h.transaction (b := { a with
        transactionDepth := a.transactionDepth - 1
        transactionDirty := false }) ⟨rfl⟩ hi hunder (.inr ?_) (fun _ => ?_) (fun _ _ => ?_)
      (.inl rfl) rfl rfl
    · rw [before_setStage]
      show _ = (c.call.serial E (a.before E db i)).2
      rw [hserial]
    · exact ⟨by rw [hdepth], rfl, hbefore.symm⟩
    · rw [hbefore, hsnapshot]

theorem ok_resume (h : Ok E db a) (hG : (SqlAct.resume i).Apart a) (hact : a.resume E i = some a') :
    Ok E db a' := by
  unfold resume at hact
  split at hact
  · rename_i hst
    obtain ⟨c, hi, hstage, -, hdepth⟩ := h.of_stageOf hst
    cases hact
    rw [if_neg (by rw [hdepth]; exact Nat.lt_irrefl 0)]
    refine ok_executed h hi hstage (Bool.eq_false_iff.2 fun hrejected => ?_)
    exact (hG _ hst hrejected).1 rfl
  · rename_i isOuter previousDirty snapshot stmt next hst
    obtain ⟨c, hi, hstage, work₀, hcall, houter, hdepth, hsnapshot, hrun, -⟩ := h.of_stageOf hst
    cases hact
    refine h.transaction (b := { a with memory := E.execute stmt a.memory }) ⟨rfl⟩ hi
      (by rw [hstage]; rfl) ⟨work₀, hcall, houter, hdepth, ?_, hrun⟩ (fun hnot => by cases hnot)
      (fun _ hanswer => by cases hanswer) (.inl rfl) rfl rfl
    rw [before_setStage]
    exact hsnapshot
  · rename_i isOuter previousDirty snapshot q next hst
    obtain ⟨c, hi, hstage, work₀, hcall, houter, hdepth, hsnapshot, hrun, hclean⟩ :=
      h.of_stageOf hst
    cases hact
    refine h.transaction (b := a) ⟨rfl⟩ hi (by rw [hstage]; rfl)
      ⟨work₀, hcall, houter, hdepth, ?_, hrun, hclean⟩ (fun hnot => by cases hnot)
      (fun _ hanswer => by cases hanswer) (.inl rfl) rfl rfl
    rw [before_setStage]
    exact hsnapshot
  · rename_i isOuter previousDirty snapshot result hst
    obtain ⟨c, hi, hstage⟩ := stageOf_eq hst
    cases hact
    exact ok_commit h hi hstage fun hrejected => (hG _ hst hrejected).2 _ _ _ _ rfl
  · rename_i isOuter previousDirty snapshot hst
    obtain ⟨c, hi, hstage, work₀, hcall, houter, hdepth, rfl, hrun, -⟩ := h.of_stageOf hst
    cases hact
    refine h.transaction (b := { a with memory := a.before E db i }) ⟨rfl⟩ hi
      (by rw [hstage]; rfl) ⟨work₀, hcall, houter, hdepth, ?_, ?_⟩ (fun hnot => by cases hnot)
      (fun _ hanswer => by cases hanswer) (.inl rfl) rfl rfl
    · rw [before_setStage]
      rfl
    · rw [before_setStage]
      exact (congrArg Prod.snd hrun).symm
  · rename_i isOuter previousDirty snapshot next hst
    obtain ⟨c, hi, hstage, work₀, hcall, houter, hdepth, hsnapshot, hrun⟩ := h.of_stageOf hst
    cases hact
    rw [if_pos (by rw [hdepth]; exact Nat.one_pos)]
    refine h.transaction (b := { a with transactionDirty := true }) ⟨rfl⟩ hi
      (by rw [hstage]; rfl) ⟨work₀, hcall, houter, hdepth, ?_, hrun, fun hdirty => by cases hdirty⟩
      (fun hnot => by cases hnot) (fun _ hanswer => by cases hanswer) (.inl rfl) rfl rfl
    rw [before_setStage]
    exact hsnapshot
  · rename_i isOuter previousDirty hst
    obtain ⟨c, hi, hstage, work₀, hcall, rfl, hdepth, hmemory, hthrows⟩ := h.of_stageOf hst
    cases hact
    have hserial : c.call.serial E (a.before E db i) = (a.before E db i, .rolledBack) := by
      rw [hcall]
      exact serial_throws hthrows
    have hbefore : a.before E db (i + 1) = a.before E db i := by rw [before_succ hi, hserial]
    refine h.transaction (b := { a with
        transactionDirty := false, transactionDepth := a.transactionDepth - 1 }) ⟨rfl⟩ hi
      (by rw [hstage]; rfl) (.inr ?_) (fun _ => ?_) (fun _ _ => hbefore) (.inl rfl) rfl rfl
    · rw [before_setStage]
      show _ = (c.call.serial E (a.before E db i)).2
      rw [hserial]
    · exact ⟨by rw [hdepth], rfl, hmemory.trans hbefore.symm⟩
  · cases hact

/-! ### Writes -/

theorem ok_beginWrite {waiting : List ℕ} (h : Ok E db a) (hidle : a.Idle)
    (hwriting : a.writing = none) (hwaiting : a.waiting = i :: waiting) :
    Ok E db { a with waiting, writing := some (i, a.memory) } := by
  obtain ⟨hdepth, hdirty, hmemory⟩ := h.idle hidle
  have hsame : SameCalls a { a with waiting, writing := some (i, a.memory) } := ⟨rfl⟩
  have hqueue : ({ a with waiting, writing := some (i, a.memory) } :
      IndexedDbSqlAdapter Db Stmt Query Rows Result).writeQueue = a.writeQueue := by
    unfold writeQueue
    rw [hwriting, hwaiting]
    rfl
  refine ⟨fun j c hj => ?_, h.last, fun _ => ⟨hdepth, hdirty, hmemory⟩, ?_, ?_,
    hqueue ▸ h.pending, hqueue ▸ h.once⟩
  · exact (h.stages j c hj).keep rfl (fun _ => ⟨rfl, rfl, rfl⟩) (fun _ => hdepth)
      fun _ _ hwrite => hqueue ▸ hwrite
  · obtain ⟨k, hk⟩ := h.stored
    exact ⟨k, hsame.covers hk⟩
  · intro j state hj
    cases Option.some.inj hj
    have hmem : i ∈ a.writeQueue := by
      unfold writeQueue
      rw [hwaiting]
      exact mem_append_right _ (.head _)
    obtain ⟨c, answer, hi, -⟩ := h.pending i hmem
    refine ⟨a.calls.length, lt_length hi, Nat.le_refl _, hmemory, fun j c answer hj hc => ?_⟩
    exact absurd (lt_length hc) (Nat.not_lt.2 hj)

/-- A write is over, and its call is answered. -/
theorem ok_written {stored : Db} {rejected : Bool} (h : Ok E db a)
    (hwriting : a.writing = some (i, state)) (hi : a.calls[i]? = some c)
    (hunder : c.stage.underWay = false)
    (hanswer : answer = .writeFailed ∧ stored = a.stored ∨
      answer = (c.call.serial E (a.before E db i)).2 ∧ stored = state) :
    Ok E db ({ a with writing := none, rejected, stored }.setStage i (.answered answer)) := by
  have hsame : SameCalls a { a with writing := none, rejected, stored } := ⟨rfl⟩
  have hqueue : a.writeQueue = i :: a.waiting := by
    unfold writeQueue
    rw [hwriting]
    rfl
  have honce := h.once
  rw [hqueue] at honce
  obtain ⟨hnot, hnodup⟩ := nodup_cons.1 honce
  refine h.setStage hsame hi ?_ (fun j c' hne hj => ?_) (fun hunder' => ?_)
    (fun hrest _ => h.idle fun c' hc' => ?_) ?_ ?_ (fun j hj => ?_) ?_
  · unfold StageOk
    rw [before_setStage]
    exact hanswer.imp And.left And.left
  · refine (h.stages j c' hj).keep (by rw [before_setStage]; rfl) (fun _ => ⟨rfl, rfl, rfl⟩)
      (fun hexecuted => ?_) fun answer' _ hwrite => ?_
    · have hstage := h.stages j c' hj
      rw [hexecuted] at hstage
      exact hstage.2
    · rw [hqueue] at hwrite
      rcases mem_cons.1 hwrite with rfl | hmem
      · exact absurd rfl hne
      · exact hmem
  · cases hunder'
  · obtain ⟨j, hj⟩ := mem_iff_getElem?.1 hc'
    by_cases hne : j = i
    · rw [hne, hi] at hj
      cases hj
      exact hunder
    · exact hrest j c' hne hj
  · rcases hanswer with ⟨rfl, rfl⟩ | ⟨-, rfl⟩
    · obtain ⟨k, hk⟩ := h.stored
      refine ⟨k, (hsame.covers hk).setStage fun answer' heq hne => ?_⟩
      exact absurd (SqlStage.answered.inj heq).symm hne
    · obtain ⟨k, hlt, hk⟩ := h.writing i stored hwriting
      refine ⟨k, (hsame.covers hk).setStage fun _ _ _ hle => ?_⟩
      omega
  · intro j state' hj
    cases hj
  · have hmem : j ∈ a.waiting := hj
    exact .inr ⟨fun heq => hnot (heq ▸ hmem), hqueue ▸ .tail _ hmem⟩
  · exact hnodup

theorem answerOf_eq (hi : a.calls[i]? = some c) (hstage : c.stage = .persisting answer) :
    a.answerOf i = answer := by
  unfold answerOf stageOf
  rw [hi]
  simp only [Option.map_some, hstage]

/-! ### All acts -/

theorem ok_act {act : SqlAct Stmt Query Rows Result} (h : Ok E db a) (hG : act.Apart a)
    (hact : a.act E act = some a') : Ok E db a' := by
  cases act with
  | call call =>
    cases hact
    exact ok_start h hG.1 hG.2
  | resume i => exact ok_resume h hG hact
  | beginWrite =>
    simp only [act] at hact
    split at hact
    · rename_i i waiting hwriting hwaiting
      cases hact
      exact ok_beginWrite h hG hwriting hwaiting
    · cases hact
  | writeDone =>
    simp only [act] at hact
    split at hact
    · rename_i i state hwriting
      cases hact
      obtain ⟨c, answer, hi, hstage⟩ := h.pending i (by simp [writeQueue, hwriting])
      have hc := h.stages i c hi
      rw [hstage] at hc
      refine ok_written h hwriting hi (by rw [hstage]; rfl) (.inr ⟨?_, rfl⟩)
      rw [answerOf_eq hi hstage]
      exact hc.1
    · cases hact
  | writeError =>
    simp only [act] at hact
    split at hact
    · rename_i i state hwriting
      have hwaiting : a.waiting = [] := hG
      rw [hwaiting] at hact
      cases hact
      obtain ⟨c, answer, hi, hstage⟩ := h.pending i (by simp [writeQueue, hwriting])
      have hok : Ok E db
          ({ a with writing := none, rejected := true, stored := a.stored }.setStage i
            (.answered .writeFailed)) :=
        ok_written h hwriting hi (by rw [hstage]; rfl) (.inl ⟨rfl, rfl⟩)
      rw [hwaiting] at hok
      exact hok
    · cases hact

theorem ok_restored : Ok E db (restored db : IndexedDbSqlAdapter Db Stmt Query Rows Result) := by
  refine ⟨?_, ?_, fun _ => ⟨rfl, rfl, rfl⟩, ⟨0, Nat.le_refl 0, rfl, ?_⟩, ?_, ?_, nodup_nil⟩
  · intro i c hc
    cases hc
  · intro i c hc
    cases hc
  · intro i c answer _ hc
    cases hc
  · intro i state hwriting
    cases hwriting
  · intro i hi
    cases hi

theorem Ok.asQueued (h : Ok E db a) : a.AsQueued E db := by
  refine ⟨fun i c answer hi hstage => ?_, fun hidle => (h.idle hidle).2.2, h.stored⟩
  have hc := h.stages i c hi
  rw [hstage] at hc
  exact hc

end IndexedDbSqlAdapter

/-! ## The two adapters -/

/-- **The two adapters agree**: the queued adapter runs its calls one after the other, in every
run; and so does the one on IndexedDB in every run in which transactions keep to themselves, and
nothing is written once a write has failed. -/
theorem adapters_agree {Db Stmt Query Rows Result : Type} (E : SqlEngine Db Stmt Query Rows)
    (db : Db) :
    (∀ a : IndexedDbSqlAdapter Db Stmt Query Rows Result,
      Reach (act E) (fun a act => act.Apart a) (.restored db) a →
      a.AsQueued E db) ∧
    (∀ a : WaSQLiteAdapter Db Stmt Query Rows Result,
      Reach (WaSQLiteAdapter.act E) (fun _ _ => True) (.opened db) a → a.AsQueued E db) := by
  refine ⟨fun a h => ?_, fun a h => WaSQLiteAdapter.asQueued h⟩
  have hok : IndexedDbSqlAdapter.Ok E db a :=
    h.invariant (fun _ _ _ h hG hact => ok_act h hG hact)
      ok_restored
  exact hok.asQueued

/-! ## A statement within a transaction -/

/-- Rows are numbers, and statements add one. -/
def sampleEngine : SqlEngine (List ℕ) ℕ Unit (List ℕ) := ⟨fun n db => n :: db, fun _ db => db⟩

/-- While a transaction is under way, another storage adds a row; then the transaction fails. -/
def executeWithin : List (SqlAct ℕ Unit (List ℕ) Unit) :=
  [.call (.transaction (.execute 1 .throws)), .resume 0, .call (.execute 2), .resume 1, .resume 0,
    .resume 0, .resume 0]

/-- The row is gone, although its call has been told that it was added. -/
theorem execute_undone :
    ¬ ∀ a : IndexedDbSqlAdapter (List ℕ) ℕ Unit (List ℕ) Unit,
      Reach (act sampleEngine) (fun _ _ => True) (.restored []) a →
      a.AsQueued sampleEngine [] := by
  intro h
  obtain ⟨a, ha⟩ : ∃ a, Machine.perform (act sampleEngine) executeWithin
      (.restored []) = some a := ⟨_, rfl⟩
  have hqueued := h a (.of_perform (fun _ _ => trivial) ha)
  cases ha
  have hidle := hqueued.rows fun c hc => by
    rcases mem_cons.1 hc with rfl | hc
    · rfl
    · rw [mem_singleton.1 hc]
      rfl
  cases hidle

end RedcodeIm.H5
