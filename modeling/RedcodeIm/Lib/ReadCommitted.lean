import RedcodeIm.Lib.RowLock

/-!
# Transactions under READ COMMITTED

A database whose clients run transactions statement by statement.  Every
statement sees the rows committed before it began, together with the writes of
its own transaction; it may take row locks, make writes, draw numbers from a
sequence, commit, or fail and roll the transaction back.  Locks are kept until the
transaction ends, and a statement whose locks conflict with those of another
transaction cannot be taken (it waits).

* `Program` — the statements of a system, and which locks guard its writes.
* `Program.State`, `Program.step`, `Program.run` — the machine, with any number of
  transactions in flight and executable on a list of actions.
* `Program.Reach`, `Program.TracedReach` — the states of a run from a given state, and what the
  run has brought about outside the database.
* `Program.step_cases` — everything a step can do.
* `Program.serial`, `Program.solo_rule` — one transaction running alone.
-/

namespace ReadCommitted

open List

/-- What one statement of a transaction does. -/
inductive Outcome (Write Key Err Out Loc : Type) where
  /-- Go on, having taken locks, made writes and drawn sequence numbers. -/
  | next (loc : Loc) (locks : Locks Key) (writes : List Write) (drawn : ℕ)
  /-- Commit, and return a result to the caller. -/
  | commit (out : Out)
  /-- Return an error to the caller; the transaction is rolled back. -/
  | fail (err : Err)
  /-- Wait for another transaction to end. -/
  | wait

namespace Outcome

variable {Write Key Err Out Loc Loc' : Type}

end Outcome

/-- What a statement can see. -/
structure View (Db Key : Type) where
  /-- The committed rows overlaid with the transaction's own writes. -/
  db : Db
  /-- The next number of the sequence. -/
  seq : ℕ
  /-- `NOW()`: the time at which the transaction began. -/
  now : ℕ
  /-- Whether another transaction holds a lock on a row that conflicts with a mode. -/
  locked : Key → LockMode → Bool

/-- A system of transactions: one per request, each a sequence of statements over
the rows `Db`. -/
structure Program (Db Write Key Req Err Out : Type) (Loc : Req → Type) where
  /-- Where a request's transaction begins. -/
  start : (r : Req) → Loc r
  /-- The next statement of a request's transaction. -/
  stmt : View Db Key → (r : Req) → Loc r → Outcome Write Key Err Out (Loc r)
  /-- The effect of one write. -/
  apply : Db → Write → Db
  /-- The locks a write takes on the rows it touches. -/
  guards : Write → Locks Key
  /-- They are write locks. -/
  guards_isWrite : ∀ w, ∀ p ∈ guards w, p.2.isWrite = true

/-- The record of a transaction that has ended. -/
structure Finished (Write Req Err Out : Type) where
  req : Req
  /-- The transaction's `NOW()`. -/
  now : ℕ
  /-- The version of the database when the transaction began. -/
  born : ℕ
  /-- The version of the database after it ended. -/
  closed : ℕ
  result : Except Err Out
  writes : List Write

/-- What all transactions share. -/
structure World (Db Write Req Err Out : Type) where
  /-- The committed rows. -/
  db : Db
  /-- The versions that were committed before, oldest first. -/
  past : List Db
  /-- The next number of the sequence. -/
  seq : ℕ
  /-- The clock. -/
  now : ℕ
  /-- The transactions that have ended, oldest first. -/
  hist : List (Finished Write Req Err Out)

/-- The actions a run is made of. -/
inductive Action (Req : Type) where
  /-- A client sends a request and its transaction begins. -/
  | begin (req : Req)
  /-- The transaction runs its next statement. -/
  | stmt (i : ℕ)
  /-- The transaction is lost: a dropped connection, a crash, a deadlock victim. -/
  | abort (i : ℕ)
  /-- Time passes. -/
  | tick (n : ℕ)

namespace World

variable {Db Write Req Err Out : Type}

/-- The committed versions by number; the current one has number `past.length`. -/
def version (w : World Db Write Req Err Out) (n : ℕ) : Option Db := (w.past ++ [w.db])[n]?

variable (w : World Db Write Req Err Out)

@[simp] theorem version_length : w.version w.past.length = some w.db := by
  simp [version]

/-- A relation between earlier and later versions, by their numbers. -/
theorem rel_of_version {w : World Db Write Req Err Out} {r : Db → Db → Prop}
    (hrefl : ∀ db, r db db) (h : (w.past ++ [w.db]).Pairwise r) {n m : ℕ} (hnm : n ≤ m)
    {a b : Db} (ha : w.version n = some a) (hb : w.version m = some b) : r a b := by
  obtain ⟨hn, rfl⟩ := List.getElem?_eq_some_iff.1 ha
  obtain ⟨hm, rfl⟩ := List.getElem?_eq_some_iff.1 hb
  rcases Nat.lt_or_eq_of_le hnm with hlt | rfl
  · exact pairwise_iff_getElem.1 h n m hn hm hlt
  · exact hrefl _

/-- The world before anything has happened. -/
def init (db : Db) : World Db Write Req Err Out :=
  { db := db, past := [], seq := 1, now := 0, hist := [] }

/-- Numbers are drawn from the sequence, whether or not the transaction commits. -/
def draw (w : World Db Write Req Err Out) (n : ℕ) : World Db Write Req Err Out :=
  { w with seq := w.seq + n }

/-- Time passes. -/
def tick (w : World Db Write Req Err Out) (n : ℕ) : World Db Write Req Err Out :=
  { w with now := w.now + n }

variable (n : ℕ)

@[simp] theorem draw_zero : w.draw 0 = w := rfl

end World

namespace Program

variable {Db Write Key Req Err Out : Type} {Loc : Req → Type}

/-- A transaction in flight.  Whatever it has written it holds the locks for. -/
structure Tx (P : Program Db Write Key Req Err Out Loc) where
  req : Req
  /-- `NOW()`: the time at which it began. -/
  now : ℕ
  /-- The version of the database when it began. -/
  born : ℕ
  loc : Loc req
  locks : Locks Key
  writes : List Write
  covered : ∀ w ∈ writes, ∀ p ∈ P.guards w, p ∈ locks

variable (P : Program Db Write Key Req Err Out Loc)

/-- The effect of a list of writes. -/
def applyAll (db : Db) (ws : List Write) : Db := ws.foldl P.apply db

@[simp] theorem applyAll_nil (db : Db) : P.applyAll db [] = db := rfl

@[simp] theorem applyAll_cons (db : Db) (w : Write) (ws : List Write) :
    P.applyAll db (w :: ws) = P.applyAll (P.apply db w) ws := rfl

theorem applyAll_append (db : Db) (ws ws' : List Write) :
    P.applyAll db (ws ++ ws') = P.applyAll (P.applyAll db ws) ws' := by
  simp [applyAll]

/-- The world and the transactions in flight, each under the number it was begun with. -/
structure State extends World Db Write Req Err Out where
  txs : List (Option P.Tx)

namespace Tx

variable {P}

/-- The transaction of a request, begun at a given version and time. -/
def begin (r : Req) (born now : ℕ) : P.Tx where
  req := r
  now := now
  born := born
  loc := P.start r
  locks := []
  writes := []
  covered := by simp

/-- The transaction after a statement. -/
def advance (tx : P.Tx) (loc : Loc tx.req) (ls : Locks Key) (ws : List Write) : P.Tx :=
  { tx with
    loc := loc
    locks := tx.locks ++ ls ++ ws.flatMap P.guards
    writes := tx.writes ++ ws
    covered := by
      intro w hw p hp
      rcases mem_append.1 hw with h | h
      · exact mem_append_left _ (mem_append_left _ (tx.covered w h p hp))
      · exact mem_append_right _ (mem_flatMap.2 ⟨w, h, hp⟩) }

@[simp] theorem locks_advance (tx : P.Tx) (loc : Loc tx.req) (ls : Locks Key)
    (ws : List Write) : (tx.advance loc ls ws).locks = tx.locks ++ ls ++ ws.flatMap P.guards := rfl

/-- What the transaction's statements read: the committed rows and its own writes. -/
def see (tx : P.Tx) (db : Db) : Db := P.applyAll db tx.writes

/-- The transaction's record once it has ended with version `closed` current. -/
def finish (tx : P.Tx) (closed : ℕ) (result : Except Err Out) : Finished Write Req Err Out :=
  { req := tx.req, now := tx.now, born := tx.born, closed := closed, result := result,
    writes := tx.writes }

/-- The next statement of a transaction. -/
def stmt (tx : P.Tx) (w : World Db Write Req Err Out) (locked : Key → LockMode → Bool) :
    Outcome Write Key Err Out (Loc tx.req) :=
  P.stmt { db := tx.see w.db, seq := w.seq, now := tx.now, locked := locked } tx.req tx.loc

end Tx

/-- A transaction commits: its writes become the current version. -/
def commit (w : World Db Write Req Err Out) (tx : P.Tx) (out : Out) : World Db Write Req Err Out :=
  { w with
    db := tx.see w.db
    past := w.past ++ [w.db]
    hist := w.hist ++ [tx.finish (w.past.length + 1) (.ok out)] }

/-- A transaction fails: nothing is written. -/
def reject (w : World Db Write Req Err Out) (tx : P.Tx) (err : Err) : World Db Write Req Err Out :=
  { w with hist := w.hist ++ [tx.finish w.past.length (.error err)] }

@[simp] theorem db_commit (w : World Db Write Req Err Out) (tx : P.Tx) (out : Out) :
    (P.commit w tx out).db = tx.see w.db := rfl
@[simp] theorem past_commit (w : World Db Write Req Err Out) (tx : P.Tx) (out : Out) :
    (P.commit w tx out).past = w.past ++ [w.db] := rfl
@[simp] theorem hist_commit (w : World Db Write Req Err Out) (tx : P.Tx) (out : Out) :
    (P.commit w tx out).hist = w.hist ++ [tx.finish (w.past.length + 1) (.ok out)] := rfl
@[simp] theorem hist_reject (w : World Db Write Req Err Out) (tx : P.Tx) (err : Err) :
    (P.reject w tx err).hist = w.hist ++ [tx.finish w.past.length (.error err)] := rfl

variable {w : World Db Write Req Err Out}

/-- What is committed stays a version under its number. -/
theorem version_commit {n : ℕ} {db : Db} (h : w.version n = some db) (tx : P.Tx) (out : Out) :
    (P.commit w tx out).version n = some db := by
  obtain ⟨hn, -⟩ := List.getElem?_eq_some_iff.1 h
  simp only [World.version, past_commit]
  rw [getElem?_append_left hn]
  exact h

namespace State

variable {P}

/-- The transaction in flight under a number. -/
def tx (s : P.State) (i : ℕ) : Option P.Tx := (s.txs[i]?).join

/-- The transactions in flight other than number `i`. -/
def others (s : P.State) (i : ℕ) : List P.Tx :=
  ((range s.txs.length).filter fun j => decide (j ≠ i)).filterMap s.tx

variable {s : P.State} {i : ℕ}

theorem mem_others {u : P.Tx} : u ∈ s.others i ↔ ∃ j, j ≠ i ∧ s.tx j = some u := by
  simp only [others, mem_filterMap, mem_filter, mem_range, decide_eq_true_eq]
  constructor
  · rintro ⟨j, ⟨-, hj⟩, hu⟩
    exact ⟨j, hj, hu⟩
  · rintro ⟨j, hj, hu⟩
    refine ⟨j, ⟨?_, hj⟩, hu⟩
    by_contra hlen
    rw [tx, getElem?_eq_none (Nat.le_of_not_lt hlen)] at hu
    simp at hu

/-- The state in which nothing has happened. -/
def init (db : Db) : P.State := { World.init db with txs := [] }

@[simp] theorem tx_init (db : Db) (i : ℕ) : (init db : P.State).tx i = none := rfl

/-- Replace the world and one transaction. -/
def set (s : P.State) (w : World Db Write Req Err Out) (i : ℕ) (t : Option P.Tx) : P.State :=
  { w with txs := s.txs.set i t }

@[simp] theorem toWorld_set (s : P.State) (w : World Db Write Req Err Out) (i : ℕ)
    (t : Option P.Tx) : (s.set w i t).toWorld = w := rfl

theorem tx_set {old : P.Tx} (h : s.tx i = some old) (w : World Db Write Req Err Out)
    (t : Option P.Tx) (j : ℕ) :
    (s.set w i t).tx j = if j = i then t else s.tx j := by
  have hlen : i < s.txs.length := by
    by_contra hlen
    rw [tx, getElem?_eq_none (Nat.le_of_not_lt hlen)] at h
    simp at h
  simp only [tx, set, getElem?_set]
  by_cases hj : i = j
  · subst hj
    simp [hlen]
  · rw [if_neg hj, if_neg (Ne.symm hj)]

/-- A transaction that is alone has no others beside it. -/
theorem others_of_alone (h : ∀ j, j ≠ i → s.tx j = none) : s.others i = [] := by
  refine eq_nil_iff_forall_not_mem.2 fun u hu => ?_
  obtain ⟨j, hj, hu'⟩ := mem_others.1 hu
  simp [h j hj] at hu'

theorem alone_set {tx : P.Tx} (htx : s.tx i = some tx) (h : ∀ j, j ≠ i → s.tx j = none)
    (w : World Db Write Req Err Out) (t : Option P.Tx) :
    ∀ j, j ≠ i → (s.set w i t).tx j = none := by
  intro j hj
  rw [tx_set htx, if_neg hj, h j hj]

/-- Add a transaction under the next number. -/
def push (s : P.State) (t : P.Tx) : P.State := { s with txs := s.txs ++ [some t] }

theorem tx_of_length_le (h : s.txs.length ≤ i) : s.tx i = none := by
  rw [tx, getElem?_eq_none h]
  rfl

/-- No transaction is in flight when none is listed. -/
theorem tx_of_all_none (h : (s.txs.all fun t => t.isNone) = true) (i : ℕ) : s.tx i = none := by
  cases ht : s.txs[i]? with
  | none => simp [tx, ht]
  | some t =>
    have := all_eq_true.1 h t (mem_of_getElem? ht)
    simp [tx, ht, Option.isNone_iff_eq_none.1 this]

/-- When every transaction but the last has ended, the one in flight is the last. -/
theorem tx_of_dropLast_none (h : (s.txs.dropLast.all fun t => t.isNone) = true) {tx : P.Tx}
    (htx : s.tx i = some tx) : i = s.txs.length - 1 := by
  have hlen : i < s.txs.length := by
    by_contra hlen
    rw [tx_of_length_le (Nat.le_of_not_lt hlen)] at htx
    cases htx
  by_contra hne
  have hlt : i < s.txs.dropLast.length := by
    rw [length_dropLast]
    omega
  have := all_eq_true.1 h _ (getElem_mem hlt)
  rw [getElem_dropLast, Option.isNone_iff_eq_none] at this
  rw [State.tx, getElem?_eq_getElem hlen, this] at htx
  cases htx

theorem tx_push (s : P.State) (t : P.Tx) (j : ℕ) :
    (s.push t).tx j = if j = s.txs.length then some t else s.tx j := by
  simp only [tx, push]
  rcases Nat.lt_trichotomy j s.txs.length with hj | hj | hj
  · rw [getElem?_append_left hj, if_neg (by omega)]
  · simp [hj]
  · rw [getElem?_eq_none (by simp; omega), getElem?_eq_none (by omega), if_neg (by omega)]

/-- Let time pass. -/
def tick (s : P.State) (n : ℕ) : P.State := { s.toWorld.tick n with txs := s.txs }

@[simp] theorem tx_tick (s : P.State) (n i : ℕ) : (s.tick n).tx i = s.tx i := rfl

end State

variable {P} [DecidableEq Key]

/-- Whether a transaction's locks are compatible with those of all others. -/
def State.admits (s : P.State) (i : ℕ) (tx : P.Tx) : Bool :=
  (s.others i).all fun u => Locks.compatible tx.locks u.locks

/-- Whether a transaction other than number `i` keeps a row from being locked in a mode. -/
def State.locked (s : P.State) (i : ℕ) (k : Key) (m : LockMode) : Bool :=
  (s.others i).any fun u => !Locks.compatible [(k, m)] u.locks

/-- The next statement of transaction `i`, when its locks are granted. -/
def State.stmt (s : P.State) (i : ℕ) (tx : P.Tx) : Option P.State :=
  match tx.stmt s.toWorld (s.locked i) with
  | .next loc ls ws n =>
    if s.admits i (tx.advance loc ls ws) then
      some (s.set (s.toWorld.draw n) i (some (tx.advance loc ls ws)))
    else none
  | .commit out => some (s.set (P.commit s.toWorld tx out) i none)
  | .fail err => some (s.set (P.reject s.toWorld tx err) i none)
  | .wait => none

/-- One action of a run; `none` when it is not possible in this state. -/
def step (s : P.State) : Action Req → Option P.State
  | .begin r => some (s.push (Tx.begin r s.past.length s.now))
  | .stmt i =>
    match s.tx i with
    | none => none
    | some tx => s.stmt i tx
  | .abort i =>
    match s.tx i with
    | none => none
    | some _ => some (s.set s.toWorld i none)
  | .tick n => some (s.tick n)

/-- A list of actions, one after the other. -/
def run (s : P.State) : List (Action Req) → Option P.State
  | [] => some s
  | a :: as =>
    match step s a with
    | none => none
    | some s' => run s' as

/-- Everything one action can do to the state. -/
inductive StepCase (s : P.State) : Action Req → P.State → Prop where
  | begin (r : Req) : StepCase s (.begin r) (s.push (Tx.begin r s.past.length s.now))
  | next (i : ℕ) (tx : P.Tx) (loc : Loc tx.req) (ls : Locks Key) (ws : List Write) (n : ℕ)
      (htx : s.tx i = some tx)
      (hs : tx.stmt s.toWorld (s.locked i) = .next loc ls ws n)
      (hl : ∀ j u, j ≠ i → s.tx j = some u →
        Locks.compatible (tx.advance loc ls ws).locks u.locks = true) :
      StepCase s (.stmt i) (s.set (s.toWorld.draw n) i (some (tx.advance loc ls ws)))
  | commit (i : ℕ) (tx : P.Tx) (out : Out) (htx : s.tx i = some tx)
      (hs : tx.stmt s.toWorld (s.locked i) = .commit out) :
      StepCase s (.stmt i) (s.set (P.commit s.toWorld tx out) i none)
  | reject (i : ℕ) (tx : P.Tx) (err : Err) (htx : s.tx i = some tx)
      (hs : tx.stmt s.toWorld (s.locked i) = .fail err) :
      StepCase s (.stmt i) (s.set (P.reject s.toWorld tx err) i none)
  | abort (i : ℕ) (tx : P.Tx) (htx : s.tx i = some tx) :
      StepCase s (.abort i) (s.set s.toWorld i none)
  | tick (n : ℕ) : StepCase s (.tick n) (s.tick n)

variable {s s' : P.State}

/-- Every step is one of the cases. -/
theorem step_cases {a : Action Req} (h : step s a = some s') : StepCase s a s' := by
  cases a with
  | begin r =>
    cases h
    exact .begin r
  | stmt i =>
    simp only [step] at h
    cases htx : s.tx i with
    | none => simp [htx] at h
    | some tx =>
      simp only [htx, State.stmt] at h
      cases hs : tx.stmt s.toWorld (s.locked i) with
      | next loc ls ws n =>
        simp only [hs] at h
        split at h
        · rename_i hadm
          cases h
          refine .next i tx loc ls ws n htx hs fun j u hj hu => ?_
          exact (all_eq_true.1 hadm) u (State.mem_others.2 ⟨j, hj, hu⟩)
        · exact absurd h (by simp)
      | commit out =>
        simp only [hs] at h
        cases h
        exact .commit i tx out htx hs
      | fail err =>
        simp only [hs] at h
        cases h
        exact .reject i tx err htx hs
      | wait =>
        simp only [hs] at h
        exact absurd h (by simp)
  | abort i =>
    simp only [step] at h
    cases htx : s.tx i with
    | none => simp [htx] at h
    | some tx =>
      simp only [htx] at h
      cases h
      exact .abort i tx htx
  | tick n =>
    cases h
    exact .tick n

variable {i : ℕ} {tx : P.Tx}

/-- A statement that goes on can be taken when its locks are compatible with all others. -/
theorem step_next (htx : s.tx i = some tx) {loc : Loc tx.req} {ls : Locks Key} {ws : List Write}
    {n : ℕ} (hs : tx.stmt s.toWorld (s.locked i) = .next loc ls ws n)
    (hl : ∀ j u, j ≠ i → s.tx j = some u →
      Locks.compatible (tx.advance loc ls ws).locks u.locks = true) :
    step s (.stmt i) = some (s.set (s.toWorld.draw n) i (some (tx.advance loc ls ws))) := by
  have hadm : s.admits i (tx.advance loc ls ws) = true := by
    refine all_eq_true.2 fun u hu => ?_
    obtain ⟨j, hj, hu⟩ := State.mem_others.1 hu
    exact hl j u hj hu
  simp [step, htx, State.stmt, hs, hadm]

/-- A commit can always be taken. -/
theorem step_commit (htx : s.tx i = some tx) (out : Out)
    (hs : tx.stmt s.toWorld (s.locked i) = .commit out) :
    step s (.stmt i) = some (s.set (P.commit s.toWorld tx out) i none) := by
  simp [step, htx, State.stmt, hs]

/-- So can a failure. -/
theorem step_fail (htx : s.tx i = some tx) {err : Err}
    (hs : tx.stmt s.toWorld (s.locked i) = .fail err) :
    step s (.stmt i) = some (s.set (P.reject s.toWorld tx err) i none) := by
  simp [step, htx, State.stmt, hs]

/-! ## Runs -/

/-- The states of a run whose every action meets a condition. -/
inductive ReachUnder (ok : P.State → Action Req → Prop) (s₀ : P.State) : P.State → Prop where
  | refl : ReachUnder ok s₀ s₀
  | step {s s' : P.State} {a : Action Req} (hr : ReachUnder ok s₀ s) (hok : ok s a)
      (h : Program.step s a = some s') : ReachUnder ok s₀ s'

/-- The states of any run. -/
abbrev Reach (s₀ s : P.State) : Prop := ReachUnder (fun _ _ => True) s₀ s

variable {ok : P.State → Action Req → Prop} {s₀ : P.State}

theorem ReachUnder.reach (h : ReachUnder ok s₀ s) : Reach s₀ s := by
  induction h with
  | refl => exact .refl
  | step _ _ h ih => exact ih.step trivial h

theorem ReachUnder.mono {ok' : P.State → Action Req → Prop} (h : ReachUnder ok s₀ s)
    (hok : ∀ s a, ok s a → ok' s a) : ReachUnder ok' s₀ s := by
  induction h with
  | refl => exact .refl
  | step _ ha h ih => exact ih.step (hok _ _ ha) h

theorem ReachUnder.trans {s₁ s₂ : P.State} (h : ReachUnder ok s₀ s₁) (h' : ReachUnder ok s₁ s₂) :
    ReachUnder ok s₀ s₂ := by
  induction h' with
  | refl => exact h
  | step _ hok hs ih => exact ih.step hok hs

variable {as : List (Action Req)}

theorem reach_of_run (h : run s as = some s') : Reach s s' := by
  induction as generalizing s with
  | nil =>
    cases h
    exact .refl
  | cons a as ih =>
    simp only [run] at h
    cases hs : Program.step s a with
    | none => simp [hs] at h
    | some s₁ =>
      simp only [hs] at h
      exact ReachUnder.trans (ReachUnder.refl.step trivial hs) (ih h)

/-- A list of actions, each checked before it is taken. -/
def runUnder (ok : P.State → Action Req → Bool) (s : P.State) : List (Action Req) → Option P.State
  | [] => some s
  | a :: as =>
    if ok s a then
      match step s a with
      | none => none
      | some s' => runUnder ok s' as
    else none

variable {check : P.State → Action Req → Bool}

theorem reachUnder_of_runUnder (hok : ∀ s a, check s a = true → ok s a)
    (h : runUnder check s as = some s') : ReachUnder ok s s' := by
  induction as generalizing s with
  | nil =>
    cases h
    exact .refl
  | cons a as ih =>
    simp only [runUnder] at h
    split at h
    · rename_i hc
      cases hs : Program.step s a with
      | none => simp [hs] at h
      | some s₁ =>
        simp only [hs] at h
        exact ReachUnder.trans (ReachUnder.refl.step (hok s a hc) hs) (ih h)
    · cases h

/-- The states of such a run, with what its actions have brought about outside the database. -/
inductive TracedReach {Event : Type} (emit : P.State → Action Req → List Event)
    (ok : P.State → Action Req → Prop) (s₀ : P.State) : P.State → List Event → Prop where
  | refl : TracedReach emit ok s₀ s₀ []
  | step {s s' : P.State} {es : List Event} {a : Action Req} (hr : TracedReach emit ok s₀ s es)
      (hok : ok s a) (h : Program.step s a = some s') :
      TracedReach emit ok s₀ s' (es ++ emit s a)

theorem TracedReach.reachUnder {Event : Type} {emit : P.State → Action Req → List Event}
    {es : List Event} (h : TracedReach emit ok s₀ s es) : ReachUnder ok s₀ s := by
  induction h with
  | refl => exact .refl
  | step _ hok h ih => exact ih.step hok h

/-- A list of actions, each checked before it is taken, with what they bring about. -/
def traced {Event : Type} (emit : P.State → Action Req → List Event)
    (check : P.State → Action Req → Bool) (s : P.State) (es : List Event) :
    List (Action Req) → Option (P.State × List Event)
  | [] => some (s, es)
  | a :: as =>
    if check s a then
      match step s a with
      | none => none
      | some s' => traced emit check s' (es ++ emit s a) as
    else none

theorem tracedReach_of_traced {Event : Type} {emit : P.State → Action Req → List Event}
    (hok : ∀ s a, check s a = true → ok s a) {es es' : List Event}
    (hr : TracedReach emit ok s₀ s es) (h : traced emit check s es as = some (s', es')) :
    TracedReach emit ok s₀ s' es' := by
  induction as generalizing s es with
  | nil =>
    cases Option.some.inj h
    exact hr
  | cons a as ih =>
    simp only [traced] at h
    split at h
    · rename_i hc
      cases hs : Program.step s a with
      | none => simp [hs] at h
      | some s₁ =>
        simp only [hs] at h
        exact ih (hr.step (hok s a hc) hs) h
    · cases h

/-- Any two transactions in flight hold compatible locks. -/
theorem compatible_of_reach {db : Db} (h : Reach (State.init db) s) {j : ℕ} {u : P.Tx} (hij : i ≠ j)
    (hi : s.tx i = some tx) (hj : s.tx j = some u) :
    Locks.compatible tx.locks u.locks = true := by
  induction h generalizing i j tx u with
  | refl => simp at hi
  | @step s s' a hr _ hstep ih =>
    cases step_cases hstep with
    | begin r =>
      rw [State.tx_push] at hi hj
      by_cases hil : i = s.txs.length
      · rw [if_pos hil] at hi
        rw [← Option.some.inj hi]
        rfl
      · by_cases hjl : j = s.txs.length
        · rw [if_pos hjl] at hj
          rw [← Option.some.inj hj]
          exact Locks.compatible_nil_right _
        · rw [if_neg hil] at hi
          rw [if_neg hjl] at hj
          exact ih hij hi hj
    | next k t loc ls ws n htx hs hl =>
      rw [State.tx_set htx] at hi hj
      by_cases hik : i = k
      · rw [if_pos hik] at hi
        rw [if_neg (by omega)] at hj
        rw [← Option.some.inj hi]
        exact hl j u (by omega) hj
      · rw [if_neg hik] at hi
        by_cases hjk : j = k
        · rw [if_pos hjk] at hj
          rw [← Option.some.inj hj]
          exact Locks.compatible_comm (hl i tx hik hi)
        · rw [if_neg hjk] at hj
          exact ih hij hi hj
    | commit k t out htx hs | reject k t err htx hs | abort k t htx =>
      rw [State.tx_set htx] at hi hj
      by_cases hik : i = k
      · simp [hik] at hi
      · by_cases hjk : j = k
        · simp [hjk] at hj
        · rw [if_neg hik] at hi
          rw [if_neg hjk] at hj
          exact ih hij hi hj
    | tick n => exact ih hij hi hj

/-! ## One transaction alone -/

/-- Run a transaction's statements with nothing in between, for at most a given
number of them: the world afterwards, and what the caller gets. -/
def serial : ℕ → World Db Write Req Err Out → P.Tx →
    Option (World Db Write Req Err Out × Except Err Out)
  | 0, _, _ => none
  | fuel + 1, w, tx =>
    match tx.stmt w (fun _ _ => false) with
    | .next loc ls ws n => serial fuel (w.draw n) (tx.advance loc ls ws)
    | .commit out => some (P.commit w tx out, .ok out)
    | .fail err => some (P.reject w tx err, .error err)
    | .wait => none

variable {fuel : ℕ}

omit [DecidableEq Key] in
theorem serial_next {loc : Loc tx.req} {ls : Locks Key} {ws : List Write} {n : ℕ}
    (h : tx.stmt w (fun _ _ => false) = .next loc ls ws n) :
    serial (fuel + 1) w tx = serial fuel (w.draw n) (tx.advance loc ls ws) := by
  simp only [serial, h]

omit [DecidableEq Key] in
theorem serial_commit {out : Out} (h : tx.stmt w (fun _ _ => false) = .commit out) :
    serial (fuel + 1) w tx = some (P.commit w tx out, .ok out) := by
  simp only [serial, h]

omit [DecidableEq Key] in
theorem serial_fail {err : Err} (h : tx.stmt w (fun _ _ => false) = .fail err) :
    serial (fuel + 1) w tx = some (P.reject w tx err, .error err) := by
  simp only [serial, h]

/-- The same without locks and history: what the call leaves behind and what the caller
gets, the rows it has written so far given. -/
def solo (P : Program Db Write Key Req Err Out Loc) (r : Req) (db : Db) (now : ℕ) :
    ℕ → ℕ → Loc r → List Write → Option ((Db × ℕ) × Except Err Out)
  | 0, _, _, _ => none
  | fuel + 1, seq, loc, writes =>
    match P.stmt { db := P.applyAll db writes, seq := seq, now := now, locked := fun _ _ => false }
        r loc with
    | .next loc' _ ws n => P.solo r db now fuel (seq + n) loc' (writes ++ ws)
    | .commit out => some ((P.applyAll db writes, seq), .ok out)
    | .fail err => some ((db, seq), .error err)
    | .wait => none

section

omit [DecidableEq Key]

variable {r : Req} {db : Db} {now fuel seq : ℕ} {loc : Loc r} {writes : List Write}

theorem solo_next {loc' : Loc r} {ls : Locks Key} {ws : List Write} {n : ℕ}
    (h : P.stmt { db := P.applyAll db writes, seq := seq, now := now, locked := fun _ _ => false }
      r loc = .next loc' ls ws n) :
    P.solo r db now (fuel + 1) seq loc writes
      = P.solo r db now fuel (seq + n) loc' (writes ++ ws) := by
  simp only [solo, h]

/-- A statement of a call that has not written and does not write. -/
theorem solo_read {loc' : Loc r} {ls : Locks Key}
    (h : P.stmt { db := db, seq := seq, now := now, locked := fun _ _ => false } r loc
      = .next loc' ls [] 0) :
    P.solo r db now (fuel + 1) seq loc [] = P.solo r db now fuel seq loc' [] := by
  have hstmt : P.stmt ⟨P.applyAll db [], seq, now, fun _ _ => false⟩ r loc = .next loc' ls [] 0 := h
  rw [solo_next hstmt]
  rfl

theorem solo_commit {out : Out}
    (h : P.stmt { db := P.applyAll db writes, seq := seq, now := now, locked := fun _ _ => false }
      r loc = .commit out) :
    P.solo r db now (fuel + 1) seq loc writes = some ((P.applyAll db writes, seq), .ok out) := by
  simp only [solo, h]

theorem solo_fail {err : Err}
    (h : P.stmt { db := P.applyAll db writes, seq := seq, now := now, locked := fun _ _ => false }
      r loc = .fail err) :
    P.solo r db now (fuel + 1) seq loc writes = some ((db, seq), .error err) := by
  simp only [solo, h]

/-- **What a call alone leaves behind**, from what its statements keep of its stage and of the
rows it has written: nothing where it fails, those rows where it commits. -/
theorem solo_rule {Q : Loc r → List Write → Prop}
    (hnext : ∀ {seq loc writes loc' ls ws n}, Q loc writes →
      P.stmt { db := P.applyAll db writes, seq := seq, now := now, locked := fun _ _ => false }
        r loc = .next loc' ls ws n → Q loc' (writes ++ ws)) {db' : Db} {seq' : ℕ}
    {res : Except Err Out} (h : P.solo r db now fuel seq loc writes = some ((db', seq'), res))
    (hQ : Q loc writes) :
    (db' = db ∧ ∃ err, res = .error err) ∨
      ∃ loc' writes' seq out, Q loc' writes' ∧ db' = P.applyAll db writes' ∧ res = .ok out ∧
        P.stmt { db := P.applyAll db writes', seq := seq, now := now, locked := fun _ _ => false }
          r loc' = .commit out := by
  induction fuel generalizing seq loc writes with
  | zero => simp [solo] at h
  | succ fuel ih =>
    cases hs : P.stmt ⟨P.applyAll db writes, seq, now, fun _ _ => false⟩ r loc with
    | next loc' ls ws n =>
      rw [solo_next hs] at h
      exact ih h (hnext hQ hs)
    | commit out =>
      rw [solo_commit hs] at h
      obtain ⟨⟨rfl, rfl⟩, rfl⟩ := h
      exact Or.inr ⟨loc, writes, _, out, hQ, rfl, rfl, hs⟩
    | fail err =>
      rw [solo_fail hs] at h
      simp only [Option.some.injEq, Prod.mk.injEq] at h
      obtain ⟨⟨rfl, rfl⟩, rfl⟩ := h
      exact Or.inl ⟨rfl, err, rfl⟩
    | wait =>
      simp only [solo, hs] at h
      cases h

/-- It is what a transaction alone does. -/
theorem serial_of_solo {w : World Db Write Req Err Out} {tx : P.Tx} {db' : Db} {seq' : ℕ}
    {res : Except Err Out}
    (h : P.solo tx.req w.db tx.now fuel w.seq tx.loc tx.writes = some ((db', seq'), res)) :
    ∃ w', serial fuel w tx = some (w', res) ∧ w'.db = db' ∧ w'.seq = seq' ∧ w'.now = w.now := by
  induction fuel generalizing w tx with
  | zero => simp [solo] at h
  | succ fuel ih =>
    have hview : tx.stmt w (fun _ _ => false)
        = P.stmt ⟨P.applyAll w.db tx.writes, w.seq, tx.now, fun _ _ => false⟩ tx.req tx.loc := rfl
    cases hs : tx.stmt w (fun _ _ => false) with
    | next loc ls ws n =>
      rw [solo_next (hview ▸ hs)] at h
      obtain ⟨w', hw', hrest⟩ := @ih (w.draw n) (tx.advance loc ls ws) h
      exact ⟨w', (serial_next hs).trans hw', hrest⟩
    | commit out =>
      rw [solo_commit (hview ▸ hs)] at h
      obtain ⟨⟨rfl, rfl⟩, rfl⟩ := h
      exact ⟨_, serial_commit hs, rfl, rfl, rfl⟩
    | fail err =>
      rw [solo_fail (hview ▸ hs)] at h
      simp only [Option.some.injEq, Prod.mk.injEq] at h
      obtain ⟨⟨rfl, rfl⟩, rfl⟩ := h
      exact ⟨_, serial_fail hs, rfl, rfl, rfl⟩
    | wait =>
      simp only [solo, hview ▸ hs] at h
      cases h

end

theorem State.locked_of_alone (h : ∀ j, j ≠ i → s.tx j = none) : s.locked i = fun _ _ => false := by
  funext k m
  simp [State.locked, State.others_of_alone h]

/-- A transaction that finds no other in flight can be run to its end. -/
theorem reach_of_serial (htx : s.tx i = some tx) (halone : ∀ j, j ≠ i → s.tx j = none)
    {r : Except Err Out} (h : serial fuel s.toWorld tx = some (w, r)) :
    ∃ s' : P.State, Reach s s' ∧ s'.toWorld = w ∧ ∀ j, s'.tx j = none := by
  induction fuel generalizing s tx with
  | zero => simp [serial] at h
  | succ fuel ih =>
    have hlocked := State.locked_of_alone halone
    have hend : ∀ w' j, (s.set w' i none).tx j = none := by
      intro w' j
      by_cases hj : j = i
      · rw [State.tx_set htx, if_pos hj]
      · exact State.alone_set htx halone w' none j hj
    simp only [serial] at h
    cases hs : tx.stmt s.toWorld (fun _ _ => false) with
    | next loc ls ws n =>
      simp only [hs] at h
      have hstep := step_next htx (hlocked ▸ hs) fun j u hj hu => by simp [halone j hj] at hu
      have htx' : (s.set (s.toWorld.draw n) i (some (tx.advance loc ls ws))).tx i
          = some (tx.advance loc ls ws) := by
        rw [State.tx_set htx, if_pos rfl]
      obtain ⟨s', hr, hw, hn⟩ := ih htx' (State.alone_set htx halone _ _) h
      exact ⟨s', (ReachUnder.refl.step trivial hstep).trans hr, hw, hn⟩
    | commit out =>
      simp only [hs, Option.some.injEq, Prod.mk.injEq] at h
      have hstep := step_commit htx out (hlocked ▸ hs)
      exact ⟨_, ReachUnder.refl.step trivial hstep, h.1, hend _⟩
    | fail err =>
      simp only [hs, Option.some.injEq, Prod.mk.injEq] at h
      have hstep := step_fail htx (hlocked ▸ hs)
      exact ⟨_, ReachUnder.refl.step trivial hstep, h.1, hend _⟩
    | wait => simp [hs] at h

end Program

end ReadCommitted
