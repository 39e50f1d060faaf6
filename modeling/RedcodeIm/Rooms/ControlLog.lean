import RedcodeIm.Rooms.RoomLedger

/-!
# The control log of a room

The proof outline that carries every statement about accepted control messages: a
submission inserts its message and advances the epoch under one lock on the room's
epoch row, so that each commit of a transaction is a move of the room's ledger.

* `ControlLog.SubmitAt` — what holds of a submission at each of its stages.
* `ControlLog.Inv` — what holds of the committed rows.
* `ControlLog.holds` — both hold in every reachable state.
* `control_log_invariant` — the commits of a room are numbered, its welcomes follow
  their commits, its revision only grows, and an active room has its commit.
-/

namespace RedcodeIm

open ReadCommitted EpochLedger SubmitControlMessageInput List Relation.ReflTransGen Program Write

/-! ## Writes and the rows they leave alone -/

variable {ws : List Write}

theorem controls_applyAll (h : ControlFree ws) (db : Db) :
    (e2eeBackend.applyAll db ws).controls = db.controls := by
  induction ws generalizing db with
  | nil => rfl
  | cons w ws ih =>
    rw [applyAll_cons, ih fun m hm => h m (mem_cons_of_mem _ hm)]
    cases w with
    | insertControl m => exact absurd mem_cons_self (h m)
    | _ => rfl

/-- No write touches the ledger of a room. -/
def Untouched (roomId : Uuid) (ws : List Write) : Prop := ∀ w ∈ ws, w.ledgerRoom ≠ some roomId

variable {roomId : Uuid}

theorem Untouched.epochs (h : Untouched roomId ws) (db : Db) :
    (e2eeBackend.applyAll db ws).epochs.get roomId = db.epochs.get roomId := by
  induction ws generalizing db with
  | nil => rfl
  | cons w ws ih =>
    rw [applyAll_cons, ih fun w' hw' => h w' (mem_cons_of_mem _ hw')]
    exact epochs_apply_of_ne (h w mem_cons_self) db

theorem Untouched.controlLog (h : Untouched roomId ws) (db : Db) :
    (e2eeBackend.applyAll db ws).controlLog roomId = db.controlLog roomId := by
  induction ws generalizing db with
  | nil => rfl
  | cons w ws ih =>
    rw [applyAll_cons, ih fun w' hw' => h w' (mem_cons_of_mem _ hw')]
    exact controlLog_apply_of_ne (h w mem_cons_self) db

theorem Untouched.ledger (h : Untouched roomId ws) (db : Db) :
    (e2eeBackend.applyAll db ws).ledger roomId = db.ledger roomId :=
  Db.ledger_congr (h.epochs db) (h.controlLog db)

theorem Neutral.untouched (h : Neutral ws) (roomId : Uuid) : Untouched roomId ws := by
  intro w hw
  rw [h w hw]
  simp

/-- The row of a control message is guarded by its id. -/
theorem guarded_control (id : Uuid) :
    Program.Guarded e2eeBackend (fun db : Db => db.controls.get id) (.control id) := by
  intro db w hw
  cases w with
  | insertControl m =>
    refine Table.get_insert_ne fun he => hw (.control m.id, .update) ?_ (by rw [he])
    simp [e2eeBackend, Write.guards]
  | _ => rfl

namespace ControlLog

/-! ## The outline -/

section

variable (w : Backend.World) (roomId : Uuid) (input : SubmitControlMessageInput)
  (now : Timestamp) (locks : Locks LockKey)

/-- The submission holds the room's epoch row, which reads `state`. -/
structure Holding (state : RoomEpoch) : Prop where
  lock : (.roomEpoch roomId, .update) ∈ locks
  row : w.db.epochs.get roomId = some state

/-- Moreover the checks against the row have passed. -/
structure Accepted (state : RoomEpoch) : Prop extends Holding w roomId locks state where
  checked : checkSubmission state input = none

/-- Moreover a sequence number beyond the room's log has been drawn. -/
structure Placed (state : RoomEpoch) (sequenceNo : ℕ) : Prop
    extends Accepted w roomId input locks state where
  positive : 0 < sequenceNo
  drawn : sequenceNo < w.seq
  fresh : ∀ m ∈ w.db.controlLog roomId, m.sequenceNo < sequenceNo

/-- Moreover the message has been inserted; its id is still free in the committed rows. -/
structure Inserted (state : RoomEpoch) (record : ControlMessage) : Prop where
  placed : ∃ sequenceNo, record = input.record roomId sequenceNo now ∧
    Placed w roomId input locks state sequenceNo
  absent : w.db.controls.get record.id = none
  lockId : (.control record.id, .update) ∈ locks

/-- The epoch row an accepted submission writes: the next epoch for a Commit, none for a
Welcome. -/
def epochPart (state : RoomEpoch) : List Write :=
  if input.contentType = .commit then
    [.putEpoch { state with activeEpoch := input.epoch, status := .active, updatedAt := now }]
  else []

/-- What holds of a submission at each of its stages. -/
def SubmitAt (writes : List Write) : SubmitStage → Prop
  | .checkSender => writes = []
  | .checkRecipient d => writes = [] ∧ input.recipientDeviceId = some d
  | .lockEpoch => writes = []
  | .findExisting state => writes = [] ∧ Holding w roomId locks state
  | .replay _ => writes = []
  | .drawSequence state => writes = [] ∧ Accepted w roomId input locks state
  | .insertControl state n => writes = [] ∧ Placed w roomId input locks state n
  | .advanceEpoch record =>
    ∃ state, Inserted w roomId input now locks state record ∧ input.contentType = .commit ∧
      writes = [.insertControl record]
  | .insertReceipts record | .insertReceipt record _ | .lockRecipients record _ | .commit record =>
    ∃ state rest, Inserted w roomId input now locks state record ∧ Neutral rest ∧
      writes = .insertControl record :: (epochPart input now state ++ rest)

end

/-- What holds of a call at a stage: a submission is where it should be, any other call
has moved the ledgers or left them alone. -/
def At (w : Backend.World) (now : Timestamp) (locks : Locks LockKey) (writes : List Write) :
    (r : Request) → r.Stage → Prop
  | .submitControlMessage roomId _ input, stage => SubmitAt w roomId input now locks writes stage
  | _, _ => EpochWrites w.db writes

/-- The assertion of a call in flight. -/
def Assertion (w : Backend.World) (tx : Backend.Tx) : Prop :=
  At w tx.now tx.locks tx.writes tx.req tx.loc

/-- The assertion of the committed rows. -/
structure Inv (w : Backend.World) : Prop where
  /-- Every ledger is sound. -/
  sound : ∀ roomId, (w.db.ledger roomId).Sound controlReading
  /-- Every sequence number in use has been drawn. -/
  drawn : ∀ m ∈ w.db.controls.rows, 0 < m.sequenceNo ∧ m.sequenceNo < w.seq
  /-- The sequence starts at one. -/
  started : 0 < w.seq
  /-- Each version came from the ones before it by moves of the ledgers. -/
  versions : (w.past ++ [w.db]).Pairwise fun a b =>
    ∀ roomId, Ledger.Steps controlReading (a.ledger roomId) (b.ledger roomId)

variable {w : Backend.World} {now : Timestamp} {locks : Locks LockKey}

theorem at_iff {writes : List Write} {r : Request} (hr : r.isSubmit = false) (stage : r.Stage) :
    At w now locks writes r stage ↔ EpochWrites w.db writes := by
  cases r with
  | submitControlMessage => simp [Request.isSubmit] at hr
  | _ => rfl

/-! ### Which writes touch which room -/

variable {roomId : Uuid} {input : SubmitControlMessageInput} {state : RoomEpoch}
  {record : ControlMessage}

/-- The message a submission has inserted belongs to its room, and nothing else it
writes is a control message. -/
theorem Inserted.roomId_eq (h : Inserted w roomId input now locks state record) :
    record.roomId = roomId := by
  obtain ⟨n, rfl, -⟩ := h.placed
  rfl

theorem Inserted.holding (h : Inserted w roomId input now locks state record) :
    Holding w roomId locks state := by
  obtain ⟨n, -, hp⟩ := h.placed
  exact hp.toHolding

theorem controlFree_epochPart (input : SubmitControlMessageInput) (now : Timestamp)
    (state : RoomEpoch) : ControlFree (epochPart input now state) := by
  intro m hm
  simp only [epochPart] at hm
  split at hm <;> simp at hm

variable {tx : Backend.Tx} {m : ControlMessage}

/-- Whoever has inserted a control message is a submission that has got that far. -/
theorem inserted_of_insertControl (h : Assertion w tx) (hm : .insertControl m ∈ tx.writes) :
    ∃ input state, Inserted w m.roomId input tx.now tx.locks state m := by
  obtain ⟨req, now, born, stage, locks, writes, covered⟩ := tx
  cases hr : req.isSubmit with
  | false => exact absurd hm (((at_iff hr stage).1 h).controlFree m)
  | true =>
    cases req with
    | submitControlMessage roomId userId input =>
      simp only [Assertion, At] at h hm ⊢
      cases stage with
      | checkSender | lockEpoch | replay =>
        simp only [SubmitAt] at h
        simp [h] at hm
      | checkRecipient | findExisting | drawSequence | insertControl => simp [h.1] at hm
      | advanceEpoch record =>
        obtain ⟨state, hi, -, rfl⟩ := h
        simp only [mem_singleton, insertControl.injEq] at hm
        subst hm
        exact ⟨input, state, hi.roomId_eq.symm ▸ hi⟩
      | insertReceipts record | insertReceipt record | lockRecipients record | commit record =>
        obtain ⟨state, rest, hi, hn, rfl⟩ := h
        rcases mem_cons.1 hm with hm | hm
        · obtain rfl := insertControl.inj hm
          exact ⟨input, state, hi.roomId_eq.symm ▸ hi⟩
        · exact absurd hm (((controlFree_epochPart input now state).append hn.controlFree) m)
    | _ => simp [Request.isSubmit] at hr

theorem lock_of_insertControl (h : Assertion w tx) (hm : .insertControl m ∈ tx.writes) :
    (.roomEpoch m.roomId, .update) ∈ tx.locks := by
  obtain ⟨input, state, hi⟩ := inserted_of_insertControl h hm
  exact hi.holding.lock

/-- **One writer per room.**  While a call holds the epoch row of a room, no other touches
the room's ledger. -/
theorem untouched_of_lock {u : Backend.Tx} (h : Assertion w tx)
    (hc : Locks.compatible tx.locks u.locks = true) {mode : LockMode}
    (hl : (.roomEpoch roomId, mode) ∈ u.locks) (hm : mode.protects = true) :
    Untouched roomId tx.writes := by
  have havoid := avoids_of_lock hc hl hm
  intro wr hwr hroom
  cases wr with
  | putEpoch e =>
    rw [ledgerRoom, Option.some.injEq] at hroom
    exact havoid _ hwr (.roomEpoch e.roomId, .noKeyUpdate) (by simp [e2eeBackend, Write.guards])
      (by rw [hroom])
  | insertControl m =>
    rw [ledgerRoom, Option.some.injEq] at hroom
    have hheld := lock_of_insertControl h hwr
    rw [hroom] at hheld
    have := Locks.not_isWrite_of_protects (Locks.compatible_comm hc) hl hm hheld
    simp [LockMode.isWrite] at this
  | _ => simp [ledgerRoom] at hroom

/-! ### Stability -/

section

variable {w w' : Backend.World} {roomId : Uuid} {input : SubmitControlMessageInput}
  {now : Timestamp} {locks : Locks LockKey}

/-- What a submission relies on, as far as the committed rows go. -/
structure Agree (w w' : Backend.World) (roomId : Uuid) (locks : Locks LockKey) : Prop where
  seq : w.seq ≤ w'.seq
  epochs : (LockKey.roomEpoch roomId, LockMode.update) ∈ locks →
    w'.db.epochs.get roomId = w.db.epochs.get roomId
  log : (LockKey.roomEpoch roomId, LockMode.update) ∈ locks →
    w'.db.controlLog roomId = w.db.controlLog roomId
  controls : ∀ id, (LockKey.control id, LockMode.update) ∈ locks →
    w'.db.controls.get id = w.db.controls.get id

variable {state : RoomEpoch}

theorem Holding.agree (h : Holding w roomId locks state) (ha : Agree w w' roomId locks) :
    Holding w' roomId locks state :=
  ⟨h.lock, by rw [ha.epochs h.lock, h.row]⟩

theorem Holding.grow (h : Holding w roomId locks state) (more : Locks LockKey) :
    Holding w roomId (locks ++ more) state :=
  ⟨mem_append_left _ h.lock, h.row⟩

theorem Accepted.agree (h : Accepted w roomId input locks state) (ha : Agree w w' roomId locks) :
    Accepted w' roomId input locks state :=
  ⟨h.toHolding.agree ha, h.checked⟩

theorem Accepted.grow (h : Accepted w roomId input locks state) (more : Locks LockKey) :
    Accepted w roomId input (locks ++ more) state :=
  ⟨h.toHolding.grow more, h.checked⟩

theorem Placed.agree {n : ℕ} (h : Placed w roomId input locks state n)
    (ha : Agree w w' roomId locks) : Placed w' roomId input locks state n :=
  ⟨h.toAccepted.agree ha, h.positive, Nat.lt_of_lt_of_le h.drawn ha.seq,
    by rw [ha.log h.lock]; exact h.fresh⟩

theorem Placed.grow {n : ℕ} (h : Placed w roomId input locks state n) (more : Locks LockKey) :
    Placed w roomId input (locks ++ more) state n :=
  ⟨h.toAccepted.grow more, h.positive, h.drawn, h.fresh⟩

variable {record : ControlMessage}

theorem Inserted.agree (h : Inserted w roomId input now locks state record)
    (ha : Agree w w' roomId locks) :
    Inserted w' roomId input now locks state record := by
  obtain ⟨⟨n, hr, hp⟩, habs, hl⟩ := h
  exact ⟨⟨n, hr, hp.agree ha⟩, by rw [ha.controls _ hl, habs], hl⟩

theorem Inserted.grow (h : Inserted w roomId input now locks state record) (more : Locks LockKey) :
    Inserted w roomId input now (locks ++ more) state record := by
  obtain ⟨⟨n, hr, hp⟩, habs, hl⟩ := h
  exact ⟨⟨n, hr, hp.grow more⟩, habs, mem_append_left _ hl⟩

theorem SubmitAt.agree {writes : List Write} {stage : SubmitStage}
    (h : SubmitAt w roomId input now locks writes stage) (ha : Agree w w' roomId locks) :
    SubmitAt w' roomId input now locks writes stage := by
  cases stage with
  | checkSender | checkRecipient | lockEpoch | replay => exact h
  | advanceEpoch record =>
    obtain ⟨state, hi, ht, hw⟩ := h
    exact ⟨state, hi.agree ha, ht, hw⟩
  | insertReceipts record | insertReceipt record | lockRecipients record | commit record =>
    obtain ⟨state, rest, hi, hn, hw⟩ := h
    exact ⟨state, rest, hi.agree ha, hn, hw⟩
  | _ => exact ⟨h.1, h.2.agree ha⟩

end

theorem EpochWrites.congr {db db' : Db} {ws : List Write} (h : EpochWrites db ws)
    (hl : ∀ roomId, Untouched roomId ws ∨ db'.ledger roomId = db.ledger roomId) :
    EpochWrites db' ws := by
  refine ⟨h.controlFree, fun roomId => ?_⟩
  rcases hl roomId with hu | he
  · rw [hu.ledger]
  · rw [ledger_applyAll h.controlFree, he, ← ledger_applyAll h.controlFree]
    exact h.steps roomId

variable {out : Response}

/-- The assertion of a call is not disturbed by the commit of another. -/
theorem assertion_other {u : Backend.Tx} (ht : Assertion w tx) (hu : Assertion w u)
    (hc : Locks.compatible tx.locks u.locks = true) :
    Assertion (e2eeBackend.commit w tx out) u := by
  have huntouched : ∀ roomId mode, (LockKey.roomEpoch roomId, mode) ∈ u.locks →
      mode.protects = true → Untouched roomId tx.writes :=
    fun roomId mode hl hm => untouched_of_lock ht hc hl hm
  have hcontrol : ∀ id mode, (LockKey.control id, mode) ∈ u.locks → mode.protects = true →
      (tx.see w.db).controls.get id = w.db.controls.get id :=
    fun id mode hl hm => (guarded_control id).see_eq hc hl hm w.db
  obtain ⟨req, now, born, stage, locks, writes, covered⟩ := u
  cases hr : req.isSubmit with
  | false =>
    refine (at_iff hr stage).2 (EpochWrites.congr ((at_iff hr stage).1 hu) fun roomId => ?_)
    by_cases hroom : Untouched roomId writes
    · exact Or.inl hroom
    · right
      simp only [Untouched, not_forall, not_not] at hroom
      obtain ⟨wr, hwr, hwroom⟩ := hroom
      cases wr with
      | putEpoch e =>
        rw [ledgerRoom, Option.some.injEq] at hwroom
        subst hwroom
        have hl := covered _ hwr (.roomEpoch e.roomId, .noKeyUpdate)
          (by simp [e2eeBackend, Write.guards])
        exact (huntouched e.roomId _ hl rfl).ledger w.db
      | insertControl m => exact absurd hwr (((at_iff hr stage).1 hu).controlFree m)
      | _ => simp [ledgerRoom] at hwroom
  | true =>
    cases req with
    | submitControlMessage roomId userId input =>
      refine SubmitAt.agree (w := w) hu ⟨Nat.le_refl _, fun hl => ?_, fun hl => ?_, fun id hl => ?_⟩
      · exact (huntouched roomId _ hl rfl).epochs w.db
      · exact (huntouched roomId _ hl rfl).controlLog w.db
      · exact hcontrol id _ hl rfl
    | _ => simp [Request.isSubmit] at hr

/-! ### The statements of a submission -/

variable {locked : LockKey → LockMode → Bool}

/-- A submission's own statement keeps its assertion. -/
theorem submitAt_next {userId : Uuid} {writes : List Write} {stage stage' : SubmitStage}
    {ls : Locks LockKey} {ws : List Write} {n : ℕ} (hinv : Inv w)
    (h : SubmitAt w roomId input now locks writes stage)
    (hs : SubmitNext roomId userId input
      { db := e2eeBackend.applyAll w.db writes, seq := w.seq, now := now, locked := locked }
      stage stage' ls ws n) :
    SubmitAt (w.draw n) roomId input now (locks ++ ls ++ ws.flatMap guards) (writes ++ ws)
      stage' := by
  cases hs with
  | checkSender hd hm => cases hr : input.recipientDeviceId <;> simpa [SubmitAt, hr] using h
  | checkRecipient | replay => simpa [SubmitAt] using h.1
  | lockEpoch state he =>
    subst h
    exact ⟨rfl, by simp, he⟩
  | accept state hf hc =>
    obtain ⟨rfl, hh⟩ := h
    exact ⟨rfl, ⟨by simpa using hh.lock, hh.row⟩, hc⟩
  | drawSequence state =>
    obtain ⟨rfl, ha⟩ := h
    refine ⟨rfl, ⟨⟨by simpa using ha.lock, ha.row⟩, ha.checked⟩, hinv.started,
      Nat.lt_succ_self _, ?_⟩
    intro m hm
    exact (hinv.drawn m (Db.mem_controlLog.1 hm).1).2
  | insertControl state sequenceNo hc hu =>
    obtain ⟨rfl, hp⟩ := h
    have hinserted : Inserted w roomId input now
        (locks ++ deviceKeyShares (input.senderDeviceId :: input.recipientDeviceId.toList)
          ++ [insertControl (input.record roomId sequenceNo now)].flatMap guards)
        state (input.record roomId sequenceNo now) := by
      refine ⟨⟨sequenceNo, rfl, ?_⟩, ?_, by simp [Write.guards]⟩
      · rw [append_assoc]
        exact hp.grow _
      · refine Table.get_eq_none_iff.2 fun m hm => ?_
        have := (all_eq_true.1 hu) m hm
        simp only [Bool.and_eq_true, decide_eq_true_eq] at this
        exact this.1.1
    have hrest : input.contentType ≠ .commit → epochPart input now state = [] := by
      intro hne
      rw [epochPart, if_neg hne]
    cases ht : input.contentType with
    | commit => exact ⟨state, hinserted, ht, rfl⟩
    | welcome | other =>
      cases hd : input.recipientDeviceId with
      | _ =>
        simp only [hd] at hinserted
        exact ⟨state, [], hinserted, by simp [Neutral], by simp [hrest (by simp [ht])]⟩
  | advanceEpoch record =>
    obtain ⟨state, hi, ht, rfl⟩ := h
    have hrow : (e2eeBackend.applyAll w.db [.insertControl record]).epochs.get roomId
        = some state := hi.holding.row
    refine ⟨state, [], ?_, by simp [Neutral], ?_⟩
    · rw [append_assoc]
      exact hi.grow _
    · simp only [hrow, epochPart, if_pos ht]
      rfl
  | insertReceipts | insertReceipt =>
    obtain ⟨state, rest, hi, hn, rfl⟩ := h
    refine ⟨state, rest ++ _, ?_, ?_, by rw [cons_append, append_assoc]⟩
    · rw [append_assoc]
      exact hi.grow _
    · intro wr hwr
      rcases mem_append.1 hwr with hwr | hwr
      · exact hn wr hwr
      · exact neutral_insertReceipts _ _ _ wr hwr
  | lockRecipients record recipients =>
    obtain ⟨state, rest, hi, hn, rfl⟩ := h
    refine ⟨state, rest, ?_, hn, by simp⟩
    rw [append_assoc]
    exact hi.grow _

/-! ### What a commit does -/

/-- The ledgers after an accepted submission: a move of its own room's, nothing elsewhere. -/
theorem steps_of_inserted {rest : List Write} (h : Inserted w roomId input now locks state record)
    (hn : Neutral rest) (room : Uuid) :
    Ledger.Steps controlReading (w.db.ledger room)
      ((e2eeBackend.applyAll w.db
        (.insertControl record :: (epochPart input now state ++ rest))).ledger room) := by
  have hroom := h.roomId_eq
  obtain ⟨⟨n, rfl, hp⟩, habs, -⟩ := h
  have hfree : ControlFree (epochPart input now state ++ rest) :=
    (controlFree_epochPart input now state).append hn.controlFree
  rw [applyAll_cons]
  by_cases hr : room = roomId
  · subst hr
    have hstate : state.roomId = room := Table.key_of_get hp.row
    obtain ⟨hrev, hkind⟩ := checkSubmission_eq_none hp.checked
    have hledger := Db.ledger_of_get hp.row
    have hfresh : (w.db.ledger room).Fresh controlReading (input.record room n now) := by
      intro m hm
      rw [Db.entries_ledger] at hm
      exact hp.fresh m hm
    rw [applyAll_append, ledger_applyAll_of_neutral hn,
      ledger_applyAll (controlFree_epochPart input now state)]
    have happ := ledger_insertControl habs
    rw [hroom] at happ
    refine single ?_
    rcases hkind with ⟨ht, he⟩ | ⟨ht, h0, he⟩
    · have hstep := Ledger.Step.commit (R := controlReading) (w.db.ledger room)
        (input.record room n now) (by simp [record, ht])
        (by simp [record, hledger, he])
        (by simp [record, hledger, hrev]) hfresh
      have heq : (epochPart input now state).foldl (ledgerWrite room)
          ((w.db.apply (.insertControl (input.record room n now))).ledger room)
          = { (w.db.ledger room).append (input.record room n now) with
              epoch := (w.db.ledger room).epoch + 1, phase := .active } := by
        simp only [epochPart, if_pos ht, foldl_cons, foldl_nil, ledgerWrite, hstate,
          if_true, happ]
        simp only [hledger, Ledger.append, he]
        rfl
      exact heq ▸ hstep
    · have hstep := Ledger.Step.welcome (R := controlReading) (w.db.ledger room)
        (input.record room n now) (by simp [record, ht])
        (by rw [hledger]; exact h0)
        (by simp [record, hledger, he])
        (by simp [record, hledger, hrev]) hfresh
      have heq : (epochPart input now state).foldl (ledgerWrite room)
          ((w.db.apply (.insertControl (input.record room n now))).ledger room)
          = (w.db.ledger room).append (input.record room n now) := by
        rw [epochPart, if_neg (by simp [ht])]
        exact happ
      exact heq ▸ hstep
  · have hne : Untouched room (epochPart input now state ++ rest) := by
      intro wr hwr
      rcases mem_append.1 hwr with hwr | hwr
      · simp only [epochPart] at hwr
        split at hwr
        · rw [mem_singleton.1 hwr, ledgerRoom]
          have : state.roomId = roomId := Table.key_of_get hp.row
          simpa [this] using Ne.symm hr
        · simp at hwr
      · exact hn.untouched room wr hwr
    rw [hne.ledger]
    have hins : (insertControl (input.record roomId n now)).ledgerRoom ≠ some room := by
      simpa [ledgerRoom, record] using Ne.symm hr
    have hsame : (e2eeBackend.apply w.db (.insertControl (input.record roomId n now))).ledger room
        = w.db.ledger room := ledger_apply_of_ne hins w.db
    rw [hsame]

/-- A call that is about to commit moves the ledgers. -/
theorem steps_of_commit (h : Assertion w tx) (hs : tx.stmt w locked = .commit out) (room : Uuid) :
    Ledger.Steps controlReading (w.db.ledger room) ((tx.see w.db).ledger room) := by
  obtain ⟨req, now, born, stage, locks, writes, covered⟩ := tx
  cases hr : req.isSubmit with
  | false => exact ((at_iff hr stage).1 h).steps room
  | true =>
    cases req with
    | submitControlMessage roomId userId input =>
      obtain ⟨m, -, rfl | rfl⟩ := submit_commit hs
      · subst h
        exact refl
      · simp only [Assertion, At] at h
        obtain ⟨state, rest, hi, hn, rfl⟩ := h
        exact steps_of_inserted hi hn room
    | _ => simp [Request.isSubmit] at hr

/-- A control message in the committed rows was there before or is the one the call
inserted. -/
theorem mem_controls_of_commit (h : Assertion w tx) (hs : tx.stmt w locked = .commit out)
    (hm : m ∈ (tx.see w.db).controls.rows) :
    m ∈ w.db.controls.rows ∨ 0 < m.sequenceNo ∧ m.sequenceNo < w.seq := by
  obtain ⟨req, now, born, stage, locks, writes, covered⟩ := tx
  cases hr : req.isSubmit with
  | false =>
    rw [Program.Tx.see, controls_applyAll ((at_iff hr stage).1 h).controlFree] at hm
    exact Or.inl hm
  | true =>
    cases req with
    | submitControlMessage roomId userId input =>
      obtain ⟨x, -, rfl | rfl⟩ := submit_commit hs
      · subst h
        exact Or.inl hm
      · simp only [Assertion, At] at h
        obtain ⟨state, rest, hi, hn, rfl⟩ := h
        rw [Program.Tx.see, applyAll_cons, controls_applyAll
          ((controlFree_epochPart input now state).append hn.controlFree)] at hm
        rcases Table.mem_insert hm with hm | rfl
        · exact Or.inl hm
        · obtain ⟨n, rfl, hp⟩ := hi.placed
          exact Or.inr ⟨hp.positive, hp.drawn⟩
    | _ => simp [Request.isSubmit] at hr

/-! ### The outline -/

theorem inv_commit (hinv : Inv w) (h : Assertion w tx) (hs : tx.stmt w locked = .commit out) :
    Inv (e2eeBackend.commit w tx out) where
  sound := fun room => (hinv.sound room).steps (steps_of_commit h hs room)
  drawn := by
    intro m hm
    rcases mem_controls_of_commit h hs hm with hm | hlt
    · exact hinv.drawn m hm
    · exact hlt
  started := hinv.started
  versions := by
    rw [past_commit, db_commit, pairwise_append]
    refine ⟨hinv.versions, pairwise_singleton _ _, fun a ha b hb room => ?_⟩
    rw [mem_singleton.1 hb]
    refine Relation.ReflTransGen.trans ?_ (steps_of_commit h hs room)
    rcases mem_append.1 ha with ha | ha
    · exact (pairwise_append.1 hinv.versions).2.2 a ha w.db (by simp) room
    · rw [mem_singleton.1 ha]

/-- **The outline of the control log.** -/
theorem outline : Program.Outline e2eeBackend (fun _ => True) (fun _ _ => True) Inv Assertion where
  quiet := by
    intro w w' hq hinv
    refine ⟨by rw [hq.db]; exact hinv.sound, ?_, Nat.lt_of_lt_of_le hinv.started hq.seq,
      by rw [hq.past, hq.db]; exact hinv.versions⟩
    intro m hm
    rw [hq.db] at hm
    exact ⟨(hinv.drawn m hm).1, Nat.lt_of_lt_of_le (hinv.drawn m hm).2 hq.seq⟩
  stable := by
    intro w w' u hl hu
    obtain ⟨req, now, born, stage, locks, writes, covered⟩ := u
    cases hr : req.isSubmit with
    | false =>
      refine (at_iff hr stage).2 ?_
      rw [hl.db]
      exact (at_iff hr stage).1 hu
    | true =>
      cases req with
      | submitControlMessage roomId userId input =>
        exact SubmitAt.agree (w := w) hu
          ⟨hl.seq, fun _ => by rw [hl.db], fun _ => by rw [hl.db], fun _ _ => by rw [hl.db]⟩
      | _ => simp [Request.isSubmit] at hr
  start := by
    intro w r _ _
    cases hr : r.isSubmit with
    | false =>
      refine (at_iff hr _).2 (Neutral.epochWrites ?_ w.db)
      intro wr hwr
      simp [Program.Tx.begin] at hwr
    | true =>
      cases r with
      | submitControlMessage => exact rfl
      | _ => simp [Request.isSubmit] at hr
  next := by
    intro w tx locked loc ls ws n _ _ hinv h hs
    obtain ⟨req, now, born, stage, locks, writes, covered⟩ := tx
    cases hr : req.isSubmit with
    | false =>
      refine (at_iff hr loc).2 ?_
      exact ((at_iff hr stage).1 h).append (epochWrites_of_next hr hs)
    | true =>
      cases req with
      | submitControlMessage roomId userId input =>
        have hnext := submit_next hs
        exact submitAt_next hinv h hnext
      | _ => simp [Request.isSubmit] at hr
  commit := fun _ _ hinv h hs _ => inv_commit hinv h hs
  other := fun _ _ _ _ ht hu hc _ => assertion_other ht hu hc
  reject := fun _ _ hinv _ _ => ⟨hinv.sound, hinv.drawn, hinv.started, hinv.versions⟩

/-- A freshly migrated database is in order. -/
theorem inv_init {db : Db} (h : db.Initial) : Inv (World.init db) where
  sound := by
    intro room
    have hlog : db.controlLog room = [] := by simp [Db.controlLog, h.controls]
    show (db.ledger room).Sound controlReading
    cases hget : db.epochs.get room with
    | none =>
      simp only [Db.ledger, hget, hlog]
      exact Ledger.sound_empty (by simp)
    | some e =>
      obtain ⟨-, he, hs⟩ := h.epochs e (Table.mem_of_get hget)
      simp only [Db.ledger, hget, hlog, he, hs]
      exact Ledger.sound_empty (by simp [EpochStatus.phase])
  drawn := by
    intro m hm
    rw [show (World.init db : Backend.World).db = db from rfl, h.controls] at hm
    simp at hm
  started := Nat.one_pos
  versions := pairwise_singleton _ _

theorem holds {db : Db} (h : db.Initial) : Program.Holds e2eeBackend db Inv Assertion :=
  outline.holds (holds_true db) (inv_init h)

end ControlLog

variable {s : Backend.State}

theorem Backend.Reachable.controlLog (hs : Backend.Reachable s) : ControlLog.Inv s.toWorld := by
  obtain ⟨db, hdb, hr⟩ := hs
  exact (ControlLog.holds hdb s hr).1

theorem Backend.Reachable.assertion (hs : Backend.Reachable s) {i : ℕ} {tx : Backend.Tx}
    (htx : s.tx i = some tx) : ControlLog.Assertion s.toWorld tx := by
  obtain ⟨db, hdb, hr⟩ := hs
  exact (ControlLog.holds hdb s hr).2 i tx htx

/-- **Runs refine the ledger.**  Along every run the ledger of every room makes ledger
moves only. -/
theorem ledger_steps_of_reach {s' : Backend.State} (hs : Backend.Reachable s)
    (h : Program.Reach s s') (roomId : Uuid) :
    Ledger.Steps controlReading (s.db.ledger roomId) (s'.db.ledger roomId) := by
  induction h with
  | refl => exact refl
  | @step s₁ s₂ a hr _ hstep ih =>
    have hs₁ := hs.reach hr
    refine ih.trans ?_
    cases step_cases hstep with
    | commit i tx out htx hstmt => exact ControlLog.steps_of_commit (hs₁.assertion htx) hstmt roomId
    | begin | next | reject | abort | tick => exact refl

/-- What is true of a room's accepted control messages and its epoch row. -/
structure RoomInvariant (db : Db) (e : RoomEpoch) : Prop where
  /-- The messages stand in the order of their sequence numbers. -/
  ordered : (db.controlLog e.roomId).Pairwise fun a b => a.sequenceNo < b.sequenceNo
  /-- The commits carry the epochs `1, 2, …, active_epoch` in this order. -/
  numbered : ((db.controlLog e.roomId).filter fun m => m.contentType = .commit).map
    ControlMessage.epoch = range' 1 e.activeEpoch
  /-- A welcome carries the epoch of the latest commit before it. -/
  welcomed : ∀ m ∈ db.controlLog e.roomId, m.contentType = .welcome →
    ∃ c ∈ db.controlLog e.roomId, c.contentType = .commit ∧ c.sequenceNo < m.sequenceNo ∧
      c.epoch = m.epoch ∧ ∀ c' ∈ db.controlLog e.roomId, c'.contentType = .commit →
        c'.sequenceNo < m.sequenceNo → c'.sequenceNo ≤ c.sequenceNo
  /-- An active room has exactly one commit of its epoch, made under its revision. -/
  active : e.status = .active →
    ∃ c ∈ db.controlLog e.roomId, c.contentType = .commit ∧ c.epoch = e.activeEpoch ∧
      c.membershipRevision = e.membershipRevision ∧
      ∀ c' ∈ db.controlLog e.roomId, c'.contentType = .commit → c'.epoch = e.activeEpoch → c' = c

/-- **The control log of every room is in order.**  In every reachable state the epoch
row of a room and its control messages satisfy `RoomInvariant`, a room without an epoch
row has no control messages, and no later state has a smaller membership revision. -/
theorem control_log_invariant {s : Backend.State} (hs : Backend.Reachable s) (roomId : Uuid) :
    (s.db.epochs.get roomId = none → s.db.controlLog roomId = []) ∧
      ∀ e, s.db.epochs.get roomId = some e → RoomInvariant s.db e ∧
        ∀ s', Program.Reach s s' → ∀ e', s'.db.epochs.get roomId = some e' →
          e.membershipRevision ≤ e'.membershipRevision := by
  have hsound := hs.controlLog.sound roomId
  have hcommit : ∀ c, c ∈ (s.db.ledger roomId).commits controlReading ↔
      c ∈ s.db.controlLog roomId ∧ c.contentType = .commit := by
    intro c
    simp [Ledger.commits]
  refine ⟨fun hnone => ?_, fun e he => ⟨?_, fun s' hr e' he' => ?_⟩⟩
  · rw [← Db.entries_ledger]
    refine hsound.entries_of_epoch_zero ?_
    simp only [Db.ledger, hnone]
  · have hroom : e.roomId = roomId := Table.key_of_get he
    subst hroom
    have hl := Db.ledger_of_get he
    have hent := Db.entries_ledger s.db e.roomId
    refine ⟨?_, ?_, fun m hm ht => ?_, fun ha => ?_⟩
    · have := hsound.sorted
      rwa [hent] at this
    · have := hsound.numbered
      rw [Ledger.commits, hent, hl] at this
      exact this
    · obtain ⟨c, hc, hlt, hep, hlast⟩ := hsound.commit_before (e := m) (by rwa [hent])
        (by simp [ht])
      exact ⟨c, ((hcommit c).1 hc).1, ((hcommit c).1 hc).2, hlt, hep,
        fun c' hc' ht' => hlast c' ((hcommit c').2 ⟨hc', ht'⟩)⟩
    · obtain ⟨c, hc, hep, hrev, huniq⟩ := hsound.commit_of_active (by rw [hl]; simpa using ha)
      rw [hl] at hep hrev huniq
      exact ⟨c, ((hcommit c).1 hc).1, ((hcommit c).1 hc).2, hep, hrev,
        fun c' hc' ht' he' => huniq c' (by rw [← hl]; exact (hcommit c').2 ⟨hc', ht'⟩) he'⟩
  · have := (ledger_steps_of_reach hs hr roomId).extends.revision
    rwa [Db.ledger_of_get he, Db.ledger_of_get he'] at this

/-- The room of the sample after a Commit and its Welcome. -/
def Sample.afterWelcome : Backend.State :=
  (run Sample.start
    (Sample.alone 5 9 (.submitControlMessage 1 1 (Sample.control 50 1 2 11 none .commit))
      ++ Sample.alone 6 9
        (.submitControlMessage 1 1 (Sample.control 51 1 2 11 (some 21) .welcome)))).get (by decide)

theorem Sample.reachable_afterWelcome : Backend.Reachable Sample.afterWelcome :=
  Sample.reachable_start.reach (reach_of_run (Option.some_get _).symm)

theorem control_log_invariant_sample :
    (Sample.afterWelcome.db.controlLog 1).map ControlMessage.id = [50, 51] ∧
      ∃ e, Sample.afterWelcome.db.epochs.get 1 = some e ∧
        RoomInvariant Sample.afterWelcome.db e := by
  refine ⟨by decide, _, rfl, ?_⟩
  exact ((control_log_invariant Sample.reachable_afterWelcome 1).2 _ rfl).1

end RedcodeIm
