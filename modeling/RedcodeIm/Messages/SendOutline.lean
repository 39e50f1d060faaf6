import RedcodeIm.Database.System

/-!
# Sending an encrypted message

A send works under the advisory lock of its room, sender and idempotency key, and under a
share lock on the epoch row of its room.  What it has read is therefore still true when
its row is committed.

* `EncryptedMessages.Assertion` — what holds of a send at each of its stages.
* `EncryptedMessages.Inv` — one row for each key, each with the send that created it.
* `EncryptedMessages.outline` — no call disturbs another.
-/

namespace RedcodeIm

open ReadCommitted

/-- The calls that write messages. -/
def Request.isSend : Request → Bool
  | .createEncryptedMessage .. => true
  | _ => false

/-- The row of a message is guarded by its id. -/
theorem guarded_message (id : Uuid) :
    Program.Guarded e2eeBackend (fun db : Db => db.messages.get id) (.message id) := by
  intro db w hw
  cases w with
  | insertMessage m =>
    refine Table.get_insert_ne fun he => ?_
    exact hw (.message m.id, .update) (by simp [e2eeBackend, Write.guards]) (by rw [he])
  | _ => rfl

/-- The epoch row of a room is guarded by the room. -/
theorem guarded_roomEpoch (roomId : Uuid) :
    Program.Guarded e2eeBackend (fun db : Db => db.epochs.get roomId) (.roomEpoch roomId) := by
  intro db w hw
  cases w with
  | putEpoch e =>
    refine Table.get_put_ne fun he => ?_
    exact hw (.roomEpoch e.roomId, .noKeyUpdate) (by simp [e2eeBackend, Write.guards])
      (by rw [he])
  | _ => rfl

variable {m : Message}

/-- A message is either old or one of the rows written. -/
theorem mem_messages_applyAll {ws : List Write} {db : Db}
    (h : m ∈ (e2eeBackend.applyAll db ws).messages.rows) :
    m ∈ db.messages.rows ∨ .insertMessage m ∈ ws := by
  induction ws generalizing db with
  | nil => exact Or.inl h
  | cons w ws ih =>
    rcases ih h with h | h
    · cases w with
      | insertMessage x =>
        rcases Table.mem_insert h with h | rfl
        · exact Or.inl h
        · exact Or.inr List.mem_cons_self
      | _ => exact Or.inl h
    · exact Or.inr (List.mem_cons_of_mem _ h)

/-- The Commit of an epoch stays that. -/
theorem RowsKept.isEpochCommit {db db' : Db} (h : RowsKept db db') {id roomId epoch rev : Uuid}
    (hc : db.isEpochCommit id roomId epoch rev = true) :
    db'.isEpochCommit id roomId epoch rev = true := by
  unfold Db.isEpochCommit at hc ⊢
  cases hm : db.controls.get id with
  | none => simp [hm] at hc
  | some m =>
    have hget := Table.get_of_mem (h.controls m (Table.mem_of_get hm))
    rw [Table.key_of_get hm] at hget
    rw [hm] at hc
    rw [hget]
    exact hc

/-- Two rows of one room, sender and idempotency key. -/
def Message.SameKey (m m' : Message) : Prop :=
  m.roomId = m'.roomId ∧ m.senderId = m'.senderId ∧
    m.encryptedIdempotencyKey = m'.encryptedIdempotencyKey

variable {input : EncryptedMessageInput}

theorem sameKey_iff :
    input.sameKey m = true ↔ m.roomId = input.roomId ∧ m.senderId = input.senderId ∧
      m.encryptedIdempotencyKey = input.idempotencyKey := by
  simp [EncryptedMessageInput.sameKey, and_assoc]

theorem SameKey.of_sameKey {m' : Message} (h : input.sameKey m = true)
    (h' : input.sameKey m' = true) : m.SameKey m' := by
  rw [sameKey_iff] at h h'
  exact ⟨h.1.trans h'.1.symm, h.2.1.trans h'.2.1.symm, h.2.2.trans h'.2.2.symm⟩

theorem sameContent_record (input : EncryptedMessageInput) (now : Timestamp) :
    input.sameContent (input.record now) = true := by
  simp [EncryptedMessageInput.sameContent, EncryptedMessageInput.record]

namespace EncryptedMessages

/-! ## The outline -/

section

variable (w : Backend.World) (born : ℕ) (input : EncryptedMessageInput) (now : Timestamp)
variable (locks : Locks LockKey) (writes : List Write)

/-- The send holds the lock of its key, under which no message is stored. -/
structure Unsent : Prop where
  lock : (.encryptedMessage input.roomId input.senderId input.idempotencyKey, .update) ∈ locks
  absent : ∀ m ∈ w.db.messages.rows, input.sameKey m = false

/-- Its device has been active since the call began. -/
def DeviceSeen : Prop :=
  w.Seen born fun v => v.deviceActive input.senderDeviceId input.senderId = true

/-- The room is active at the epoch of the message, and its epoch row is locked. -/
structure Admitted (state : RoomEpoch) : Prop extends Unsent w input locks where
  device : DeviceSeen w born input
  lockEpoch : (.roomEpoch input.roomId, .share) ∈ locks
  row : w.db.epochs.get input.roomId = some state
  active : state.status = .active
  epoch : state.activeEpoch = input.epoch

/-- Moreover the message names the Commit of that epoch. -/
structure Checked (state : RoomEpoch) : Prop extends Admitted w born input locks state where
  control : w.db.isEpochCommit input.controlMessageId input.roomId input.epoch
    state.membershipRevision = true

/-- What holds of a send at each of its stages. -/
def SendAt : SendStage → Prop
  | .lockKey => writes = []
  | .findExisting => writes = [] ∧
    (.encryptedMessage input.roomId input.senderId input.idempotencyKey, .update) ∈ locks
  | .replay m => writes = [] ∧ m ∈ w.db.messages.rows ∧ input.sameKey m = true ∧
    input.sameContent m = true
  | .checkDevice => writes = [] ∧ Unsent w input locks
  | .lockEpoch => writes = [] ∧ Unsent w input locks ∧ DeviceSeen w born input
  | .checkControl state => writes = [] ∧ Admitted w born input locks state
  | .insertMessage => writes = [] ∧ ∃ state, Checked w born input locks state
  | .commit m => m = input.record now ∧ writes = [.insertMessage m] ∧
    w.db.messages.get m.id = none ∧ (.message m.id, .update) ∈ locks ∧
    ∃ state, Checked w born input locks state

end

/-- What holds of a call at a stage. -/
def At (w : Backend.World) (born : ℕ) (now : Timestamp) (locks : Locks LockKey)
    (writes : List Write) : (r : Request) → r.Stage → Prop
  | .createEncryptedMessage input, stage => SendAt w born input now locks writes stage
  | _, _ => True

/-- The assertion of a call in flight. -/
def Assertion (w : Backend.World) (tx : Backend.Tx) : Prop :=
  At w tx.born tx.now tx.locks tx.writes tx.req tx.loc

/-- One row for each room, sender and idempotency key, and for each row the send that
created it. -/
structure Inv (w : Backend.World) : Prop where
  unique : ∀ m ∈ w.db.messages.rows, ∀ m' ∈ w.db.messages.rows, m.SameKey m' → m = m'
  origin : ∀ m ∈ w.db.messages.rows, ∃ f ∈ w.hist, ∃ input,
    f.req = .createEncryptedMessage input ∧ f.result = .ok (.message m true)

/-! ### Non-interference -/

variable {w : Backend.World} {input : EncryptedMessageInput} {m : Message}

/-- A send that has inserted its row holds the lock of the row's key. -/
theorem SendAt.lock {born : ℕ} {now : Timestamp} {locks : Locks LockKey} {writes : List Write}
    {stage : SendStage} (h : SendAt w born input now locks writes stage)
    (hm : .insertMessage m ∈ writes) :
    (.encryptedMessage m.roomId m.senderId m.encryptedIdempotencyKey, .update) ∈ locks := by
  cases stage with
  | lockKey => simp [show writes = [] from h] at hm
  | commit x =>
    obtain ⟨rfl, rfl, -, -, state, hc⟩ := h
    rw [List.mem_singleton, Write.insertMessage.injEq] at hm
    rw [hm]
    exact hc.lock
  | _ => simp [h.1] at hm

variable {tx : Backend.Tx}

/-- Whoever has inserted a message holds the lock of its key. -/
theorem lock_of_insertMessage (ht : Backend.InTables tx) (h : Assertion w tx)
    (hm : .insertMessage m ∈ tx.writes) :
    (.encryptedMessage m.roomId m.senderId m.encryptedIdempotencyKey, .update) ∈ tx.locks := by
  obtain ⟨req, now, born, stage, locks, writes, covered⟩ := tx
  have htable := ht _ hm
  cases req with
  | createEncryptedMessage input => exact SendAt.lock h hm
  | _ => simp [Write.table, Request.tables] at htable

/-- While a send holds the lock of its key, no other inserts a message under it. -/
theorem absent_of_lock {w : Backend.World} {tx u : Backend.Tx} (ht : Backend.InTables tx)
    (h : Assertion w tx) (hc : Locks.compatible tx.locks u.locks = true)
    {input : EncryptedMessageInput} (hu : Unsent w input u.locks) :
    ∀ m ∈ (tx.see w.db).messages.rows, input.sameKey m = false := by
  intro m hm
  rcases mem_messages_applyAll hm with hm | hm
  · exact hu.absent m hm
  · by_contra hsame
    rw [Bool.not_eq_false, sameKey_iff] at hsame
    have hheld := lock_of_insertMessage ht h hm
    rw [hsame.1, hsame.2.1, hsame.2.2] at hheld
    have := Locks.not_isWrite_of_protects (Locks.compatible_comm hc) hu.lock rfl hheld
    simp [LockMode.isWrite] at this

section

variable {w w' : Backend.World} {born : ℕ} {input : EncryptedMessageInput} {now : Timestamp}
  {locks : Locks LockKey} {writes : List Write}

/-- What a send relies on, as far as the committed rows go. -/
structure Agree (w w' : Backend.World) (born : ℕ) (input : EncryptedMessageInput)
    (locks : Locks LockKey) : Prop where
  kept : RowsKept w.db w'.db
  seen : ∀ p, w.Seen born p → w'.Seen born p
  absent : Unsent w input locks → ∀ m ∈ w'.db.messages.rows, input.sameKey m = false
  epochs : (.roomEpoch input.roomId, .share) ∈ locks →
    w'.db.epochs.get input.roomId = w.db.epochs.get input.roomId
  message : ∀ id, (LockKey.message id, LockMode.update) ∈ locks →
    w'.db.messages.get id = w.db.messages.get id

theorem Unsent.agree (h : Unsent w input locks) (ha : Agree w w' born input locks) :
    Unsent w' input locks :=
  ⟨h.lock, ha.absent h⟩

variable {state : RoomEpoch}

theorem Admitted.agree (h : Admitted w born input locks state) (ha : Agree w w' born input locks) :
    Admitted w' born input locks state :=
  ⟨h.toUnsent.agree ha, ha.seen _ h.device, h.lockEpoch, by rw [ha.epochs h.lockEpoch, h.row],
    h.active, h.epoch⟩

theorem Checked.agree (h : Checked w born input locks state) (ha : Agree w w' born input locks) :
    Checked w' born input locks state :=
  ⟨h.toAdmitted.agree ha, ha.kept.isEpochCommit h.control⟩

theorem Unsent.grow (h : Unsent w input locks) (more : Locks LockKey) :
    Unsent w input (locks ++ more) :=
  ⟨List.mem_append_left _ h.lock, h.absent⟩

theorem Admitted.grow (h : Admitted w born input locks state) (more : Locks LockKey) :
    Admitted w born input (locks ++ more) state :=
  ⟨h.toUnsent.grow more, h.device, List.mem_append_left _ h.lockEpoch, h.row, h.active, h.epoch⟩

theorem Checked.grow (h : Checked w born input locks state) (more : Locks LockKey) :
    Checked w born input (locks ++ more) state :=
  ⟨h.toAdmitted.grow more, h.control⟩

theorem SendAt.agree {stage : SendStage} (h : SendAt w born input now locks writes stage)
    (ha : Agree w w' born input locks) : SendAt w' born input now locks writes stage := by
  cases stage with
  | lockKey | findExisting => exact h
  | replay m => exact ⟨h.1, ha.kept.messages m h.2.1, h.2.2⟩
  | lockEpoch => exact ⟨h.1, h.2.1.agree ha, ha.seen _ h.2.2⟩
  | insertMessage =>
    obtain ⟨hw, state, hc⟩ := h
    exact ⟨hw, state, hc.agree ha⟩
  | commit m =>
    obtain ⟨hm, hw, hget, hl, state, hc⟩ := h
    exact ⟨hm, hw, by rw [ha.message _ hl, hget], hl, state, hc.agree ha⟩
  | _ => exact ⟨h.1, h.2.agree ha⟩

end

/-! ### The statements -/

theorem findMessage_eq_none {db : Db} (h : db.findMessage input = none) :
    ∀ m ∈ db.messages.rows, input.sameKey m = false := by
  intro m hm
  simpa using List.find?_eq_none.1 h m hm

variable {locked : LockKey → LockMode → Bool}

theorem sendAt_next {born : ℕ} {now : Timestamp} {locks : Locks LockKey} {writes : List Write}
    {stage stage' : SendStage} {ls : Locks LockKey} {ws : List Write} (hb : born ≤ w.past.length)
    (h : SendAt w born input now locks writes stage)
    (hs : SendNext input
      { db := e2eeBackend.applyAll w.db writes, seq := w.seq, now := now, locked := locked }
      stage stage' ls ws) :
    SendAt w born input now (locks ++ ls ++ ws.flatMap Write.guards) (writes ++ ws) stage' := by
  rw [List.append_assoc]
  cases hs with
  | lockKey =>
    have hw : writes = [] := h
    subst hw
    exact ⟨rfl, by simp⟩
  | replay m hf hsame =>
    obtain ⟨rfl, -⟩ := h
    exact ⟨rfl, List.mem_of_find?_eq_some hf, List.find?_some hf, hsame⟩
  | fresh hf =>
    obtain ⟨rfl, hl⟩ := h
    exact ⟨rfl, List.mem_append_left _ hl, findMessage_eq_none hf⟩
  | checkDevice hd =>
    obtain ⟨rfl, hu⟩ := h
    exact ⟨rfl, hu.grow _, World.seen_of_db hb hd⟩
  | lockEpoch state he hst ha =>
    obtain ⟨rfl, hu, hd⟩ := h
    exact ⟨rfl, hu.grow _, hd, by simp, he, hst, ha⟩
  | checkControl state hc =>
    obtain ⟨rfl, ha⟩ := h
    exact ⟨rfl, state, ha.grow _, hc⟩
  | insertMessage hi hf =>
    obtain ⟨rfl, state, hc⟩ := h
    exact ⟨rfl, rfl, hi, by simp [Write.guards, EncryptedMessageInput.record], state, hc.grow _⟩

/-! ### What a commit does -/

/-- A send that is about to commit either replays a stored row and has written nothing, or
has written its row. -/
theorem send_of_commit {created : Bool} (h : Assertion w tx)
    (hs : tx.stmt w locked = .commit (.message m created)) :
    ∃ input, tx.req = .createEncryptedMessage input ∧
      ((created = false ∧ tx.writes = [] ∧ m ∈ w.db.messages.rows ∧ input.sameKey m = true ∧
          input.sameContent m = true) ∨
        (created = true ∧ m = input.record tx.now ∧ tx.writes = [.insertMessage m] ∧
          w.db.messages.get m.id = none ∧ ∃ state, Checked w tx.born input tx.locks state)) := by
  have hans : tx.req.answers (.message m created) := answers_of_commit hs
  obtain ⟨req, now, born, stage, locks, writes, covered⟩ := tx
  cases req with
  | createEncryptedMessage input =>
    refine ⟨input, rfl, ?_⟩
    obtain ⟨x, rfl, hout⟩ | ⟨x, rfl, hout⟩ := send_commit hs
    · obtain ⟨rfl, rfl⟩ := Response.message.inj hout
      exact Or.inl ⟨rfl, h⟩
    · obtain ⟨rfl, rfl⟩ := Response.message.inj hout
      obtain ⟨hm, hw, hget, -, hc⟩ := h
      exact Or.inr ⟨rfl, hm, hw, hget, hc⟩
  | _ => simp [Request.answers] at hans

/-- Only a send that creates its row writes a message. -/
theorem message_of_commit {out : Response} (ht : Backend.InTables tx) (h : Assertion w tx)
    (hs : tx.stmt w locked = .commit out) (hm : .insertMessage m ∈ tx.writes) :
    out = .message m true := by
  have htable := ht _ hm
  obtain ⟨req, now, born, stage, locks, writes, covered⟩ := tx
  change .insertMessage m ∈ writes at hm
  cases req with
  | createEncryptedMessage input =>
    obtain ⟨x, rfl, rfl⟩ | ⟨x, rfl, rfl⟩ := send_commit hs
    · obtain ⟨hw, -⟩ := h
      have hw : writes = [] := hw
      simp [hw] at hm
    · obtain ⟨-, hw, -⟩ := h
      have hw : writes = [.insertMessage x] := hw
      rw [hw, List.mem_singleton, Write.insertMessage.injEq] at hm
      rw [hm]
  | _ => simp [Write.table, Request.tables] at htable

theorem inv_commit {out : Response} (ht : Backend.InTables tx) (hA : Assertion w tx) (h : Inv w)
    (hs : tx.stmt w locked = .commit out) : Inv (e2eeBackend.commit w tx out) := by
  have hnew : ∀ m, .insertMessage m ∈ tx.writes → out = .message m true ∧
      (∃ input, tx.req = .createEncryptedMessage input) ∧
      ∀ x ∈ w.db.messages.rows, ¬ x.SameKey m := by
    intro m hm
    have hout := message_of_commit ht hA hs hm
    subst hout
    obtain ⟨input, hreq, ⟨hf, -⟩ | ⟨-, hrec, -, -, state, hc⟩⟩ := send_of_commit hA hs
    · cases hf
    · refine ⟨rfl, ⟨input, hreq⟩, fun x hx hsame => ?_⟩
      have hkey : input.sameKey x = true := by
        rw [hrec] at hsame
        exact sameKey_iff.2 hsame
      rw [hc.absent x hx] at hkey
      cases hkey
  refine ⟨fun m hm m' hm' hsame => ?_, fun m hm => ?_⟩
  · rcases mem_messages_applyAll hm with hm | hm <;> rcases mem_messages_applyAll hm' with hm' | hm'
    · exact h.unique m hm m' hm' hsame
    · exact absurd hsame ((hnew m' hm').2.2 m hm)
    · exact absurd ⟨hsame.1.symm, hsame.2.1.symm, hsame.2.2.symm⟩ ((hnew m hm).2.2 m' hm')
    · have he := (hnew m hm).1.symm.trans (hnew m' hm').1
      exact (Response.message.inj he).1
  · rcases mem_messages_applyAll hm with hm | hm
    · obtain ⟨f, hf, hres⟩ := h.origin m hm
      exact ⟨f, List.mem_append_left _ hf, hres⟩
    · obtain ⟨rfl, ⟨input, hreq⟩, -⟩ := hnew m hm
      exact ⟨_, List.mem_append_right _ (List.mem_singleton_self _), input, hreq, rfl⟩

/-- **The outline of the messages.** -/
theorem outline : Program.Outline e2eeBackend (fun _ => True)
    (fun w tx => Backend.InTables tx ∧ tx.born ≤ w.past.length) Inv Assertion where
  quiet := fun {w w'} hq h =>
    ⟨by rw [hq.db]; exact h.unique, by rw [hq.db, hq.hist]; exact h.origin⟩
  stable := by
    intro w w' u hl h
    obtain ⟨req, now, born, stage, locks, writes, covered⟩ := u
    cases req with
    | createEncryptedMessage input =>
      refine SendAt.agree (w := w) h ⟨?_, fun p hp => hl.seen hp, ?_, ?_, ?_⟩
      · rw [hl.db]
        exact .refl _
      · rw [hl.db]
        exact fun hu => hu.absent
      · rw [hl.db]
        exact fun _ => rfl
      · rw [hl.db]
        exact fun _ _ => rfl
    | _ => trivial
  start := by
    intro w r _ _
    cases r <;> first | exact rfl | trivial
  next := by
    intro w tx locked loc ls ws n _ hB _ h hs
    obtain ⟨req, now, born, stage, locks, writes, covered⟩ := tx
    cases req with
    | createEncryptedMessage input =>
      obtain ⟨hnext, rfl⟩ := send_next hs
      exact sendAt_next hB.2 h hnext
    | _ => trivial
  commit := fun _ hB h hA hs _ => inv_commit hB.1 hA h hs
  other := by
    intro w tx u locked out _ hB _ _ h hu hc _
    have habsent := @absent_of_lock w tx u hB.1 h hc
    have hmessage : ∀ id, (LockKey.message id, LockMode.update) ∈ u.locks →
        (tx.see w.db).messages.get id = w.db.messages.get id :=
      fun id hl => (guarded_message id).see_eq hc hl rfl w.db
    have hepoch : ∀ roomId, (LockKey.roomEpoch roomId, LockMode.share) ∈ u.locks →
        (tx.see w.db).epochs.get roomId = w.db.epochs.get roomId :=
      fun roomId hl => (guarded_roomEpoch roomId).see_eq hc hl rfl w.db
    obtain ⟨req, now, born, stage, locks, writes, covered⟩ := u
    cases req with
    | createEncryptedMessage input =>
      exact SendAt.agree (w := w) hu ⟨rowsKept_applyAll tx.writes w.db,
        fun p hp => Program.seen_commit hp tx out, habsent, hepoch input.roomId, hmessage⟩
    | _ => trivial
  reject := by
    intro w tx locked err _ _ h _ _
    refine ⟨h.unique, fun m hm => ?_⟩
    obtain ⟨f, hf, hres⟩ := h.origin m hm
    exact ⟨f, List.mem_append_left _ hf, hres⟩

end EncryptedMessages

end RedcodeIm
