import RedcodeIm.Database.ControlStore

/-!
# The store of encrypted messages

`create_encrypted_message_with_parts` of `message_store.rs` together with
`validate_application_send_conn` of `e2ee_control_store.rs`, which it calls inside its
transaction; one stage for each SQL statement.
-/

namespace RedcodeIm

open ReadCommitted (Outcome)

/-- The arguments of `create_encrypted_message_with_parts`, with the id the function
generates for a new row. -/
structure EncryptedMessageInput where
  messageId : Uuid
  roomId : Uuid
  senderId : Uuid
  contentSummary : String
  encryptedContent : Bytes
  encryptionMetadata : Option EncryptionMetadata
  quotedMessageId : Option Uuid
  idempotencyKey : Uuid
  senderDeviceId : Uuid
  epoch : ℕ
  controlMessageId : Uuid
  deriving DecidableEq

/-- The row a new message inserts. -/
def EncryptedMessageInput.record (input : EncryptedMessageInput) (now : Timestamp) : Message where
  id := input.messageId
  roomId := input.roomId
  senderId := input.senderId
  content := input.contentSummary
  encryptedContent := some input.encryptedContent
  encryptionMetadata := input.encryptionMetadata
  quotedMessageId := input.quotedMessageId
  encryptedIdempotencyKey := input.idempotencyKey
  createdAt := now

/-- The stored row has the content of the request. -/
def EncryptedMessageInput.sameContent (input : EncryptedMessageInput) (m : Message) : Bool :=
  m.encryptedContent = some input.encryptedContent
    && m.encryptionMetadata = input.encryptionMetadata
    && m.quotedMessageId = input.quotedMessageId

/-- The stored row has the room, sender and idempotency key of the request. -/
def EncryptedMessageInput.sameKey (input : EncryptedMessageInput) (m : Message) : Bool :=
  m.roomId = input.roomId && m.senderId = input.senderId
    && m.encryptedIdempotencyKey = input.idempotencyKey

/-- The message stored under the room, sender and idempotency key of the request. -/
def Db.findMessage (db : Db) (input : EncryptedMessageInput) : Option Message :=
  db.messages.rows.find? input.sameKey

/-- The control message is the Commit of an epoch under a membership revision. -/
def Db.isEpochCommit (db : Db) (controlMessageId roomId epoch membershipRevision : Uuid) : Bool :=
  match db.controls.get controlMessageId with
  | some m =>
    m.roomId = roomId && m.contentType = .commit && m.epoch = epoch
      && m.membershipRevision = membershipRevision
  | none => false

/-- The statements of `create_encrypted_message_with_parts`. -/
inductive SendStage where
  | lockKey
  | findExisting
  | replay (existing : Message)
  | checkDevice
  | lockEpoch
  | checkControl (state : RoomEpoch)
  | insertMessage
  | commit (record : Message)
  deriving DecidableEq

/-- `create_encrypted_message_with_parts`; the stages `checkDevice`, `lockEpoch` and
`checkControl` are `validate_application_send_conn`. -/
def createEncryptedMessage (input : EncryptedMessageInput) (v : DbView) :
    SendStage → StatementOutcome SendStage
  | .lockKey =>
    .next .findExisting
      [(.encryptedMessage input.roomId input.senderId input.idempotencyKey, .update)] [] 0
  | .findExisting =>
    match v.db.findMessage input with
    | some existing =>
      if input.sameContent existing then
        .next (.replay existing) [(.message existing.id, .update)] [] 0
      else .fail (.messageRuntimeConflict "encrypted idempotency_key 已绑定其他消息内容")
    | none => .next .checkDevice [] [] 0
  | .replay existing => .commit (.message existing false)
  | .checkDevice =>
    if v.db.deviceActive input.senderDeviceId input.senderId then .next .lockEpoch [] [] 0
    else .fail (.forbidden "加密消息发送设备不存在、未批准或已撤销")
  | .lockEpoch =>
    match v.db.epochs.get input.roomId with
    | some state =>
      if v.locked (.roomEpoch input.roomId) .share then .wait
      else if state.status ≠ .active then
        .fail (.messageRuntimeConflict "房间 E2EE 状态未就绪或需要 rekey")
      else if state.activeEpoch ≠ input.epoch then
        .fail (.messageRuntimeConflict s!"消息 epoch 已过期，当前 active epoch 为 {state.activeEpoch}")
      else .next (.checkControl state) [(.roomEpoch input.roomId, .share)] [] 0
    | none => .fail (.messageRuntimeConflict "房间尚未建立 E2EE epoch")
  | .checkControl state =>
    if v.db.isEpochCommit input.controlMessageId input.roomId input.epoch
        state.membershipRevision then
      .next .insertMessage [] [] 0
    else .fail (.messageRuntimeConflict "control_message_id 未引用当前 epoch 的 Commit")
  | .insertMessage =>
    let record := input.record v.now
    if (v.db.messages.get record.id).isSome || (v.db.findMessage input).isSome then
      .fail .databaseError
    else .next (.commit record) [] [.insertMessage record] 0
  | .commit record => .commit (.message record true)

/-- Everything a statement of a send that does not end it can do. -/
inductive SendNext (input : EncryptedMessageInput) (v : DbView) :
    SendStage → SendStage → Locks LockKey → List Write → Prop where
  | lockKey :
      SendNext input v .lockKey .findExisting
        [(.encryptedMessage input.roomId input.senderId input.idempotencyKey, .update)] []
  | replay (existing : Message) (hf : v.db.findMessage input = some existing)
      (hs : input.sameContent existing = true) :
      SendNext input v .findExisting (.replay existing) [(.message existing.id, .update)] []
  | fresh (hf : v.db.findMessage input = none) : SendNext input v .findExisting .checkDevice [] []
  | checkDevice (hd : v.db.deviceActive input.senderDeviceId input.senderId = true) :
      SendNext input v .checkDevice .lockEpoch [] []
  | lockEpoch (state : RoomEpoch) (he : v.db.epochs.get input.roomId = some state)
      (hs : state.status = .active) (ha : state.activeEpoch = input.epoch) :
      SendNext input v .lockEpoch (.checkControl state) [(.roomEpoch input.roomId, .share)] []
  | checkControl (state : RoomEpoch)
      (hc : v.db.isEpochCommit input.controlMessageId input.roomId input.epoch
        state.membershipRevision = true) :
      SendNext input v (.checkControl state) .insertMessage [] []
  | insertMessage (hi : v.db.messages.get input.messageId = none)
      (hf : v.db.findMessage input = none) :
      SendNext input v .insertMessage (.commit (input.record v.now)) []
        [.insertMessage (input.record v.now)]

variable {input : EncryptedMessageInput} {v : DbView} {stage : SendStage}

theorem send_next {stage' : SendStage} {ls : Locks LockKey} {ws : List Write} {n : ℕ}
    (h : createEncryptedMessage input v stage = .next stage' ls ws n) :
    SendNext input v stage stage' ls ws ∧ n = 0 := by
  cases stage with
  | lockKey =>
    cases h
    exact ⟨.lockKey, rfl⟩
  | findExisting =>
    simp only [createEncryptedMessage] at h
    split at h
    · rename_i existing hf
      split at h
      · rename_i hs
        cases h
        exact ⟨.replay existing hf hs, rfl⟩
      · cases h
    · rename_i hf
      cases h
      exact ⟨.fresh hf, rfl⟩
  | replay | commit => cases h
  | checkDevice =>
    simp only [createEncryptedMessage] at h
    split at h
    · rename_i hd
      cases h
      exact ⟨.checkDevice hd, rfl⟩
    · cases h
  | lockEpoch =>
    simp only [createEncryptedMessage] at h
    split at h
    · rename_i state he
      split at h
      · cases h
      · split at h
        · cases h
        · rename_i hs
          split at h
          · cases h
          · rename_i ha
            cases h
            exact ⟨.lockEpoch state he (not_not.1 hs) (not_not.1 ha), rfl⟩
    · cases h
  | checkControl state =>
    simp only [createEncryptedMessage] at h
    split at h
    · rename_i hc
      cases h
      exact ⟨.checkControl state hc, rfl⟩
    · cases h
  | insertMessage =>
    simp only [createEncryptedMessage] at h
    split at h
    · cases h
    · rename_i hc
      rw [Bool.or_eq_true, not_or, Option.not_isSome_iff_eq_none,
        Option.not_isSome_iff_eq_none] at hc
      cases h
      exact ⟨.insertMessage hc.1 hc.2, rfl⟩

theorem send_commit {out : Response} (h : createEncryptedMessage input v stage = .commit out) :
    (∃ m, stage = .replay m ∧ out = .message m false) ∨
      ∃ m, stage = .commit m ∧ out = .message m true := by
  cases stage with
  | replay m =>
    cases h
    exact Or.inl ⟨m, rfl, rfl⟩
  | commit m =>
    cases h
    exact Or.inr ⟨m, rfl, rfl⟩
  | lockKey => cases h
  | findExisting | checkDevice | lockEpoch | checkControl | insertMessage =>
    simp only [createEncryptedMessage] at h
    repeat' split at h
    all_goals cases h

/-- The error of a send whose key is bound to other content. -/
def boundToOther : AppError :=
  .messageRuntimeConflict "encrypted idempotency_key 已绑定其他消息内容"

/-- A send fails because its key is bound to other content, or after it has found its key
unused. -/
theorem send_fail {err : AppError} (h : createEncryptedMessage input v stage = .fail err) :
    (stage = .findExisting ∧ err = boundToOther ∧
      ∃ m, v.db.findMessage input = some m ∧ input.sameContent m = false) ∨
    stage = .checkDevice ∨ stage = .lockEpoch ∨ (∃ state, stage = .checkControl state) ∨
      stage = .insertMessage := by
  cases stage with
  | findExisting =>
    simp only [createEncryptedMessage] at h
    split at h
    · rename_i m hm
      split at h
      · cases h
      · rename_i hs
        cases h
        exact Or.inl ⟨rfl, rfl, m, hm, Bool.not_eq_true _ ▸ hs⟩
    · cases h
  | lockKey | replay | commit => cases h
  | checkDevice => exact Or.inr (Or.inl rfl)
  | lockEpoch => exact Or.inr (Or.inr (Or.inl rfl))
  | checkControl state => exact Or.inr (Or.inr (Or.inr (Or.inl ⟨state, rfl⟩)))
  | insertMessage => exact Or.inr (Or.inr (Or.inr (Or.inr rfl)))

end RedcodeIm
