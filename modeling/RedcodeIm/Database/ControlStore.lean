import Mathlib.Data.List.Sort
import RedcodeIm.Database.Models

/-!
# The control-message store

`E2eeControlStore` of `e2ee_control_store.rs`, one stage for each SQL statement; the
checks a function makes between two statements belong to the stage before them.

* `submitControlMessage` — `submit_control_message`.
* `listControlMessages` — `list_control_messages`.
* `consumeControlMessage` — `consume_control_message`.
* `getRoomEpoch` — `get_room_epoch`.
-/

namespace RedcodeIm

open ReadCommitted (Outcome)

/-- `SubmitControlMessageInput`. -/
structure SubmitControlMessageInput where
  id : Uuid
  epoch : ℕ
  membershipRevision : ℕ
  senderDeviceId : Uuid
  recipientDeviceId : Option Uuid
  contentType : ControlContentType
  envelope : Bytes
  idempotencyKey : Uuid
  deriving DecidableEq

/-- `control_message_matches`. -/
def controlMessageMatches (existing : ControlMessage) (input : SubmitControlMessageInput) : Bool :=
  existing.id = input.id
    && existing.epoch = input.epoch
    && existing.membershipRevision = input.membershipRevision
    && existing.senderDeviceId = input.senderDeviceId
    && existing.recipientDeviceId = input.recipientDeviceId
    && existing.contentType = input.contentType
    && existing.envelope = input.envelope
    && existing.idempotencyKey = input.idempotencyKey

/-- The row an accepted submission inserts. -/
def SubmitControlMessageInput.record (input : SubmitControlMessageInput) (roomId : Uuid)
    (sequenceNo : ℕ) (now : Timestamp) : ControlMessage where
  id := input.id
  roomId := roomId
  epoch := input.epoch
  membershipRevision := input.membershipRevision
  senderDeviceId := input.senderDeviceId
  recipientDeviceId := input.recipientDeviceId
  contentType := input.contentType
  envelope := input.envelope
  idempotencyKey := input.idempotencyKey
  sequenceNo := sequenceNo
  createdAt := now

/-- The `CHECK` constraints of `e2ee_control_messages`. -/
def ControlMessage.checks (m : ControlMessage) : Bool :=
  0 < m.epoch && 0 < m.membershipRevision
    && (m.contentType = .commit || m.contentType = .welcome)
    && 12 ≤ m.envelope.length && m.envelope.length ≤ 16777227

/-- The unique constraints of `e2ee_control_messages` admit the row. -/
def Db.controlUnique (db : Db) (m : ControlMessage) : Bool :=
  db.controls.rows.all fun x => x.id ≠ m.id
    && !(x.roomId = m.roomId && x.idempotencyKey = m.idempotencyKey)
    && !(x.roomId = m.roomId && x.sequenceNo = m.sequenceNo)

/-- The existing control message a submission collides with: the same room and
idempotency key, or the same id. -/
def Db.findControl (db : Db) (roomId : Uuid) (input : SubmitControlMessageInput) :
    Option ControlMessage :=
  db.controls.rows.find? fun m =>
    (m.roomId = roomId && m.idempotencyKey = input.idempotencyKey) || m.id = input.id

/-- The active devices of the current members other than the sender, the recipients of
a Commit. -/
def Db.commitRecipients (db : Db) (roomId senderDeviceId : Uuid) : List Uuid :=
  (db.devices.rows.filter fun d =>
    db.isMember roomId d.userId && d.status = .active && d.id ≠ senderDeviceId).map Device.id

/-- `INSERT INTO e2ee_control_receipts … ON CONFLICT DO NOTHING`. -/
def Db.insertReceipts (db : Db) (controlMessageId : Uuid) (recipients : List Uuid) : List Write :=
  (recipients.filter fun d => db.receipts.get (controlMessageId, d) = none).map fun d =>
    .putReceipt
      { controlMessageId := controlMessageId, recipientDeviceId := d, deliveredAt := none,
        consumedAt := none }

/-- The foreign-key locks on referenced devices. -/
def deviceKeyShares (ids : List Uuid) : Locks LockKey :=
  ids.map fun d => (.device d, .keyShare)

/-! ## `submit_control_message` -/

/-- The statements of `submit_control_message`. -/
inductive SubmitStage where
  | checkSender
  | checkRecipient (recipientDeviceId : Uuid)
  | lockEpoch
  | findExisting (state : RoomEpoch)
  | replay (existing : ControlMessage)
  | drawSequence (state : RoomEpoch)
  | insertControl (state : RoomEpoch) (sequenceNo : ℕ)
  | advanceEpoch (record : ControlMessage)
  | insertReceipts (record : ControlMessage)
  | insertReceipt (record : ControlMessage) (recipientDeviceId : Uuid)
  | lockRecipients (record : ControlMessage) (recipients : List Uuid)
  | commit (record : ControlMessage)
  deriving DecidableEq

/-- The checks of a new submission against the locked room state. -/
def checkSubmission (state : RoomEpoch) (input : SubmitControlMessageInput) : Option AppError :=
  if state.membershipRevision ≠ input.membershipRevision then
    some (.messageRuntimeConflict s!"membership revision 冲突，当前为 {state.membershipRevision}")
  else
    match input.contentType with
    | .commit =>
      if input.epoch = state.activeEpoch + 1 then none
      else some (.messageRuntimeConflict s!"Commit epoch 必须为 {state.activeEpoch + 1}")
    | .welcome =>
      if 0 < state.activeEpoch ∧ input.epoch = state.activeEpoch then none
      else
        some (.messageRuntimeConflict s!"Welcome epoch 必须为当前 active epoch {state.activeEpoch}")
    | .other _ => some (.validationError "控制消息类型无效")

/-- `submit_control_message`. -/
def submitControlMessage (roomId userId : Uuid) (input : SubmitControlMessageInput) (v : DbView) :
    SubmitStage → StatementOutcome SubmitStage
  | .checkSender =>
    if v.db.deviceActive input.senderDeviceId userId && v.db.isMember roomId userId then
      match input.recipientDeviceId with
      | some d => .next (.checkRecipient d) [] [] 0
      | none => .next .lockEpoch [] [] 0
    else .fail (.forbidden "发送设备不是当前房间的可信设备")
  | .checkRecipient d =>
    if v.db.deviceInRoom d roomId then .next .lockEpoch [] [] 0
    else .fail (.forbidden "接收设备不是当前房间的可信设备")
  | .lockEpoch =>
    match v.db.epochs.get roomId with
    | some state => .next (.findExisting state) [(.roomEpoch roomId, .update)] [] 0
    | none => .fail (.notFound "房间 E2EE 状态不存在")
  | .findExisting state =>
    match v.db.findControl roomId input with
    | some existing =>
      if existing.roomId = roomId && controlMessageMatches existing input then
        .next (.replay existing) [(.control existing.id, .update)] [] 0
      else .fail (.messageRuntimeConflict "控制消息 id 或 idempotency_key 已绑定其他内容")
    | none =>
      match checkSubmission state input with
      | some err => .fail err
      | none => .next (.drawSequence state) [] [] 0
  | .replay existing => .commit (.control existing)
  | .drawSequence state => .next (.insertControl state v.seq) [] [] 1
  | .insertControl _ sequenceNo =>
    let record := input.record roomId sequenceNo v.now
    if record.checks && v.db.controlUnique record then
      let stage : SubmitStage :=
        match input.contentType, input.recipientDeviceId with
        | .commit, _ => .advanceEpoch record
        | _, some d => .insertReceipt record d
        | _, none => .commit record
      .next stage
        (deviceKeyShares (input.senderDeviceId :: input.recipientDeviceId.toList))
        [.insertControl record] 0
    else .fail .databaseError
  | .advanceEpoch record =>
    .next (.insertReceipts record) []
      (match v.db.epochs.get roomId with
        | some e =>
          [.putEpoch { e with activeEpoch := input.epoch, status := .active, updatedAt := v.now }]
        | none => []) 0
  | .insertReceipts record =>
    let recipients := v.db.commitRecipients roomId input.senderDeviceId
    .next (.lockRecipients record recipients) [] (v.db.insertReceipts record.id recipients) 0
  | .insertReceipt record d =>
    .next (.lockRecipients record [d]) [] (v.db.insertReceipts record.id [d]) 0
  | .lockRecipients record recipients => .next (.commit record) (deviceKeyShares recipients) [] 0
  | .commit record => .commit (.control record)

/-- Everything a statement of a submission that does not end it can do. -/
inductive SubmitNext (roomId userId : Uuid) (input : SubmitControlMessageInput) (v : DbView) :
    SubmitStage → SubmitStage → Locks LockKey → List Write → ℕ → Prop where
  | checkSender (hs : v.db.deviceActive input.senderDeviceId userId = true)
      (hm : v.db.isMember roomId userId = true) :
      SubmitNext roomId userId input v .checkSender
        (match input.recipientDeviceId with
          | some d => .checkRecipient d
          | none => .lockEpoch) [] [] 0
  | checkRecipient (d : Uuid) (hd : v.db.deviceInRoom d roomId = true) :
      SubmitNext roomId userId input v (.checkRecipient d) .lockEpoch [] [] 0
  | lockEpoch (state : RoomEpoch) (he : v.db.epochs.get roomId = some state) :
      SubmitNext roomId userId input v .lockEpoch (.findExisting state)
        [(.roomEpoch roomId, .update)] [] 0
  | replay (state : RoomEpoch) (existing : ControlMessage)
      (hf : v.db.findControl roomId input = some existing) (hr : existing.roomId = roomId)
      (hm : controlMessageMatches existing input = true) :
      SubmitNext roomId userId input v (.findExisting state) (.replay existing)
        [(.control existing.id, .update)] [] 0
  | accept (state : RoomEpoch) (hf : v.db.findControl roomId input = none)
      (hc : checkSubmission state input = none) :
      SubmitNext roomId userId input v (.findExisting state) (.drawSequence state) [] [] 0
  | drawSequence (state : RoomEpoch) :
      SubmitNext roomId userId input v (.drawSequence state) (.insertControl state v.seq) [] [] 1
  | insertControl (state : RoomEpoch) (sequenceNo : ℕ)
      (hc : (input.record roomId sequenceNo v.now).checks = true)
      (hu : v.db.controlUnique (input.record roomId sequenceNo v.now) = true) :
      SubmitNext roomId userId input v (.insertControl state sequenceNo)
        (match input.contentType, input.recipientDeviceId with
          | .commit, _ => .advanceEpoch (input.record roomId sequenceNo v.now)
          | _, some d => .insertReceipt (input.record roomId sequenceNo v.now) d
          | _, none => .commit (input.record roomId sequenceNo v.now))
        (deviceKeyShares (input.senderDeviceId :: input.recipientDeviceId.toList))
        [.insertControl (input.record roomId sequenceNo v.now)] 0
  | advanceEpoch (record : ControlMessage) :
      SubmitNext roomId userId input v (.advanceEpoch record) (.insertReceipts record) []
        (match v.db.epochs.get roomId with
          | some e =>
            [.putEpoch { e with activeEpoch := input.epoch, status := .active, updatedAt := v.now }]
          | none => []) 0
  | insertReceipts (record : ControlMessage) :
      SubmitNext roomId userId input v (.insertReceipts record)
        (.lockRecipients record (v.db.commitRecipients roomId input.senderDeviceId)) []
        (v.db.insertReceipts record.id (v.db.commitRecipients roomId input.senderDeviceId)) 0
  | insertReceipt (record : ControlMessage) (d : Uuid) :
      SubmitNext roomId userId input v (.insertReceipt record d) (.lockRecipients record [d]) []
        (v.db.insertReceipts record.id [d]) 0
  | lockRecipients (record : ControlMessage) (recipients : List Uuid) :
      SubmitNext roomId userId input v (.lockRecipients record recipients) (.commit record)
        (deviceKeyShares recipients) [] 0

variable {roomId userId : Uuid} {input : SubmitControlMessageInput} {v : DbView}
  {ls : Locks LockKey} {ws : List Write}

/-- A statement of a submission that does not end it is one of these. -/
theorem submit_next {stage stage' : SubmitStage} {n : ℕ}
    (h : submitControlMessage roomId userId input v stage = .next stage' ls ws n) :
    SubmitNext roomId userId input v stage stage' ls ws n := by
  cases stage with
  | checkSender =>
    simp only [submitControlMessage] at h
    split at h
    · rename_i hc
      rw [Bool.and_eq_true] at hc
      have hn := SubmitNext.checkSender (v := v) hc.1 hc.2
      cases hd : input.recipientDeviceId <;> simp only [hd] at h hn <;> cases h <;> exact hn
    · cases h
  | checkRecipient d =>
    simp only [submitControlMessage] at h
    split at h
    · rename_i hc
      cases h
      exact .checkRecipient d hc
    · cases h
  | lockEpoch =>
    simp only [submitControlMessage] at h
    split at h
    · rename_i state he
      cases h
      exact .lockEpoch state he
    · cases h
  | findExisting state =>
    simp only [submitControlMessage] at h
    split at h
    · rename_i existing hf
      split at h
      · rename_i hm
        rw [Bool.and_eq_true, decide_eq_true_eq] at hm
        cases h
        exact .replay state existing hf hm.1 hm.2
      · cases h
    · rename_i hf
      split at h
      · cases h
      · rename_i hc
        cases h
        exact .accept state hf hc
  | replay | commit => cases h
  | drawSequence state =>
    cases h
    exact .drawSequence state
  | insertControl state sequenceNo =>
    simp only [submitControlMessage] at h
    split at h
    · rename_i hc
      rw [Bool.and_eq_true] at hc
      cases h
      exact .insertControl state sequenceNo hc.1 hc.2
    · cases h
  | advanceEpoch record =>
    cases h
    exact .advanceEpoch record
  | insertReceipts record =>
    cases h
    exact .insertReceipts record
  | insertReceipt record d =>
    cases h
    exact .insertReceipt record d
  | lockRecipients record recipients =>
    cases h
    exact .lockRecipients record recipients

/-- A submission commits with an existing message or with a new one. -/
theorem submit_commit {stage : SubmitStage} {out : Response}
    (h : submitControlMessage roomId userId input v stage = .commit out) :
    ∃ m, out = .control m ∧ (stage = .replay m ∨ stage = .commit m) := by
  cases stage with
  | replay m =>
    cases h
    exact ⟨m, rfl, Or.inl rfl⟩
  | commit m =>
    cases h
    exact ⟨m, rfl, Or.inr rfl⟩
  | checkSender | checkRecipient | lockEpoch | findExisting | insertControl =>
    simp only [submitControlMessage] at h
    repeat' split at h
    all_goals cases h
  | drawSequence | advanceEpoch | insertReceipts | insertReceipt | lockRecipients => cases h

/-- What the checks of a new submission establish. -/
theorem checkSubmission_eq_none {state : RoomEpoch} (h : checkSubmission state input = none) :
    input.membershipRevision = state.membershipRevision ∧
      ((input.contentType = .commit ∧ input.epoch = state.activeEpoch + 1) ∨
        (input.contentType = .welcome ∧ 0 < state.activeEpoch ∧
          input.epoch = state.activeEpoch)) := by
  simp only [checkSubmission] at h
  split at h
  · cases h
  · rename_i hr
    refine ⟨by omega, ?_⟩
    cases ht : input.contentType with
    | commit =>
      simp only [ht] at h
      split at h
      · rename_i he
        exact Or.inl ⟨rfl, he⟩
      · cases h
    | welcome =>
      simp only [ht] at h
      split at h
      · rename_i he
        exact Or.inr ⟨rfl, he⟩
      · cases h
    | other text =>
      simp only [ht] at h
      cases h

/-! ## `list_control_messages` -/

/-- The statements of `list_control_messages`. -/
inductive ListStage where
  | checkDevice
  | select
  | lockReceipts (messages : List ControlMessage)
  | markDelivered (messages : List ControlMessage)
  | commit (messages : List ControlMessage)
  deriving DecidableEq

/-- The room's control messages with a receipt for the device and a sequence number
after the cursor, in sequence order. -/
def Db.receivedAfter (db : Db) (roomId deviceId : Uuid) (afterSequence : ℕ) : List ControlMessage :=
  ((db.controlLog roomId).filter fun m =>
    (db.receipts.get (m.id, deviceId)).isSome && afterSequence < m.sequenceNo).insertionSort
    fun a b => a.sequenceNo ≤ b.sequenceNo

/-- `delivered_at = COALESCE(delivered_at, NOW())` on the receipts of a page. -/
def Db.markDelivered (db : Db) (deviceId : Uuid) (messages : List ControlMessage)
    (now : Timestamp) : List Write :=
  messages.filterMap fun m =>
    (db.receipts.get (m.id, deviceId)).map fun r =>
      .putReceipt { r with deliveredAt := some (r.deliveredAt.getD now) }

/-- `list_control_messages`. -/
def listControlMessages (roomId userId deviceId : Uuid) (afterSequence limit : ℕ) (v : DbView) :
    ListStage → StatementOutcome ListStage
  | .checkDevice =>
    if v.db.deviceActive deviceId userId && v.db.isMember roomId userId then
      .next .select [] [] 0
    else .fail (.forbidden "接收设备不是当前房间的可信设备")
  | .select =>
    .next (.lockReceipts ((v.db.receivedAfter roomId deviceId afterSequence).take limit)) [] [] 0
  | .lockReceipts messages =>
    .next (if messages.isEmpty then .commit messages else .markDelivered messages)
      (messages.map fun m => (.receipt m.id deviceId, .update)) [] 0
  | .markDelivered messages =>
    .next (.commit messages) [] (v.db.markDelivered deviceId messages v.now) 0
  | .commit messages => .commit (.controls messages)

/-- Everything a statement of a listing that does not end it can do. -/
inductive ListNext (roomId userId deviceId : Uuid) (afterSequence limit : ℕ) (v : DbView) :
    ListStage → ListStage → Locks LockKey → List Write → Prop where
  | checkDevice (hd : v.db.deviceActive deviceId userId = true)
      (hm : v.db.isMember roomId userId = true) :
      ListNext roomId userId deviceId afterSequence limit v .checkDevice .select [] []
  | select :
      ListNext roomId userId deviceId afterSequence limit v .select
        (.lockReceipts ((v.db.receivedAfter roomId deviceId afterSequence).take limit)) [] []
  | lockReceipts (messages : List ControlMessage) :
      ListNext roomId userId deviceId afterSequence limit v (.lockReceipts messages)
        (if messages.isEmpty then .commit messages else .markDelivered messages)
        (messages.map fun m => (.receipt m.id deviceId, .update)) []
  | markDelivered (messages : List ControlMessage) :
      ListNext roomId userId deviceId afterSequence limit v (.markDelivered messages)
        (.commit messages) [] (v.db.markDelivered deviceId messages v.now)

variable {deviceId : Uuid}

theorem list_next {afterSequence limit : ℕ} {stage stage' : ListStage} {n : ℕ}
    (h : listControlMessages roomId userId deviceId afterSequence limit v stage
      = .next stage' ls ws n) :
    ListNext roomId userId deviceId afterSequence limit v stage stage' ls ws ∧ n = 0 := by
  cases stage with
  | checkDevice =>
    simp only [listControlMessages] at h
    split at h
    · rename_i hc
      rw [Bool.and_eq_true] at hc
      cases h
      exact ⟨.checkDevice hc.1 hc.2, rfl⟩
    · cases h
  | select =>
    cases h
    exact ⟨.select, rfl⟩
  | lockReceipts messages =>
    cases h
    exact ⟨.lockReceipts messages, rfl⟩
  | markDelivered messages =>
    cases h
    exact ⟨.markDelivered messages, rfl⟩
  | commit messages => cases h

theorem list_commit {afterSequence limit : ℕ} {stage : ListStage} {out : Response}
    (h : listControlMessages roomId userId deviceId afterSequence limit v stage = .commit out) :
    ∃ messages, stage = .commit messages ∧ out = .controls messages := by
  cases stage with
  | commit messages =>
    cases h
    exact ⟨messages, rfl, rfl⟩
  | select | lockReceipts | markDelivered => cases h
  | checkDevice =>
    simp only [listControlMessages] at h
    split at h <;> cases h

/-! ## `consume_control_message` -/

/-- The statement of `consume_control_message` and its implicit commit. -/
inductive ConsumeStage where
  | update
  | commit (rows : ℕ)
  deriving DecidableEq

/-- The `CHECK` constraint of `e2ee_control_receipts`: consumed only after delivery. -/
def ControlReceipt.orderCheck (r : ControlReceipt) : Bool :=
  match r.consumedAt, r.deliveredAt with
  | none, _ => true
  | some consumed, some delivered => delivered ≤ consumed
  | some _, none => false

/-- The receipt `consume_control_message` may update. -/
def Db.consumableReceipt (db : Db) (roomId userId deviceId messageId : Uuid) :
    Option ControlReceipt :=
  match db.controls.get messageId, db.receipts.get (messageId, deviceId) with
  | some m, some r =>
    if m.roomId = roomId && db.deviceActive deviceId userId && r.deliveredAt.isSome
        && db.isMember roomId userId then
      some r
    else none
  | _, _ => none

/-- `consume_control_message`. -/
def consumeControlMessage (roomId userId deviceId messageId : Uuid) (v : DbView) :
    ConsumeStage → StatementOutcome ConsumeStage
  | .update =>
    match v.db.consumableReceipt roomId userId deviceId messageId with
    | some r =>
      let updated := { r with consumedAt := some (r.consumedAt.getD v.now) }
      if updated.orderCheck then .next (.commit 1) [] [.putReceipt updated] 0
      else .fail .databaseError
    | none => .next (.commit 0) [] [] 0
  | .commit rows =>
    if rows = 0 then .fail (.notFound "控制消息未投递、无权消费或不存在")
    else .commit .consumed

/-- A consumption writes at most one receipt. -/
theorem consume_next {messageId : Uuid} {stage stage' : ConsumeStage} {n : ℕ}
    (h : consumeControlMessage roomId userId deviceId messageId v stage = .next stage' ls ws n) :
    n = 0 ∧ ls = [] ∧ (ws = [] ∨ ∃ r r' : ControlReceipt, v.db.receipts.get r.key = some r ∧
      r'.key = r.key ∧ ws = [.putReceipt r']) := by
  cases stage with
  | update =>
    simp only [consumeControlMessage] at h
    split at h
    · rename_i r hr
      split at h
      · cases h
        refine ⟨rfl, rfl, Or.inr ⟨r, { r with consumedAt := some (r.consumedAt.getD v.now) }, ?_,
          rfl, rfl⟩⟩
        simp only [Db.consumableReceipt] at hr
        split at hr
        · rename_i m r₀ _ hr₀
          split at hr
          · cases hr
            rw [Table.key_of_get hr₀]
            exact hr₀
          · cases hr
        · cases hr
      · cases h
    · cases h
      exact ⟨rfl, rfl, Or.inl rfl⟩
  | commit rows =>
    simp only [consumeControlMessage] at h
    split at h <;> cases h

/-! ## `get_room_epoch` -/

/-- `get_room_epoch`: one read. -/
def getRoomEpoch (roomId userId : Uuid) (v : DbView) (_ : Unit) : StatementOutcome Unit :=
  match v.db.epochs.get roomId with
  | some e =>
    if v.db.isMember roomId userId then .commit (.roomEpoch e)
    else .fail (.notFound "房间 E2EE 状态不存在或无权访问")
  | none => .fail (.notFound "房间 E2EE 状态不存在或无权访问")

end RedcodeIm
