import RedcodeIm.Lib.Interleaving
import RedcodeIm.Runtime.MessageRuntime
import RedcodeIm.Runtime.Messages

/-!
# What the services await

A handler acts through the statements and transactions it awaits, each of them atomic, and
other handlers run between any two of them.

* `E2eeRuntimeGateRecord` — the one row of `e2ee_runtime_gate`.
* `MessageEffect`, `ServiceEffect`, `Service` — the statements and transactions of the stores.
* `ServiceState`, `ServiceState.apply` — the tables, and what a statement makes of them;
  `ServiceEffect.Answers` — what it answers.
* `serviceEnv` — a statement is carried out and answered, or it fails; one that fails may
  have been carried out all the same.
* `loadMessageRuntimeSettings`, `isRelayOnlyRuntime`, `isE2eeRuntime`,
  `updateMessageRuntimeSettings` — `services/message_runtime.rs`.
-/

namespace RedcodeIm

open Awaiting

/-! ## The gate -/

/-- `e2ee_runtime_gate.state`. -/
inductive GateState where
  | plaintext
  | prepare
  | active
  deriving DecidableEq

/-- A `JSONB` value, as far as it is looked at: an object with texts among its fields. -/
inductive JsonValue where
  | object (fields : List (String × Option String))
  | other
  deriving DecidableEq

/-- The row of `e2ee_runtime_gate`. -/
structure E2eeRuntimeGateRecord where
  state : GateState
  readinessRevision : ℤ
  readinessComputedAt : Option Timestamp
  minClientVersions : JsonValue
  requiredCoveragePercent : ℕ
  keyPackageLowWatermark : ℕ
  securityReviewApproved : Bool
  updatedAt : Timestamp
  updatedBy : Option Uuid
  deriving DecidableEq

/-- A row of `list_active_device_capabilities`. -/
structure DeviceCapabilityRecord where
  id : Uuid
  userId : Uuid
  status : DeviceStatus
  clientPlatform : Option String
  clientVersion : Option String
  clientBuild : Option String
  deriving DecidableEq

/-- A row of `list_active_device_inventory`. -/
structure DeviceInventoryRecord where
  deviceId : Uuid
  available : ℕ
  deriving DecidableEq

/-! ## Rooms -/

inductive RoomType where
  | privateChat
  | groupChat
  | publicRoom
  | favorite
  deriving DecidableEq

/-- A row of `group_mutes`. -/
structure GroupMute where
  reason : Option String
  muteDurationHours : ℤ
  mutedAt : Timestamp
  deriving DecidableEq

/-- A row of `group_settings`. -/
structure GroupSettings where
  globalMuteEnabled : Bool
  globalMuteUntil : Option Timestamp
  globalMuteReason : Option String
  deriving DecidableEq

/-! ## Effects -/

/-- A setting to be written. -/
structure SettingInput where
  key : String
  value : String
  description : String
  deriving DecidableEq

/-- A message in plaintext, to be stored. -/
structure NewMessage where
  messageId : Uuid
  roomId : Uuid
  senderId : Uuid
  contentSummary : String
  messageType : MessageType
  quotedMessageId : Option Uuid
  parts : List NewMessagePart
  deriving DecidableEq

/-- An encrypted message, to be stored. -/
structure NewEncryptedMessage extends NewMessage where
  encryptedContent : Bytes
  encryptionMetadata : EncryptionMetadata
  idempotencyKey : Uuid
  senderDeviceId : Uuid
  epoch : ℕ
  controlMessageId : Uuid
  deriving DecidableEq

/-- What the handlers of messages await. -/
inductive MessageEffect where
  | generateId
  | userInRoom (roomId userId : Uuid)
  | getRoom (roomId : Uuid)
  | listMembers (roomId : Uuid)
  | isMutuallyBlocked (userA userB : Uuid)
  | findActiveMute (roomId userId : Uuid)
  | getGroupSettings (roomId : Uuid)
  | canManageGroup (roomId userId : Uuid)
  | incr (key : String)
  | expire (key : String) (seconds : ℕ)
  | getUploadPolicy
  | getDefaultProvider
  | hasCompletedByKey (providerId : Uuid) (key : String)
  | upsertAuditTask (providerId : Uuid) (key mediaKind : String) (contentType : Option String)
      (fileSize : Option ℤ)
  | findUser (userId : Uuid)
  | setGrant (roomId : Uuid) (key owner : String)
  | deleteGrant (roomId : Uuid) (key owner : String)
  | setReservation (key : String)
  | deleteReservation (key : String)
  | validateApplicationSend (roomId senderId senderDeviceId : Uuid) (epoch : ℕ)
      (controlMessageId : Uuid)
  | commitValidation
  | rollbackValidation
  | broadcastMessage (message : MessageWithSender) (parts : List NewMessagePart)
  | broadcastEdited (roomId messageId : Uuid) (editedAt : Option Timestamp) (content : String)
  | enqueueNewMessage (message : MessageWithSender) (parts : List NewMessagePart) (sanitized : Bool)
  | getMessage (messageId : Uuid)
  | getMessageWithSender (messageId : Uuid)
  | getMessageParts (messageId : Uuid)
  | createMessageWithParts (input : NewMessage)
  | createEncryptedMessageWithParts (input : NewEncryptedMessage)
  | createForwardMessage (messageId targetRoomId senderId : Uuid) (original : MessageWithSender)
      (originalParts : List NewMessagePart)
  | updateMessageContent (messageId : Uuid) (newContent : String)

abbrev MessageEffect.Reply : MessageEffect → Type
  | .generateId => Uuid
  | .userInRoom .. => Bool
  | .getRoom _ => RoomType
  | .listMembers _ => List Uuid
  | .isMutuallyBlocked .. => Bool
  | .findActiveMute .. => Option GroupMute
  | .getGroupSettings _ => Option GroupSettings
  | .canManageGroup .. => Bool
  | .incr _ => ℤ
  | .expire .. => Unit
  | .getUploadPolicy => UploadPolicy
  | .getDefaultProvider => Option (Uuid × Bool)
  | .hasCompletedByKey .. => Bool
  | .upsertAuditTask .. => Unit
  | .findUser _ => Option (String × Option String)
  | .setGrant .. => Bool
  | .deleteGrant .. => Unit
  | .setReservation _ => Bool
  | .deleteReservation _ => Unit
  | .validateApplicationSend .. => Unit
  | .commitValidation => Unit
  | .rollbackValidation => Unit
  | .broadcastMessage .. => Unit
  | .broadcastEdited .. => Unit
  | .enqueueNewMessage .. => Unit
  | .getMessage _ => Option MessageRecord
  | .getMessageWithSender _ => Option MessageWithSender
  | .getMessageParts _ => List NewMessagePart
  | .createMessageWithParts _ => MessageRecord
  | .createEncryptedMessageWithParts _ => MessageRecord × Bool
  | .createForwardMessage .. => MessageRecord
  | .updateMessageContent .. => Option MessageRecord

/-- The statements and transactions the services await. -/
inductive ServiceEffect where
  | readGate
  | updateGate (state : GateState) (readinessRevision : ℤ)
      (readinessComputedAt : Option Timestamp) (updatedBy : Option Uuid)
  | activateGateTransaction (revision : ℤ) (adminId : Option Uuid)
  | rollbackGateTransaction (adminId : Option Uuid)
  | listActiveDeviceCapabilities
  | listActiveDeviceInventory (lowWatermark : ℕ)
  | countPendingApprovalDevices
  | getGeneralSetting (key : String)
  | upsertGeneralSettingsAtomic (settings : List SettingInput) (updatedBy : Option Uuid)
  | utcNow
  | message (e : MessageEffect)

abbrev ServiceEffect.Reply : ServiceEffect → Type
  | .readGate => E2eeRuntimeGateRecord
  | .updateGate .. => Unit
  | .activateGateTransaction .. => Unit
  | .rollbackGateTransaction .. => Unit
  | .listActiveDeviceCapabilities => List DeviceCapabilityRecord
  | .listActiveDeviceInventory _ => List DeviceInventoryRecord
  | .countPendingApprovalDevices => ℕ
  | .getGeneralSetting _ => Option GeneralSettingRecord
  | .upsertGeneralSettingsAtomic .. => Unit
  | .utcNow => Timestamp
  | .message e => e.Reply

abbrev Service : Signature := ⟨ServiceEffect, ServiceEffect.Reply, AppError⟩

abbrev ServiceAction (α : Type) : Type := Action Service α

/-- Await a statement. -/
def await (e : ServiceEffect) : ServiceAction e.Reply := Action.perform (S := Service) e

/-- A check that may end the call, in its place (`?`). -/
def ensure {α : Type} : Except AppError α → ServiceAction α
  | .ok a => .done a
  | .error err => .fail err

/-! ## The tables -/

structure ServiceState where
  gate : E2eeRuntimeGateRecord
  settings : String → Option GeneralSettingRecord
  messages : Table MessageRecord.id
  /-- `message_parts`, in their order, under the message they belong to. -/
  parts : Uuid → List NewMessagePart

open ServiceState

/-- `INSERT INTO general_settings … ON CONFLICT (key) DO UPDATE`. -/
def ServiceState.upsertSetting (updatedBy : Option Uuid) (now : Timestamp) (s : ServiceState)
    (input : SettingInput) : ServiceState :=
  { s with
    settings := Function.update s.settings input.key
      (some ⟨input.key, input.value, input.description, now, updatedBy⟩) }

/-- The setting that the transactions of the gate write. -/
def contentAuditModeInput (mode : MessageContentAuditMode) : SettingInput where
  key := messageContentAuditModeKey
  value := mode.asStr
  description := "消息内容审计模式（plaintext=明文可审计，e2ee=端侧加密）"

/-- The row of a message in plaintext. -/
def NewMessage.row (input : NewMessage) (now : Timestamp) : MessageRecord where
  id := input.messageId
  roomId := input.roomId
  senderId := input.senderId
  content := input.contentSummary
  encryptedContent := none
  encryptionMetadata := none
  messageType := input.messageType
  quotedMessageId := input.quotedMessageId
  encryptedIdempotencyKey := none
  forwardFrom := {}
  createdAt := now
  updatedAt := now
  deletedAt := none
  editedAt := none

/-- The row of an encrypted message. -/
def NewEncryptedMessage.row (input : NewEncryptedMessage) (now : Timestamp) : MessageRecord :=
  { input.toNewMessage.row now with
    encryptedContent := some input.encryptedContent
    encryptionMetadata := some input.encryptionMetadata
    encryptedIdempotencyKey := some input.idempotencyKey }

/-- Where a message that is forwarded comes from: where it came from itself, if it was. -/
def MessageWithSender.origin (original : MessageWithSender) : ForwardOrigin :=
  let forwardFrom := original.message.forwardFrom
  match forwardFrom.messageId with
  | some forwardId =>
    { messageId := some forwardId
      roomId := some (forwardFrom.roomId.getD original.message.roomId)
      senderId := some (forwardFrom.senderId.getD original.message.senderId)
      senderUsername := some (forwardFrom.senderUsername.getD original.senderUsername)
      senderNickname := forwardFrom.senderNickname.or original.senderNickname }
  | none =>
    { messageId := some original.message.id
      roomId := some original.message.roomId
      senderId := some original.message.senderId
      senderUsername := some original.senderUsername
      senderNickname := original.senderNickname }

/-- A message that is forwarded, with its parts or, without any, its content as one. -/
def MessageWithSender.forwarded (original : MessageWithSender)
    (originalParts : List NewMessagePart) (messageId targetRoomId senderId : Uuid) :
    NewMessage where
  messageId := messageId
  roomId := targetRoomId
  senderId := senderId
  contentSummary := original.message.content
  messageType := original.message.messageType
  quotedMessageId := none
  parts :=
    if originalParts = [] then
      [{ position := 0, partType := .text, textContent := some original.message.content }]
    else originalParts

/-- A message and its parts are inserted, unless its id is taken. -/
def ServiceState.insertMessage (s : ServiceState) (row : MessageRecord)
    (parts : List NewMessagePart) : ServiceState :=
  match s.messages.get row.id with
  | some _ => s
  | none =>
    { s with
      messages := s.messages.insert row
      parts := Function.update s.parts row.id parts }

/-- The encrypted message that an idempotency key is bound to. -/
def ServiceState.findEncrypted (s : ServiceState) (input : NewEncryptedMessage) :
    Option MessageRecord :=
  s.messages.rows.find? fun row => row.roomId = input.roomId ∧ row.senderId = input.senderId ∧
    row.encryptedIdempotencyKey = some input.idempotencyKey

/-- `update_message_content` on a row. -/
def MessageRecord.edited (row : MessageRecord) (newContent : String) (now : Timestamp) :
    MessageRecord :=
  { row with
    content := newContent
    editedAt := some now
    updatedAt := now }

/-- The row of a message that is not deleted. -/
def ServiceState.live (s : ServiceState) (messageId : Uuid) : Option MessageRecord :=
  (s.messages.get messageId).filter (·.deletedAt.isNone)

def ServiceState.createEncryptedMessage (s : ServiceState) (input : NewEncryptedMessage)
    (now : Timestamp) : ServiceState :=
  match s.findEncrypted input with
  | some _ => s
  | none => s.insertMessage (input.row now) input.parts

def ServiceState.createForwardMessage (s : ServiceState) (messageId targetRoomId senderId : Uuid)
    (original : MessageWithSender) (originalParts : List NewMessagePart) (now : Timestamp) :
    ServiceState :=
  let input := original.forwarded originalParts messageId targetRoomId senderId
  s.insertMessage { input.row now with forwardFrom := original.origin } input.parts

def ServiceState.updateMessageContent (s : ServiceState) (messageId : Uuid) (newContent : String)
    (now : Timestamp) : ServiceState :=
  match s.live messageId with
  | some row => { s with messages := s.messages.put (row.edited newContent now) }
  | none => s

/-- What is in the tables of the messages after a statement or transaction. -/
def ServiceState.applyMessage (s : ServiceState) (now : Timestamp) : MessageEffect → ServiceState
  | .createMessageWithParts input => s.insertMessage (input.row now) input.parts
  | .createEncryptedMessageWithParts input => s.createEncryptedMessage input now
  | .createForwardMessage messageId targetRoomId senderId original originalParts =>
    s.createForwardMessage messageId targetRoomId senderId original originalParts now
  | .updateMessageContent messageId newContent => s.updateMessageContent messageId newContent now
  | _ => s

/-- What is in the tables after a statement or transaction. -/
def ServiceState.apply (s : ServiceState) (now : Timestamp) : ServiceEffect → ServiceState
  | .updateGate state readinessRevision readinessComputedAt updatedBy =>
    { s with
      gate := { s.gate with
        state := state
        readinessRevision := readinessRevision
        readinessComputedAt := readinessComputedAt
        updatedAt := now
        updatedBy := updatedBy } }
  | .activateGateTransaction revision adminId =>
    { s with
      gate := { s.gate with
        state := .active
        readinessRevision := revision
        readinessComputedAt := some now
        updatedAt := now
        updatedBy := adminId } }.upsertSetting adminId now (contentAuditModeInput .e2ee)
  | .rollbackGateTransaction adminId =>
    { s with
      gate := { s.gate with
        state := .plaintext
        updatedAt := now
        updatedBy := adminId } }.upsertSetting adminId now (contentAuditModeInput .plaintext)
  | .upsertGeneralSettingsAtomic settings updatedBy =>
    settings.foldl (upsertSetting updatedBy now) s
  | .message e => s.applyMessage now e
  | _ => s

theorem ServiceState.upsertSettings_aside (updatedBy : Option Uuid) (now : Timestamp)
    (settings : List SettingInput) (s : ServiceState) :
    (settings.foldl (upsertSetting updatedBy now) s).messages = s.messages ∧
      (settings.foldl (upsertSetting updatedBy now) s).parts = s.parts := by
  induction settings generalizing s with
  | nil => exact ⟨rfl, rfl⟩
  | cons input settings ih => exact ih (s.upsertSetting updatedBy now input)

theorem ServiceState.insertMessage_aside (s : ServiceState) (row : MessageRecord)
    (parts : List NewMessagePart) :
    (s.insertMessage row parts).gate = s.gate ∧
      (s.insertMessage row parts).settings = s.settings := by
  unfold insertMessage
  cases s.messages.get row.id with
  | none | some => exact ⟨rfl, rfl⟩

/-- A statement on messages leaves the gate and the settings as they are. -/
theorem ServiceState.applyMessage_aside (s : ServiceState) (now : Timestamp) (e : MessageEffect) :
    (s.applyMessage now e).gate = s.gate ∧ (s.applyMessage now e).settings = s.settings := by
  unfold applyMessage
  cases e with
  | createMessageWithParts | createForwardMessage => exact s.insertMessage_aside _ _
  | createEncryptedMessageWithParts input =>
    dsimp only
    unfold createEncryptedMessage
    cases s.findEncrypted input with
    | none => exact s.insertMessage_aside _ _
    | some existing => exact ⟨rfl, rfl⟩
  | updateMessageContent messageId newContent =>
    dsimp only
    unfold updateMessageContent
    cases s.live messageId with
    | none | some => exact ⟨rfl, rfl⟩
  | _ => exact ⟨rfl, rfl⟩

/-- What a statement on messages answers, from the tables before and after it. -/
def MessageEffect.Answers (s s' : ServiceState) : (e : MessageEffect) → e.Reply → Prop
  | .getMessage messageId, row => row = s.messages.get messageId
  | .getMessageWithSender messageId, row => row.map (·.message) = s.messages.get messageId
  | .getMessageParts messageId, parts => parts = s.parts messageId
  | .createMessageWithParts input, row =>
    s.messages.get input.messageId = none ∧ s'.messages.get input.messageId = some row
  | .createForwardMessage messageId .., row =>
    s.messages.get messageId = none ∧ s'.messages.get messageId = some row
  | .createEncryptedMessageWithParts input, (row, wasCreated) =>
    match s.findEncrypted input with
    | some existing => row = existing ∧ wasCreated = false ∧
        existing.encryptedContent = some input.encryptedContent ∧
        existing.encryptionMetadata = some input.encryptionMetadata ∧
        existing.quotedMessageId = input.quotedMessageId
    | none => s.messages.get input.messageId = none ∧
        s'.messages.get input.messageId = some row ∧ wasCreated = true
  | .updateMessageContent messageId _, row => row = s'.live messageId
  | _, _ => True

/-- What a statement answers: the rows of the other tables are anyone's. -/
def ServiceEffect.Answers (s s' : ServiceState) : (e : ServiceEffect) → e.Reply → Prop
  | .readGate, gate => gate = s.gate
  | .getGeneralSetting key, record => record = s.settings key
  | .message e, a => e.Answers s s' a
  | _, _ => True

/-- A statement is carried out and answered; or it fails, carried out or not. -/
def serviceEnv : Env Service ServiceState := fun s e r s' =>
  (∃ now, s' = s.apply now e ∧ ∀ a, r = .ok a → ServiceEffect.Answers s s' e a) ∨
    (s' = s ∧ ∃ err, r = .error err)

/-! ## Settings -/

def loadMessageRuntimeSettings : ServiceAction MessageRuntimeSettings := do
  let serverStorage ← await (.getGeneralSetting messageServerStorageModeKey)
  let contentAudit ← await (.getGeneralSetting messageContentAuditModeKey)
  let (updatedAt, updatedBy) := mergeMessageRuntimeMetadata serverStorage contentAudit
  let serverStorageMode ← ensure (storedMode MessageServerStorageMode.parse .persist serverStorage)
  let contentAuditMode ← ensure (storedMode MessageContentAuditMode.parse .plaintext contentAudit)
  return ⟨serverStorageMode, contentAuditMode, updatedAt, updatedBy⟩

def isRelayOnlyRuntime : ServiceAction Bool := do
  let settings ← loadMessageRuntimeSettings
  return settings.isRelayOnly

def isE2eeRuntime : ServiceAction Bool := do
  let setting ← await (.getGeneralSetting messageContentAuditModeKey)
  let mode ← ensure (storedMode MessageContentAuditMode.parse .plaintext setting)
  return mode = .e2ee

/-- The settings that `update_message_runtime_settings` writes. -/
def messageRuntimeInputs (serverStorageMode : MessageServerStorageMode)
    (contentAuditMode : MessageContentAuditMode) : List SettingInput :=
  [⟨messageServerStorageModeKey, serverStorageMode.asStr, "消息服务器存储模式（persist=落库，relay_only=仅转发）"⟩,
    contentAuditModeInput contentAuditMode]

def updateMessageRuntimeSettings (serverStorageMode : MessageServerStorageMode)
    (contentAuditMode : MessageContentAuditMode) (updatedBy : Option Uuid) :
    ServiceAction MessageRuntimeSettings := do
  await (.upsertGeneralSettingsAtomic
    (messageRuntimeInputs serverStorageMode contentAuditMode) updatedBy)
  loadMessageRuntimeSettings

/-! ## The effects of a program -/

section

variable {P : ServiceEffect → Prop} {α β : Type}

theorem uses_await_bind {e : ServiceEffect} {f : e.Reply → ServiceAction α} (h : P e)
    (hf : ∀ a, Action.Uses P (f a)) : Action.Uses P (await e >>= f) :=
  Action.Uses.bind (Action.uses_perform h) hf

theorem uses_ensure {check : Except AppError α} : Action.Uses P (ensure check) := by
  cases check with
  | error | ok => trivial

theorem uses_ensure_bind {check : Except AppError α} {f : α → ServiceAction β}
    (hf : ∀ a, check = .ok a → Action.Uses P (f a)) : Action.Uses P (ensure check >>= f) := by
  cases check with
  | error err => trivial
  | ok a => exact hf a rfl

theorem uses_loadMessageRuntimeSettings (h : ∀ key, P (.getGeneralSetting key)) :
    loadMessageRuntimeSettings.Uses P := by
  refine uses_await_bind (h _) fun serverStorage => ?_
  refine uses_await_bind (h _) fun contentAudit => ?_
  refine uses_ensure_bind fun serverStorageMode _ => ?_
  exact uses_ensure_bind fun contentAuditMode _ => trivial

theorem uses_isRelayOnlyRuntime (h : ∀ key, P (.getGeneralSetting key)) :
    isRelayOnlyRuntime.Uses P :=
  (uses_loadMessageRuntimeSettings h).bind fun _ => trivial

theorem uses_isE2eeRuntime (h : ∀ key, P (.getGeneralSetting key)) : isE2eeRuntime.Uses P := by
  refine uses_await_bind (h _) fun setting => ?_
  exact uses_ensure_bind fun mode _ => trivial

end

end RedcodeIm
