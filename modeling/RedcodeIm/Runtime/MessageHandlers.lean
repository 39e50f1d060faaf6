import RedcodeIm.Core.Envelope
import RedcodeIm.Runtime.Service

/-!
# The handlers of messages

`send_message`, `send_encrypted_message`, `forward_message` and `edit_message` of
`handlers/message.rs`, statement by statement.

* `ensureGroupMessagePermissions`, `ensurePrivateRoomOpen`, `limitRate` — who may send now.
* `sendMessage`, `sendEncryptedMessage`, `forwardMessage`, `editMessage` — the handlers.
* `MessageCall`, `MessageCall.program` — a request for one of them.
-/

namespace RedcodeIm

open Awaiting

/-- Await a statement on messages. -/
def awaitMessage (e : MessageEffect) : ServiceAction e.Reply := await (.message e)

/-- A failure turned into another (`map_err`). -/
def mapErr {α : Type} (err : AppError) (p : ServiceAction α) : ServiceAction α := do
  match ← p.attempt with
  | .ok a => return a
  | .error _ => .fail err

/-- A row that has to be there (`ok_or_else`). -/
def okOr {α : Type} (err : AppError) : Option α → ServiceAction α
  | some a => .done a
  | none => .fail err

/-- An effect whose failure is only logged. -/
def ignoring (p : ServiceAction Unit) : ServiceAction Unit := do
  let _ ← p.attempt
  return ()

/-! ## Who may send -/

/-- `Duration::hours`, in the microseconds of a `TIMESTAMPTZ`. -/
def hours (n : ℤ) : ℤ := n * 3600 * 1000000

section

variable (rfc3339 : ℤ → String)

/-- What a muted user is told; `rfc3339` writes a time. -/
def muteMessage (mute : GroupMute) (now : Timestamp) : String :=
  "您已被禁言" ++
    (if 0 < mute.muteDurationHours then
      let expireAt := mute.mutedAt + hours mute.muteDurationHours
      if (now : ℤ) < expireAt then "，预计 " ++ rfc3339 expireAt ++ " 解除" else ""
    else "") ++
    (match mute.reason with
      | some reason => "：" ++ reason
      | none => "")

def globalMuteMessage (settings : GroupSettings) (now : Timestamp) : String :=
  "当前群聊已开启全体禁言" ++
    (match settings.globalMuteReason with
      | some reason => "：" ++ reason
      | none => "") ++
    (match settings.globalMuteUntil with
      | some expireAt => if now < expireAt then "，预计 " ++ rfc3339 expireAt ++ " 解除" else ""
      | none => "")

def ensureGroupMessagePermissions (roomId senderId : Uuid) : ServiceAction Unit := do
  let roomType ← mapErr (.notFound "Room not found") (awaitMessage (.getRoom roomId))
  if roomType ≠ .groupChat then return ()
  else
    match ← awaitMessage (.findActiveMute roomId senderId) with
    | some mute => do
      let now ← await .utcNow
      .fail (.forbidden (muteMessage rfc3339 mute now))
    | none =>
      match ← awaitMessage (.getGroupSettings roomId) with
      | none => return ()
      | some settings =>
        if settings.globalMuteEnabled then do
          let canManage ← awaitMessage (.canManageGroup roomId senderId)
          if canManage then return ()
          else
            let now ← await .utcNow
            .fail (.forbidden (globalMuteMessage rfc3339 settings now))
        else return ()

end

def ensureNotMutuallyBlocked (userA userB : Uuid) : ServiceAction Unit := do
  if ← awaitMessage (.isMutuallyBlocked userA userB) then
    .fail (.forbidden "操作被阻止：双方存在拉黑关系")
  else return ()

/-- In a private room neither side has blocked the other, as far as the room can be read. -/
def ensurePrivateRoomOpen (roomId senderId : Uuid) : ServiceAction Unit := do
  match ← (awaitMessage (.getRoom roomId)).attempt with
  | .ok .privateChat =>
    match ← (awaitMessage (.listMembers roomId)).attempt with
    | .ok members =>
      match members.find? (· ≠ senderId) with
      | some peer => ensureNotMutuallyBlocked senderId peer
      | none => return ()
    | .error _ => return ()
  | _ => return ()

def ensureMember (roomId userId : Uuid) (message : String) : ServiceAction Unit := do
  if ← awaitMessage (.userInRoom roomId userId) then return ()
  else .fail (.forbidden message)

/-- At most thirty messages of a user in a room in ten seconds. -/
def limitRate (roomId senderId : Uuid) : ServiceAction Unit := do
  let key := s!"rl:send:{senderId}:{roomId}"
  let count ← mapErr (.cacheError "Redis 自增失败") (awaitMessage (.incr key))
  if count = 1 then
    mapErr (.cacheError "Redis 设置过期时间失败") (awaitMessage (.expire key 10))
  if 30 < count then
    .fail (.rateLimitExceeded "消息发送过于频繁：每10秒最多发送30条消息")
  else return ()

/-! ## Attachments -/

def loadDefaultStorageProvider : ServiceAction Uuid := do
  let provider ← awaitMessage .getDefaultProvider
  let (id, isActive) ← okOr (.notFound "未找到默认文件上传提供商配置") provider
  if isActive then return id
  else .fail (.validationError "默认文件上传提供商未启用")

def attachmentCommitRequiredError : AppError :=
  .validationError "附件必须先完成上传提交，请重新上传附件"

def ensureMessageAttachmentKeysAreCommitted (parts : List NewMessagePart) : ServiceAction Unit := do
  let keys := collectAttachmentKeys parts
  if keys = [] then return ()
  else
    let provider ← loadDefaultStorageProvider
    keys.forM fun key => do
      if ← awaitMessage (.hasCompletedByKey provider key) then return ()
      else .fail attachmentCommitRequiredError

def ensureRelayOnlyAttachmentKeysAreCommitted (roomId : Uuid) (parts : List NewMessagePart) :
    ServiceAction Unit := do
  ensure (ensureRelayOnlyAttachmentKeysBelongToRoom (toString roomId) parts)
  ensureMessageAttachmentKeysAreCommitted parts

def MessagePartType.mediaKind : MessagePartType → String
  | .image => "image"
  | .video => "video"
  | .audio => "audio"
  | .file => "document"
  | .text => "text"

/-- What is to be audited of a part: its attachment and its thumbnail. -/
def NewMessagePart.auditItems (part : NewMessagePart) :
    List (String × String × Option String × Option ℤ) :=
  if part.partType = .text then []
  else
    part.attachmentKey.toList.map
      (fun key => (key, part.partType.mediaKind, part.attachmentMime, part.attachmentSize)) ++
    part.thumbnailKey.toList.map fun key => (key, "image", none, none)

/-- Of the items in a row with one key the first stays (`dedup_by`). -/
def dedupByKey {α : Type} : List (String × α) → List (String × α)
  | [] => []
  | item :: items =>
    match dedupByKey items with
    | [] => [item]
    | next :: rest => if next.1 = item.1 then item :: rest else item :: next :: rest

/-- Every attachment has its task in the queue of the audit. -/
def recordAudit (parts : List NewMessagePart) : ServiceAction Unit := do
  let items := dedupByKey ((parts.flatMap NewMessagePart.auditItems).mergeSort
    fun a b => decide (a.1 ≤ b.1))
  if items = [] then return ()
  else
    let provider ← loadDefaultStorageProvider
    items.forM fun (key, mediaKind, contentType, fileSize) =>
      awaitMessage (.upsertAuditTask provider key mediaKind contentType fileSize)

/-! ## Parts of the handlers -/

def ensureQuotable (roomId : Uuid) : Option Uuid → ServiceAction Unit
  | none => return ()
  | some quotedId => do
    let quoted ← awaitMessage (.getMessage quotedId)
    let quoted ← okOr (.validationError "引用的消息不存在") quoted
    if quoted.roomId ≠ roomId then .fail (.validationError "引用消息不属于当前房间")
    else if quoted.deletedAt.isSome then .fail (.validationError "引用的消息已被删除")
    else return ()

/-- What a handler that sends answers. -/
structure SentMessage where
  message : MessageWithSender
  parts : List NewMessagePart
  deriving DecidableEq

/-- A push of a message; where the mode is e2ee, without its text. -/
def pushMessage (message : MessageWithSender) (parts : List NewMessagePart) :
    ServiceAction Unit := do
  let sanitized ← isE2eeRuntime.attempt
  ignoring (awaitMessage (.enqueueNewMessage message parts
    (match sanitized with
      | .ok e2ee => e2ee
      | .error _ => false)))

/-- A stored message is read back, broadcast, pushed and answered. -/
def deliver (messageId : Uuid) (missing : String) (announce : Bool) :
    ServiceAction SentMessage := do
  let enriched ← awaitMessage (.getMessageWithSender messageId)
  let enriched ← okOr (.internalError missing) enriched
  let parts ← awaitMessage (.getMessageParts messageId)
  if announce then
    ignoring (awaitMessage (.broadcastMessage enriched parts))
    pushMessage enriched parts
  return ⟨enriched, parts⟩

/-- `load_runtime_sender`, into the message that is built for the relay. -/
def buildRuntimeMessage (row : MessageRecord) : ServiceAction MessageWithSender := do
  let sender ← awaitMessage (.findUser row.senderId)
  let (username, nickname) ← okOr (.notFound "发送者不存在") sender
  return ⟨row, username, nickname⟩

def collectRelayOnlyAttachmentKeys (parts : List NewMessagePart) : List String :=
  let keys := parts.flatMap fun part => part.attachmentKey.toList ++ part.thumbnailKey.toList
  ((keys.map Text.trim).filter (· ≠ "")).mergeSort.dedup

def revokeRelayOnlyAttachmentGrants (roomId : Uuid) (owner : String) (keys : List String) :
    ServiceAction Unit :=
  keys.forM fun key => ignoring (awaitMessage (.deleteGrant roomId key owner))

/-- The grants for the keys that had none yet; a failure takes back those just given. -/
def registerGrants (roomId : Uuid) (owner : String) : List String → List String →
    ServiceAction (List String)
  | granted, [] => return granted
  | granted, key :: keys => do
    match ← (awaitMessage (.setGrant roomId key owner)).attempt with
    | .ok true => registerGrants roomId owner (granted ++ [key]) keys
    | .ok false => registerGrants roomId owner granted keys
    | .error _ => do
      revokeRelayOnlyAttachmentGrants roomId owner granted
      .fail (.serviceUnavailable "relay_only 附件下载授权服务暂不可用")

/-! ## Sending in plaintext -/

structure SendMessagePayload where
  content : Option String
  parts : List MessagePartPayload
  quotedMessageId : Option Uuid
  deriving DecidableEq

def relayMessage (roomId senderId : Uuid) (contentSummary : String) (messageType : MessageType)
    (parts : List NewMessagePart) : ServiceAction SentMessage := do
  let now ← await .utcNow
  let messageId ← awaitMessage .generateId
  let input : NewMessage := ⟨messageId, roomId, senderId, contentSummary, messageType, none, parts⟩
  let message ← buildRuntimeMessage (input.row now)
  let grants ← registerGrants roomId (toString messageId) [] (collectRelayOnlyAttachmentKeys parts)
  match ← (awaitMessage (.broadcastMessage message parts)).attempt with
  | .ok _ => return ⟨message, parts⟩
  | .error _ => do
    revokeRelayOnlyAttachmentGrants roomId (toString messageId) grants
    .fail (.serviceUnavailable "relay_only 消息实时广播失败，请稍后重试")

section

variable (rfc3339 : ℤ → String)

def sendMessage (roomId senderId : Uuid) (payload : SendMessagePayload) :
    ServiceAction SentMessage := do
  let runtime ← loadMessageRuntimeSettings
  ensure runtime.ensurePlaintextSending
  ensureMember roomId senderId s!"User {senderId} is not a member of room {roomId}"
  ensurePrivateRoomOpen roomId senderId
  ensureGroupMessagePermissions rfc3339 roomId senderId
  limitRate roomId senderId
  if runtime.isRelayOnly ∧ payload.quotedMessageId.isSome then
    .fail (relayOnlyUnsupported "引用消息")
  else
    let (parts, messageType, contentSummary) ←
      ensure (normalizeMessageParts payload.content payload.parts)
    let policy ← awaitMessage .getUploadPolicy
    ensure (checkUploadPolicy policy parts)
    ensure (checkObjectKeys parts)
    if runtime.isRelayOnly then ensureRelayOnlyAttachmentKeysAreCommitted roomId parts
    else ensureMessageAttachmentKeysAreCommitted parts
    recordAudit parts
    ensureQuotable roomId payload.quotedMessageId
    if runtime.isRelayOnly then relayMessage roomId senderId contentSummary messageType parts
    else
      let messageId ← awaitMessage .generateId
      let created ← awaitMessage (.createMessageWithParts
        ⟨messageId, roomId, senderId, contentSummary, messageType, payload.quotedMessageId, parts⟩)
      deliver created.id "新消息加载失败" true

/-! ## Sending encrypted -/

structure SendEncryptedMessagePayload where
  /-- What the Base64 of the request decodes to, if it does. -/
  encryptedContent : Option Bytes
  encryptionMetadata : EncryptionMetadata
  idempotencyKey : Uuid
  quotedMessageId : Option Uuid
  deriving DecidableEq

/-- The checks of an encrypted message on its own: its envelope and the Commit it refers to. -/
def checkEncryptedPayload (payload : SendEncryptedMessagePayload) :
    Except AppError (Bytes × Uuid) :=
  match payload.encryptedContent with
  | none => .error (.validationError "encrypted_content 不是有效的 Base64")
  | some encryptedContent =>
    if encryptedContent = [] then .error (.validationError "encrypted_content 不能为空")
    else
      match validateEnvelope encryptedContent payload.encryptionMetadata with
      | some message => .error (.validationError message)
      | none =>
        if payload.encryptionMetadata.contentType ≠ .application then
          .error (.validationError "消息发送端点只接受 application envelope")
        else if payload.idempotencyKey = 0 then
          .error (.validationError "idempotency_key 不能是 nil UUID")
        else
          match payload.encryptionMetadata.controlMessageId with
          | none => .error (.validationError "application 消息必须引用 control_message_id")
          | some controlMessageId =>
            if 2 ^ 63 ≤ payload.encryptionMetadata.epoch then
              .error (.validationError "encryption_metadata.epoch 无效")
            else .ok (encryptedContent, controlMessageId)

/-- The one part of an encrypted message. -/
def placeholderParts : List NewMessagePart :=
  [{ position := 0, partType := .text, textContent := some encryptedMessagePlaceholder }]

/-- The relay of an encrypted message: checked in a transaction that is kept open, and once for
an idempotency key. -/
def relayEncryptedMessage (input : NewEncryptedMessage) : ServiceAction SentMessage := do
  awaitMessage (.validateApplicationSend input.roomId input.senderId input.senderDeviceId
    input.epoch input.controlMessageId)
  let now ← await .utcNow
  let message ← buildRuntimeMessage
    { input.row now with quotedMessageId := none, encryptedIdempotencyKey := none }
  let owner := toString input.messageId
  let grants ← registerGrants input.roomId owner [] (collectRelayOnlyAttachmentKeys input.parts)
  let key := s!"e2ee:relay-idempotency:{input.roomId}:{input.senderId}:{input.idempotencyKey}"
  match ← (awaitMessage (.setReservation key)).attempt with
  | .error _ => do
    ignoring (awaitMessage .rollbackValidation)
    revokeRelayOnlyAttachmentGrants input.roomId owner grants
    .fail (.cacheError "加密消息幂等键写入失败")
  | .ok false => do
    awaitMessage .rollbackValidation
    revokeRelayOnlyAttachmentGrants input.roomId owner grants
    .fail (.messageRuntimeConflict "encrypted idempotency_key 已使用")
  | .ok true =>
    match ← (awaitMessage (.broadcastMessage message input.parts)).attempt with
    | .error _ => do
      ignoring (awaitMessage (.deleteReservation key))
      ignoring (awaitMessage .rollbackValidation)
      revokeRelayOnlyAttachmentGrants input.roomId owner grants
      .fail (.serviceUnavailable "relay_only 加密消息实时广播失败，请稍后重试")
    | .ok _ => do
      awaitMessage .commitValidation
      return ⟨message, input.parts⟩

/-- `send_encrypted_message`. -/
def sendEncrypted (roomId senderId : Uuid) (payload : SendEncryptedMessagePayload) :
    ServiceAction SentMessage := do
  let runtime ← loadMessageRuntimeSettings
  ensure runtime.ensureEncryptedSending
  ensureMember roomId senderId s!"User {senderId} is not a member of room {roomId}"
  ensureGroupMessagePermissions rfc3339 roomId senderId
  limitRate roomId senderId
  if runtime.isRelayOnly ∧ payload.quotedMessageId.isSome then
    .fail (relayOnlyUnsupported "引用消息")
  else
    let (encryptedContent, controlMessageId) ← ensure (checkEncryptedPayload payload)
    ensureQuotable roomId payload.quotedMessageId
    let messageId ← awaitMessage .generateId
    let input : NewEncryptedMessage :=
      { messageId := messageId
        roomId := roomId
        senderId := senderId
        contentSummary := encryptedMessagePlaceholder
        messageType := .text
        quotedMessageId := payload.quotedMessageId
        parts := placeholderParts
        encryptedContent := encryptedContent
        encryptionMetadata := payload.encryptionMetadata
        idempotencyKey := payload.idempotencyKey
        senderDeviceId := payload.encryptionMetadata.senderDeviceId
        epoch := payload.encryptionMetadata.epoch
        controlMessageId := controlMessageId }
    if runtime.isRelayOnly then relayEncryptedMessage input
    else
      let (created, wasCreated) ← awaitMessage (.createEncryptedMessageWithParts input)
      deliver created.id "新消息加载失败" wasCreated

/-! ## Forwarding -/

def forwardMessage (roomId senderId originalMessageId : Uuid) : ServiceAction SentMessage := do
  let relayOnly ← isRelayOnlyRuntime
  if ← isE2eeRuntime then .fail (.validationError "E2EE 模式暂不支持转发消息")
  else
    ensureMember roomId senderId "用户不在目标房间，无法转发消息"
    ensureGroupMessagePermissions rfc3339 roomId senderId
    if relayOnly then .fail (relayOnlyUnsupported "转发消息")
    else
      let original ← awaitMessage (.getMessageWithSender originalMessageId)
      let original ← okOr (.validationError "原消息不存在或已被删除") original
      if original.message.deletedAt.isSome then
        .fail (.validationError "原消息已删除，无法转发")
      else
        ensureMember original.message.roomId senderId "用户无权转发该消息"
        if original.message.messageType = .system then
          .fail (.validationError "系统消息不支持转发")
        else
          let originalParts ← awaitMessage (.getMessageParts original.message.id)
          recordAudit originalParts
          let messageId ← awaitMessage .generateId
          let created ← awaitMessage
            (.createForwardMessage messageId roomId senderId original originalParts)
          deliver created.id "转发消息加载失败" true

end

/-! ## Editing -/

/-- The text of an edit, trimmed. -/
def checkNewContent (content : String) : Except AppError String :=
  let newContent := Text.trim content
  if newContent = "" then .error (.validationError "消息内容不能为空")
  else if 10000 < newContent.utf8ByteSize then
    .error (.validationError "消息内容不能超过 10000 字符")
  else .ok newContent

/-- The message is one the user may edit. -/
def checkEditable (roomId userId : Uuid) (existing : MessageRecord) : Except AppError Unit :=
  if existing.roomId ≠ roomId then .error (.validationError "消息不属于当前房间")
  else if existing.senderId ≠ userId then .error (.forbidden "仅支持编辑自己发送的消息")
  else if existing.deletedAt.isSome then .error (.validationError "消息已删除，无法编辑")
  else if existing.messageType ≠ .text then .error (.validationError "仅支持编辑文本消息")
  else .ok ()

def editMessage (roomId messageId userId : Uuid) (content : String) :
    ServiceAction SentMessage := do
  ensureMember roomId userId "用户不在该房间，无法编辑消息"
  if ← isRelayOnlyRuntime then .fail (relayOnlyUnsupported "编辑消息")
  else
    let newContent ← ensure (checkNewContent content)
    let existing ← awaitMessage (.getMessageWithSender messageId)
    let existing ← okOr (.validationError "消息不存在") existing
    ensure (checkEditable roomId userId existing.message)
    let updatedRow ← awaitMessage (.updateMessageContent messageId newContent)
    let _ ← okOr (.internalError "编辑消息失败") updatedRow
    let updated ← awaitMessage (.getMessageWithSender messageId)
    let updated ← okOr (.internalError "消息编辑后加载失败") updated
    ignoring (awaitMessage (.broadcastEdited roomId messageId updated.message.editedAt newContent))
    let parts ← awaitMessage (.getMessageParts updated.message.id)
    return ⟨updated, parts⟩

/-! ## Requests -/

/-- A request for one of the handlers. -/
inductive MessageCall where
  | send (roomId senderId : Uuid) (payload : SendMessagePayload)
  | sendEncrypted (roomId senderId : Uuid) (payload : SendEncryptedMessagePayload)
  | forward (roomId senderId originalMessageId : Uuid)
  | edit (roomId messageId userId : Uuid) (content : String)

def MessageCall.program (rfc3339 : ℤ → String) : MessageCall → ServiceAction SentMessage
  | .send roomId senderId payload => sendMessage rfc3339 roomId senderId payload
  | .sendEncrypted roomId senderId payload =>
    RedcodeIm.sendEncrypted rfc3339 roomId senderId payload
  | .forward roomId senderId originalMessageId =>
    forwardMessage rfc3339 roomId senderId originalMessageId
  | .edit roomId messageId userId content => editMessage roomId messageId userId content

end RedcodeIm
