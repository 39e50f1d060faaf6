import RedcodeIm.Coordinator.DirectMessage

/-!
# The coordinators of the native clients

`E2eeDirectMessageCoordinator` of the Android and of the iOS client.  Both await the same
effects in the same order; a `Platform` says what they do differently.  They have no slot for
pending operations: a change of a group is submitted before anything of it is stored, and a
message that is to be sent is kept in the metadata.

* `Native.bootstrap`, `Native.reconcileGroup`, `Native.syncControls` — the groups.
* `Native.prepareAndSend`, `Native.resumePendingSend`, `Native.decryptIncoming` — the messages.
* `NativeCall.action` — the calls.
-/

namespace RedcodeIm

open Awaiting

variable {σ : Type}

/-- What the native clients do differently. -/
structure Platform where
  /-- The order in which a set of leaves, or of users, is gone through. -/
  leaves : List Leaf → List Leaf
  users : List Uuid → List Uuid
  trim : String → String
  blank : String → Bool
  validPart : AttachmentPart → Bool
  /-- `rememberAttachmentParts`, on the entries of the index. -/
  remember : List (Uuid × List AttachmentPart) → Uuid → List AttachmentPart →
    List (Uuid × List AttachmentPart)
  /-- Whether a message that is pending already is looked for before the identifier of the new
  one is made. -/
  pendingFirst : Bool

/-- The entries of the attachment index of Android: an entry that is there is replaced in its
place. -/
def rememberInPlace (entries : List (Uuid × List AttachmentPart)) (messageId : Uuid)
    (parts : List AttachmentPart) : List (Uuid × List AttachmentPart) :=
  let replaced := if entries.any fun e => e.1 == messageId then
      entries.map fun e => if e.1 = messageId then (messageId, parts) else e
    else entries ++ [(messageId, parts)]
  replaced.drop (replaced.length - 512)

/-- The entries of the attachment index of iOS: an entry that is there is moved to the end. -/
def rememberLast (entries : List (Uuid × List AttachmentPart)) (messageId : Uuid)
    (parts : List AttachmentPart) : List (Uuid × List AttachmentPart) :=
  let replaced := (entries.filter fun e => e.1 ≠ messageId) ++ [(messageId, parts)]
  replaced.drop (replaced.length - 512)

namespace Native

/-- `readMetadata`. -/
def readMetadata : Act σ (DirectMessageMetadata σ) := do
  match ← store .readMetadata with
  | some metadata => pure metadata
  | none => pure DirectMessageMetadata.empty

/-- `storage.read`, or no state. -/
def readState : Act σ σ := do
  match ← store .read with
  | some state => pure state
  | none => raise (.directMessage "E2EE 协议状态缺失")

/-- `storage.readProfile`, or no profile. -/
def readProfile : Act σ DeviceProfile := do
  match ← store .readDeviceProfile with
  | some profile => pure profile
  | none => raise (.directMessage "E2EE 设备档案缺失")

/-- `requireActive`. -/
def requireActive (profile : DeviceProfile) : Act σ Unit :=
  if profile.deviceStatus = .active then pure ()
  else raise (.directMessage "E2EE 设备未批准或已撤销")

/-! ## Changes of a group -/

/-- Submit a control of one's own; its identifier is its idempotency key. -/
def submit (profile : DeviceProfile) (roomId : Uuid) (membershipRevision : ℕ) (id : Uuid)
    (epoch : ℕ) (contentType : ControlContentType) (envelope : Bytes)
    (recipientDeviceId : Option Uuid) : Act σ Unit :=
  api (.submitControlMessage roomId
    { id := id, epoch := epoch, membershipRevision := membershipRevision,
      senderDeviceId := profile.deviceId, recipientDeviceId := recipientDeviceId,
      contentType := contentType, envelope := envelope, idempotencyKey := id })

/-- The state of a change so far, and the id of its last Commit. -/
abbrev Change (σ : Type) : Type := σ × Option Uuid

/-- Remove a leaf. -/
def removal (profile : DeviceProfile) (roomId : Uuid) (membershipRevision : ℕ)
    (change : Change σ) (identity : Leaf) : Act σ (Change σ) := do
  let removed ← core (.removeMember change.1 roomId identity)
  let commitId ← newId
  submit profile roomId membershipRevision commitId removed.epoch .commit removed.commit none
  pure (removed.state, some commitId)

/-- Add a device: the Commit is submitted, then the Welcome. -/
def addition (profile : DeviceProfile) (roomId : Uuid) (membershipRevision : ℕ)
    (change : Change σ) (deviceId : Uuid) : Act σ (Change σ) := do
  let keyPackage ← api (.claimKeyPackage roomId profile.deviceId deviceId)
  let added ← core (.addMember change.1 roomId keyPackage)
  let commitId ← newId
  submit profile roomId membershipRevision commitId added.epoch .commit added.commit none
  let welcomeId ← newId
  submit profile roomId membershipRevision welcomeId added.epoch .welcome added.welcome
    (some deviceId)
  pure (added.state, some commitId)

/-- The state of a change is stored when all of it has been submitted. -/
def finish (profile : DeviceProfile) (roomId : Uuid) (change : Change σ) : Act σ Unit :=
  match change.2 with
  | none => pure ()
  | some lastCommitId => do
    store (.write change.1)
    store (.writeDeviceProfile (profile.withCommit roomId lastCommitId))

/-- `bootstrap`. -/
def bootstrap (accountId roomId : Uuid) (profile : DeviceProfile) (initialState : σ)
    (revision : ℕ) : Act σ σ := do
  let memberDevices ← api (.listRoomMemberDevices roomId)
  let peers := memberDevices.filter fun member => member.userId ≠ accountId
  let devices := peers.flatMap (·.devices)
  if peers.any fun member => member.devices = [] then
    raise (.directMessage "房间存在没有可用 E2EE 设备的成员")
  else if devices = [] then raise (.directMessage "房间没有其他可用的 E2EE 设备")
  else
    let created ← core (.createGroup initialState roomId)
    let change ← devices.foldlM (addition profile roomId revision) (created, none)
    finish profile roomId change
    pure change.1

/-- `reconcileGroup` with a profile that has been read. -/
def reconcileGroup (platform : Platform) (roomId : Uuid) (profile : DeviceProfile) :
    Act σ Unit := do
  let roomEpoch ← api (.getRoomEpoch roomId)
  if roomEpoch.status = .rekeyRequired ∧ profile.joined roomId then
    let state ← readState
    let memberDevices ← api (.listRoomMemberDevices roomId)
    let localMembers ← core (.listMembers state roomId)
    let difference := memberDifference localMembers.eraseDups memberDevices
    let removed ← (platform.leaves difference.1).foldlM
      (removal profile roomId roomEpoch.membershipRevision) (state, none)
    let change ← ((platform.leaves difference.2).map (·.deviceId)).foldlM
      (addition profile roomId roomEpoch.membershipRevision) removed
    finish profile roomId change
  else pure ()

/-! ## The control messages of the others -/

/-- Process the Commits of a list, with the id of the last of them. -/
def processControls (roomId : Uuid) : List ControlMessage → Change σ → Act σ (Change σ)
  | [], change => pure change
  | control :: rest, change => do
    if control.contentType = .commit then
      let result ← core (.processCommit change.1 roomId control.envelope)
      if result.2 = control.epoch then processControls roomId rest (result.1, some control.id)
      else raise (.directMessage "Commit epoch 与本地状态不一致")
    else raise (.directMessage "已入群设备收到意外 Welcome")

/-- Join with the first Welcome of a list and process what follows it. -/
def joinControls (roomId : Uuid) (controls : List ControlMessage) (state : σ) (index : ℕ)
    (welcome : ControlMessage) : Act σ (Change σ) := do
  match matchingCommit controls index welcome.epoch with
  | none => raise (.directMessage "Welcome 缺少对应的 E2EE Commit")
  | some commit =>
    let result ← core (.joinGroup state welcome.envelope)
    if result.2 = welcome.epoch then
      processControls roomId (controls.drop (index + 1)) (result.1, some commit.id)
    else raise (.directMessage "Welcome epoch 与本地状态不一致")

/-- What a page of controls makes of the state; nothing, where the device has not joined and
is not let in. -/
def applyControls (profile : DeviceProfile) (roomId : Uuid) (controls : List ControlMessage)
    (state : σ) : Act σ (Option (Change σ)) := do
  if profile.joined roomId then
    some <$> processControls roomId controls (state, profile.lastCommitMessageIds roomId)
  else
    match welcomeIndex controls with
    | none => pure none
    | some index =>
      let welcome ← required controls[index]?
      some <$> joinControls roomId controls state index welcome

/-- The profile after a page of controls. -/
def syncedProfile (profile : DeviceProfile) (roomId : Uuid) (sequenceNo : ℕ)
    (lastCommit : Option Uuid) : DeviceProfile :=
  match lastCommit with
  | some last => (profile.withCursor roomId sequenceNo).withCommit roomId last
  | none => profile.withCursor roomId sequenceNo

/-- Confirm controls, in their order. -/
def consume (profile : DeviceProfile) (roomId : Uuid) : List ControlMessage → Act σ Unit
  | [] => pure ()
  | control :: rest => do
    api (.consumeControlMessage roomId control.id profile.deviceId)
    consume profile roomId rest

/-- `syncControls`: one page. -/
def syncControls (roomId : Uuid) (profile : DeviceProfile) : Act σ Unit := do
  let state ← readState
  let controls ← api (.listControlMessages roomId profile.deviceId (profile.cursor roomId)
    controlPageLimit)
  match controls.getLast? with
  | none => pure ()
  | some last =>
    match ← applyControls profile roomId controls state with
    | none => pure ()
    | some change =>
      store (.write change.1)
      store (.writeDeviceProfile (syncedProfile profile roomId last.sequenceNo change.2))
      consume profile roomId controls

/-! ## Application messages -/

/-- `verifyIdentity`: the first fingerprint of a peer is trusted, another one blocks. -/
def verifyIdentity (peerUserId : Uuid) : Act σ Unit := do
  let identity ← api (.fetchRootIdentity peerUserId)
  if identity.protocolVersion ≠ 1 ∨ identity.fingerprint.length < 16 then
    raise (.directMessage "E2EE 对端身份无效")
  else
    let metadata ← readMetadata
    match metadata.trustedIdentityFingerprints peerUserId with
    | some previous =>
      if previous = identity.fingerprint then pure ()
      else raise (.directMessage "对端 E2EE 身份已变化，发送已阻断")
    | none =>
      store (.writeMetadata { metadata with
        trustedIdentityFingerprints := Function.update metadata.trustedIdentityFingerprints
          peerUserId (some identity.fingerprint) })

/-- `verifyIdentity` for each of the peers. -/
def verifyIdentities : List Uuid → Act σ Unit
  | [] => pure ()
  | peerUserId :: rest => do
    verifyIdentity peerUserId
    verifyIdentities rest

/-- `rememberMessage`: the last 512 messages of a room are known. -/
def rememberMessage (metadata : DirectMessageMetadata σ) (roomId messageId : Uuid) : Act σ Unit :=
  let ids := metadata.processedMessageIds roomId ++ [messageId]
  store (.writeMetadata { metadata with
    processedMessageIds := Function.update metadata.processedMessageIds roomId
      (ids.drop (ids.length - 512)) })

/-- `rememberAttachmentParts`, where there are any. -/
def rememberAttachmentParts (platform : Platform) (metadata : DirectMessageMetadata σ)
    (messageId : Uuid) (parts : List AttachmentPart) : DirectMessageMetadata σ :=
  if parts = [] then metadata
  else { metadata with
    attachmentPartsByMessageId :=
      platform.remember metadata.attachmentPartsByMessageId messageId parts }

/-- `resumePendingSend`. -/
def resumePendingSend (platform : Platform) : Act σ Uuid := do
  let metadata ← readMetadata
  match metadata.pendingApplication with
  | none => raise (.directMessage "没有待重试的 E2EE 消息")
  | some pending =>
    let messageId ← api (.sendEncryptedMessage
      { roomId := pending.roomId
        senderDeviceId := pending.senderDeviceId
        epoch := pending.epoch
        ciphertext := pending.ciphertext
        idempotencyKey := pending.idempotencyKey
        controlMessageId := some pending.controlMessageId })
    store (.write pending.nextState)
    store (.writeMetadata (rememberAttachmentParts platform
      { metadata with pendingApplication := none } messageId pending.attachmentParts))
    pure messageId

/-- What a message is sent from. -/
structure SendInput where
  accountId : Uuid
  deviceLabel : String
  roomId : Uuid
  peerUserId : Option Uuid
  payload : ApplicationPayload
  attachmentParts : List AttachmentPart
  deriving DecidableEq

/-- The peers whose identities are to be verified. -/
def peers (platform : Platform) (input : SendInput) : Act σ (List Uuid) := do
  match input.peerUserId with
  | some peerUserId => pure [peerUserId]
  | none =>
    let memberDevices ← api (.listRoomMemberDevices input.roomId)
    pure (platform.users (((memberDevices.map (·.userId)).filter (· ≠ input.accountId)).eraseDups))

/-- The room is bootstrapped where it has no group yet. -/
def ensureGroup (input : SendInput) (profile : DeviceProfile) (state : σ) :
    Act σ (σ × RoomEpoch) := do
  let epoch ← api (.getRoomEpoch input.roomId)
  if epoch.activeEpoch = 0 then
    let created ← bootstrap input.accountId input.roomId profile state epoch.membershipRevision
    let epoch ← api (.getRoomEpoch input.roomId)
    pure (created, epoch)
  else pure (state, epoch)

/-- Nothing is pending, or the message is to be sent by hand first. -/
def requireNothingPending : Act σ (DirectMessageMetadata σ) := do
  let metadata ← readMetadata
  if metadata.pendingApplication.isSome then raise (.directMessage "存在待手动重试的 E2EE 消息")
  else pure metadata

/-- The metadata, where nothing is pending, and a fresh identifier, in the order of the
platform. -/
def pendingSlot (platform : Platform) : Act σ (DirectMessageMetadata σ × Uuid) := do
  if platform.pendingFirst then
    let metadata ← requireNothingPending
    let idempotencyKey ← newId
    pure (metadata, idempotencyKey)
  else
    let idempotencyKey ← newId
    let metadata ← requireNothingPending
    pure (metadata, idempotencyKey)

/-- Encrypt a payload and keep what is to be sent. -/
def keepPending (platform : Platform) (input : SendInput) (profile : DeviceProfile) (state : σ)
    (epoch : RoomEpoch) : Act σ Unit := do
  if epoch.status = .active then
    let refreshedProfile ← readProfile
    match refreshedProfile.lastCommitMessageIds input.roomId with
    | none => raise (.directMessage "房间缺少当前 E2EE Commit 索引")
    | some commitId =>
      let encrypted ← core (.encrypt state input.roomId input.payload)
      if encrypted.epoch = epoch.activeEpoch then
        let slot ← pendingSlot platform
        store (.writeMetadata { slot.1 with
          pendingApplication := some
            { roomId := input.roomId, senderDeviceId := profile.deviceId,
              epoch := encrypted.epoch, ciphertext := encrypted.ciphertext,
              nextState := encrypted.state, idempotencyKey := slot.2,
              controlMessageId := commitId, attachmentParts := input.attachmentParts } })
      else raise (.directMessage "本地 E2EE epoch 已过期")
  else raise (.directMessage "房间 E2EE 状态尚未就绪")

/-- `prepareAndSend`. -/
def prepareAndSend (platform : Platform) (input : SendInput) : Act σ Unit := do
  let ready ← ensureReady input.accountId input.deviceLabel
  requireActive ready.1
  let peerUserIds ← peers platform input
  verifyIdentities peerUserIds
  syncControls input.roomId ready.1
  -- the profile is still the one from before the synchronisation
  reconcileGroup platform input.roomId ready.1
  let state ← readState
  let group ← ensureGroup input ready.1 state
  keepPending platform input ready.1 group.1 group.2
  let _ ← resumePendingSend platform
  pure ()

/-- What a message is read from. -/
structure IncomingMessage where
  messageId : Uuid
  roomId : Uuid
  ciphertext : Option Bytes
  plaintext : Option String
  deriving DecidableEq

/-- The checks of `decryptIncoming` on a payload. -/
def checkPayload (platform : Platform) : ApplicationPayload → Option ClientError
  | .text text => if platform.blank text then some (.directMessage "E2EE 消息负载格式无效") else none
  | .attachment _ parts =>
    if parts = [] then some (.directMessage "E2EE 附件负载为空")
    else if parts.all platform.validPart then none
    else some (.directMessage "E2EE 附件密钥参数不完整")

/-- The attachments of a payload. -/
def payloadParts : ApplicationPayload → List AttachmentPart
  | .text _ => []
  | .attachment _ parts => parts

/-- The part of `decryptIncoming` after the synchronisation. -/
def decryptCiphertext (platform : Platform) (metadata : DirectMessageMetadata σ)
    (input : IncomingMessage) (ciphertext : Bytes) : Act σ Unit := do
  let state ← readState
  match ← (core (.decrypt state input.roomId ciphertext)).attempt with
  | .error _ => raise (.directMessage "E2EE 消息解密失败")
  | .ok decrypted =>
    match decrypted.payload with
    | none => raise (.directMessage "E2EE 消息负载格式无效")
    | some payload =>
      match checkPayload platform payload with
      | some err => raise err
      | none =>
        store (.write decrypted.state)
        rememberMessage (rememberAttachmentParts platform metadata input.messageId
          (payloadParts payload)) input.roomId input.messageId

/-- `decryptIncoming`. -/
def decryptIncoming (platform : Platform) (accountId : Uuid) (deviceLabel : String)
    (input : IncomingMessage) : Act σ Unit := do
  let metadata ← readMetadata
  if input.messageId ∈ metadata.processedMessageIds input.roomId then
    raise (.directMessage "E2EE 消息已处理")
  else
    match input.ciphertext with
    | none =>
      if (input.plaintext.map platform.blank).getD true then
        raise (.directMessage "历史消息内容为空")
      else rememberMessage metadata input.roomId input.messageId
    | some ciphertext =>
      if ciphertext = [] then raise (.directMessage "E2EE 密文不能为空")
      else
        let ready ← ensureReady accountId deviceLabel
        requireActive ready.1
        syncControls input.roomId ready.1
        decryptCiphertext platform metadata input ciphertext

end Native

/-- The calls of a native coordinator. -/
inductive NativeCall where
  | sendText (deviceLabel : String) (roomId : Uuid) (peerUserId : Option Uuid) (text : String)
  | sendAttachment (deviceLabel : String) (roomId : Uuid) (peerUserId : Option Uuid)
      (parts : List AttachmentPart) (text : Option String)
  | retryPendingSend
  | hasPendingSend
  | decryptIncoming (deviceLabel : String) (input : Native.IncomingMessage)
  | reconcileGroup (roomId : Uuid)
  | findAttachmentPart (messageId : Uuid) (objectKey : String)
  deriving DecidableEq

/-- What a call of a native coordinator does. -/
def NativeCall.action (platform : Platform) (accountId : Uuid) : NativeCall → Act σ Unit
  | .sendText deviceLabel roomId peerUserId text =>
    if (platform.trim text).isEmpty then raise (.directMessage "加密消息内容不能为空")
    else Native.prepareAndSend platform
      { accountId := accountId, deviceLabel := deviceLabel, roomId := roomId,
        peerUserId := peerUserId, payload := .text (platform.trim text), attachmentParts := [] }
  | .sendAttachment deviceLabel roomId peerUserId parts text =>
    if parts = [] then raise (.directMessage "E2EE 附件列表不能为空")
    else if parts.all platform.validPart then Native.prepareAndSend platform
      { accountId := accountId, deviceLabel := deviceLabel, roomId := roomId,
        peerUserId := peerUserId,
        payload := .attachment ((text.map platform.trim).filter (· ≠ "")) parts,
        attachmentParts := parts }
    else raise (.directMessage "E2EE 附件密钥参数不完整")
  | .retryPendingSend => do
    let _ ← Native.resumePendingSend platform
    pure ()
  | .hasPendingSend => do
    let _ ← Native.readMetadata
    pure ()
  | .decryptIncoming deviceLabel input =>
    Native.decryptIncoming platform accountId deviceLabel input
  | .reconcileGroup roomId => do
    let profile ← Native.readProfile
    Native.reconcileGroup platform roomId profile
  | .findAttachmentPart _ _ => do
    let _ ← Native.readMetadata
    pure ()

end RedcodeIm
